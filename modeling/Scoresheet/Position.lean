/-
This file says where something stands in an input: a place in the text as lines and columns are
counted, and how reading on moves it. A line ends with its line feed, columns and offsets count
bytes, and the first line may be counted from behind a byte order mark.
-/

import Scoresheet.Bytes

namespace Scoresheet

/-- Where a token starts: a line counted from one, a column and an offset counted from zero. -/
structure Position where
  line : Nat
  column : Nat
  offset : Nat
  deriving DecidableEq, Repr

namespace Position

def message (position : Position) : String :=
  s!"line {position.line}, column {position.column}"

end Position

/-- How far an input has been read. -/
structure Place where
  offset : Nat
  line : Nat
  lineStart : Nat
  deriving DecidableEq, Repr

namespace Place

/-- Before the first byte. -/
def start : Place := ⟨0, 1, 0⟩

def position (place : Place) : Position :=
  ⟨place.line, place.offset - place.lineStart, place.offset⟩

/-- The place behind one more byte. -/
def next (place : Place) (byte : UInt8) : Place :=
  if byte = Ascii.lineFeed then ⟨place.offset + 1, place.line + 1, place.offset + 1⟩
  else { place with offset := place.offset + 1 }

/-- The place behind the given bytes. -/
def pass (place : Place) (text : Bytes) : Place := text.foldl next place

/-- Whether the next byte is the first of its line. -/
def atLineStart (place : Place) : Bool := place.offset == place.lineStart

/-! ### Reading on -/

@[simp] theorem pass_nil (place : Place) : place.pass [] = place := rfl

theorem pass_append (place : Place) (first second : Bytes) :
    place.pass (first ++ second) = (place.pass first).pass second :=
  List.foldl_append

theorem offset_next (place : Place) (byte : UInt8) :
    (place.next byte).offset = place.offset + 1 := by
  unfold next
  split <;> rfl

theorem offset_pass (place : Place) (text : Bytes) :
    (place.pass text).offset = place.offset + text.length := by
  induction text generalizing place with
  | nil => rfl
  | cons byte rest inductionHypothesis =>
    show ((place.next byte).pass rest).offset = _
    rw [inductionHypothesis, offset_next, List.length_cons]
    omega

theorem line_next (place : Place) (byte : UInt8) :
    (place.next byte).line = place.line + [byte].count Ascii.lineFeed := by
  unfold next
  split
  · next same => rw [same]; rfl
  · next different => rw [List.count_singleton, if_neg (by simpa using different)]; rfl

/-- Every line feed that is passed begins a line. -/
theorem line_pass (place : Place) (text : Bytes) :
    (place.pass text).line = place.line + text.count Ascii.lineFeed := by
  induction text generalizing place with
  | nil => rfl
  | cons byte rest inductionHypothesis =>
    show ((place.next byte).pass rest).line = _
    rw [inductionHypothesis, line_next, Nat.add_assoc, ← List.count_append]
    rfl

end Place

end Scoresheet
