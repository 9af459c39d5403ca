/-
This file defines a text with a reading position in it. The bytes before the position are kept,
latest first, because a jump may lead back to them; reading on only ever moves forward.
-/

import Scoresheet.Bytes

namespace Scoresheet

/-- The bytes before a reading position, latest first, and the bytes from it on. -/
structure Cursor where
  behind : Bytes
  ahead : Bytes
  deriving DecidableEq, Repr

namespace Cursor

/-- At the beginning of a text. -/
def start (text : Bytes) : Cursor := ⟨[], text⟩

def position (cursor : Cursor) : Nat := cursor.behind.length

def size (cursor : Cursor) : Nat := cursor.behind.length + cursor.ahead.length

/-- Forward by the given number of bytes, but not past the end. -/
def advance (count : Nat) (cursor : Cursor) : Cursor :=
  ⟨(cursor.ahead.take count).reverse ++ cursor.behind, cursor.ahead.drop count⟩

/-- Backward by the given number of bytes, but not past the beginning. -/
def retreat (count : Nat) (cursor : Cursor) : Cursor :=
  ⟨cursor.behind.drop count, (cursor.behind.take count).reverse ++ cursor.ahead⟩

/-- To a position, or to the end if it lies beyond. -/
def moveTo (target : Nat) (cursor : Cursor) : Cursor :=
  if cursor.position ≤ target then cursor.advance (target - cursor.position)
  else cursor.retreat (cursor.position - target)

/-- To the end. -/
def close (cursor : Cursor) : Cursor := ⟨cursor.ahead.reverse ++ cursor.behind, []⟩

/-- The number of positions a machine word can tell apart. -/
def wordSize : Nat := 0x10000000000000000

/-- Past the given number of bytes. The new position is computed in a machine word, so a count
that overflows it leads back towards the beginning. -/
def consume (count : Nat) (cursor : Cursor) : Cursor :=
  cursor.moveTo ((cursor.position + count) % wordSize)

/-! ### Where a move leads -/

@[simp] theorem ahead_advance (count : Nat) (cursor : Cursor) :
    (cursor.advance count).ahead = cursor.ahead.drop count := rfl

theorem size_advance (count : Nat) (cursor : Cursor) :
    (cursor.advance count).size = cursor.size := by
  simp only [size, advance, List.length_append, List.length_reverse, List.length_take,
    List.length_drop]
  omega

theorem size_retreat (count : Nat) (cursor : Cursor) :
    (cursor.retreat count).size = cursor.size := by
  simp only [size, retreat, List.length_append, List.length_reverse, List.length_take,
    List.length_drop]
  omega

theorem size_consume (count : Nat) (cursor : Cursor) :
    (cursor.consume count).size = cursor.size := by
  unfold consume moveTo
  split
  · exact size_advance _ _
  · exact size_retreat _ _

/-- A count that overflows no machine word leads forward. -/
theorem consume_of_lt {count : Nat} {cursor : Cursor}
    (within : cursor.position + count < wordSize) :
    cursor.consume count = cursor.advance count := by
  unfold consume moveTo
  rw [Nat.mod_eq_of_lt within, if_pos (Nat.le_add_right _ _), Nat.add_sub_cancel_left]

/-- A count that overflows it leads backward, by as much as the count falls short of the size of a
machine word. -/
theorem consume_of_le {count : Nat} {cursor : Cursor} (word : count < wordSize)
    (placed : cursor.position < wordSize) (beyond : wordSize ≤ cursor.position + count) :
    cursor.consume count = cursor.retreat (wordSize - count) := by
  have target : (cursor.position + count) % wordSize = cursor.position + count - wordSize := by
    rw [Nat.mod_eq_sub_mod beyond, Nat.mod_eq_of_lt (by omega)]
  have back : ¬ cursor.position ≤ cursor.position + count - wordSize := by omega
  have steps : cursor.position - (cursor.position + count - wordSize) = wordSize - count := by
    omega
  unfold consume moveTo
  rw [target, if_neg back, steps]

end Cursor

end Scoresheet
