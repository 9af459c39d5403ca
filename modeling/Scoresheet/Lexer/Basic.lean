/-
This file defines the state of a lexer and the steps it is built from. A lexer remembers the token
it produced last, because what a run of bytes means depends on it. A scan is a step that reads on:
it gives a value, or is cut short by a source that fails, and either way leaves the state it has
reached, since a failed scan may already have passed bytes.

What a scan may do to the input is said by `Reads`: it passes a first part of the content, and the
place moves over exactly that part.
-/

import Scoresheet.Source
import Scoresheet.Token

namespace Scoresheet

structure Lexer where
  source : Source
  /-- The kind of the current token. -/
  kind : TokenKind
  scope : Scope
  /-- Whether the scope is still to be found from the next byte that matters. -/
  unsettled : Bool
  /-- Whether only comments were read since the movetext began, so that headers may still follow. -/
  opening : Bool
  /-- The bytes of the current token, latest first. -/
  captured : Bytes
  /-- Where the current token starts. -/
  start : Position
  place : Place
  deriving DecidableEq, Repr

namespace Lexer

/-- Before the first token. -/
def ofSource (source : Source) : Lexer where
  source := source
  kind := .undefined
  scope := .outside
  unsettled := true
  opening := false
  captured := []
  start := Place.start.position
  place := .start

/-- The bytes of the current token. -/
def span (lexer : Lexer) : Bytes := lexer.captured.reverse

/-- Whether no more tokens will be produced. -/
def isExhausted (lexer : Lexer) : Bool := lexer.scope == .outside && !lexer.unsettled

/-- The current token. -/
def token (lexer : Lexer) : Token := ⟨lexer.kind, lexer.span, lexer.start⟩

/-- Passes bytes of the buffer. -/
def pass (count : Nat) (lexer : Lexer) : Lexer :=
  { lexer with
    source := lexer.source.advance count
    place := lexer.place.pass (lexer.source.buffer.take count) }

/-- Passes bytes of the buffer and adds them to the current token. -/
def capture (count : Nat) (lexer : Lexer) : Lexer :=
  { lexer.pass count with
    captured := (lexer.source.buffer.take count).reverse ++ lexer.captured }

/-- Lets the current token start here. -/
def markStart (lexer : Lexer) : Lexer := { lexer with start := lexer.place.position }

/-- Releases the source. No more tokens will be produced. -/
def close (lexer : Lexer) : Lexer :=
  { lexer with
    source := lexer.source.close
    captured := []
    kind := .undefined
    scope := .outside
    unsettled := false
    opening := false }

end Lexer

/-! ### Scans -/

/-- A step of reading on. -/
structure Scan (Value : Type) where
  run : Lexer → Except Failure Value × Lexer

namespace Scan

/-- The second step if the first one succeeds. -/
@[always_inline, inline]
def andThen {Value Result : Type} (first : Scan Value) (second : Value → Scan Result) :
    Scan Result where
  run lexer :=
    match first.run lexer with
    | (.ok value, after) => (second value).run after
    | (.error failure, after) => (.error failure, after)

instance : Monad Scan where
  pure value := ⟨fun lexer => (.ok value, lexer)⟩
  bind := andThen

/-- Looks at the state. -/
@[always_inline, inline]
def look {Value : Type} (view : Lexer → Value) : Scan Value :=
  ⟨fun lexer => (.ok (view lexer), lexer)⟩

/-- Changes the state. -/
@[always_inline, inline]
def change (update : Lexer → Lexer) : Scan Unit := ⟨fun lexer => (.ok (), update lexer)⟩

/-- Fills the buffer of the source. -/
def fill : Scan Unit :=
  ⟨fun lexer => (lexer.source.fill.1, { lexer with source := lexer.source.fill.2 })⟩

/-- The next byte, which is not passed. -/
def peek : Scan (Option UInt8) := do
  fill
  look (·.source.buffer.head?)

/-- Passes bytes of the buffer. -/
def pass (count : Nat) : Scan Unit := change (·.pass count)

/-- Passes bytes of the buffer and adds them to the current token. -/
def capture (count : Nat) : Scan Unit := change (·.capture count)

/-- Lets the current token start here. -/
def markStart : Scan Unit := change Lexer.markStart

theorem run_bind {Value Result : Type} (first : Scan Value) (second : Value → Scan Result)
    (lexer : Lexer) :
    (first >>= second).run lexer =
      match first.run lexer with
      | (.ok value, after) => (second value).run after
      | (.error failure, after) => (.error failure, after) := rfl

theorem run_bind_ok {Value Result : Type} {first : Scan Value} {second : Value → Scan Result}
    {lexer after : Lexer} {result : Result}
    (success : (first >>= second).run lexer = (.ok result, after)) :
    ∃ value middle, first.run lexer = (.ok value, middle) ∧
      (second value).run middle = (.ok result, after) := by
  rw [run_bind] at success
  split at success
  · next value middle found => exact ⟨value, middle, found, success⟩
  · cases success

theorem run_pure {Value : Type} (value : Value) (lexer : Lexer) :
    (pure value : Scan Value).run lexer = (.ok value, lexer) := rfl

theorem run_look {Value : Type} (view : Lexer → Value) (lexer : Lexer) :
    (look view).run lexer = (.ok (view lexer), lexer) := rfl

theorem run_change (update : Lexer → Lexer) (lexer : Lexer) :
    (change update).run lexer = (.ok (), update lexer) := rfl

end Scan

/-! ### Reading on -/

namespace Lexer

/-- From the first state the second is reached by passing a first part of the content. -/
def Reads (before after : Lexer) : Prop :=
  ∃ eaten, before.source.content = eaten ++ after.source.content ∧
    after.place = before.place.pass eaten

theorem Reads.trans {first second third : Lexer} (left : first.Reads second)
    (right : second.Reads third) : first.Reads third := by
  obtain ⟨early, earlyContent, earlyPlace⟩ := left
  obtain ⟨late, lateContent, latePlace⟩ := right
  exact ⟨early ++ late, by rw [earlyContent, lateContent, List.append_assoc],
    by rw [latePlace, earlyPlace, Place.pass_append]⟩

/-- Steps that touch neither the content nor the place. -/
theorem Reads.of_eq {before after : Lexer}
    (content : after.source.content = before.source.content)
    (place : after.place = before.place) : before.Reads after :=
  ⟨[], by rw [content, List.nil_append], by rw [place, Place.pass_nil]⟩

theorem Reads.pass (count : Nat) (lexer : Lexer) : lexer.Reads (lexer.pass count) :=
  ⟨lexer.source.buffer.take count, Source.content_advance count lexer.source, rfl⟩

theorem Reads.capture (count : Nat) (lexer : Lexer) : lexer.Reads (lexer.capture count) :=
  ⟨lexer.source.buffer.take count, Source.content_advance count lexer.source, rfl⟩

theorem Reads.fill (lexer : Lexer) : lexer.Reads (Scan.fill.run lexer).2 :=
  .of_eq (Source.content_fill lexer.source) rfl

theorem Reads.offset_le {before after : Lexer} (reads : before.Reads after) :
    before.place.offset ≤ after.place.offset := by
  obtain ⟨eaten, _, place⟩ := reads
  rw [place, Place.offset_pass]
  omega

/-- What is passed is gone from the content. -/
theorem Reads.length_content {before after : Lexer} (reads : before.Reads after) :
    before.source.content.length + before.place.offset =
      after.source.content.length + after.place.offset := by
  obtain ⟨eaten, content, place⟩ := reads
  rw [content, place, Place.offset_pass, List.length_append]
  omega

theorem offset_pass (count : Nat) (lexer : Lexer) :
    (lexer.pass count).place.offset =
      lexer.place.offset + min count lexer.source.buffer.length := by
  show (lexer.place.pass _).offset = _
  rw [Place.offset_pass, List.length_take]

theorem offset_capture (count : Nat) (lexer : Lexer) :
    (lexer.capture count).place.offset =
      lexer.place.offset + min count lexer.source.buffer.length :=
  offset_pass count lexer

end Lexer

end Scoresheet
