/-
This file defines where a score sheet is read from: a text that is entirely in memory, a device
seen through a window, or a device that was released. All three show a buffer of bytes that can be
looked at freely and are given up from the front. The content of a source is its buffer followed
by the bytes its device has not delivered yet: filling the buffer leaves the content as it is, and
giving bytes up drops them from it.
-/

import Scoresheet.Source.Window

namespace Scoresheet

inductive Source where
  | slice (cursor : Cursor)
  | stream (window : Window) (device : Device)
  | released
  deriving DecidableEq, Repr

namespace Source

def ofBytes (text : Bytes) : Source := .slice (.start text)

def ofDevice (device : Device) : Source := .stream .empty device

/-- The bytes that can be looked at. -/
def buffer : Source → Bytes
  | slice cursor => cursor.ahead
  | stream window _ => window.sight
  | released => []

/-- The bytes a device has not delivered yet. -/
def unread : Source → Bytes
  | slice _ => []
  | stream _ device => device.unread
  | released => []

/-- All bytes still to come. -/
def content (source : Source) : Bytes := source.buffer ++ source.unread

/-- Brings into the buffer what has to be looked at before the next token is told. -/
def fill : Source → Except Failure Unit × Source
  | slice cursor => (.ok (), .slice cursor)
  | stream window device =>
    let (result, window, device) := window.fill device
    (result, .stream window device)
  | released => (.ok (), .released)

/-- Gives up bytes of the buffer. -/
def advance (count : Nat) : Source → Source
  | slice cursor => .slice (cursor.advance count)
  | stream window device => .stream (window.advance count) device
  | released => .released

/-- Gives up bytes of the buffer, the new position being computed in a machine word. -/
def consume (count : Nat) : Source → Source
  | slice cursor => .slice (cursor.consume count)
  | stream window device => .stream (window.consume count) device
  | released => .released

/-- Releases the source. -/
def close : Source → Source
  | slice cursor => .slice cursor.close
  | stream _ _ => .released
  | released => .released

/-! ### The content -/

@[simp] theorem buffer_advance (count : Nat) (source : Source) :
    (source.advance count).buffer = source.buffer.drop count := by
  cases source <;> simp [advance, buffer]

@[simp] theorem unread_advance (count : Nat) (source : Source) :
    (source.advance count).unread = source.unread := by
  cases source <;> rfl

theorem content_advance (count : Nat) (source : Source) :
    source.content = source.buffer.take count ++ (source.advance count).content := by
  simp only [content, buffer_advance, unread_advance]
  rw [← List.append_assoc, List.take_append_drop]

@[simp] theorem content_fill (source : Source) : source.fill.2.content = source.content := by
  cases source with
  | slice cursor => rfl
  | stream window device => exact Window.fill_content window device
  | released => rfl

theorem buffer_fill (source : Source) : ∃ text, source.fill.2.buffer = source.buffer ++ text := by
  cases source with
  | slice cursor => exact ⟨[], (List.append_nil _).symm⟩
  | stream window device => exact Window.fill_sight window device
  | released => exact ⟨[], rfl⟩

end Source

end Scoresheet
