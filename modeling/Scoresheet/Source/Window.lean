/-
This file defines the bounded window a stream is seen through. Bytes enter the window at its end
and are released at its front; the storage behind it is reused once its end has come near. Filling
the window reads until a fixed lookahead is in sight, an attempt delivers nothing, or the device
fails. What was read before a failure stays in the window.
-/

import Scoresheet.Source.Cursor
import Scoresheet.Source.Device

namespace Scoresheet

/-- A part of the storage: the bytes released since the storage was last reused, the bytes in
sight, and the number of both together. -/
structure Window where
  cursor : Cursor
  filled : Nat
  deriving DecidableEq, Repr

namespace Window

/-- The size of the storage. -/
def capacity : Nat := 16384

/-- The number of bytes a filled window shows, unless the input ends earlier. It is one more than
the length of the longest marker. -/
def lookahead : Nat := 8

def empty : Window := ⟨.start [], 0⟩

/-- The bytes in sight. -/
def sight (window : Window) : Bytes := window.cursor.ahead

/-- The room offered to a reading attempt. -/
def room (window : Window) : Nat := capacity - window.filled

/-- Whether the lookahead is in sight. -/
def hasLookahead (window : Window) : Bool := !(window.sight.drop (lookahead - 1)).isEmpty

/-- Forgets the released bytes if the storage has no room for a lookahead any more. -/
def reuse (window : Window) : Window :=
  if window.filled + lookahead > capacity then ⟨.start window.sight, window.sight.length⟩
  else window

/-- The window with more bytes at its end. -/
def push (text : Bytes) (window : Window) : Window :=
  ⟨⟨window.cursor.behind, window.cursor.ahead ++ text⟩, window.filled + text.length⟩

/-- Reads until the lookahead is in sight, an attempt delivers nothing, or the device fails. -/
def readInto (window : Window) (device : Device) : Except Failure Unit × Window × Device :=
  if window.hasLookahead then (.ok (), window, device)
  else
    match _ : device.read window.room with
    | (.interrupted, device) => readInto window device
    | (.failed failure, device) => (.error failure, window, device)
    | (.bytes [], device) => (.ok (), window, device)
    | (.bytes (byte :: rest), device) => readInto (window.push (byte :: rest)) device
termination_by device.patience
decreasing_by
  · exact Device.patience_of_read_interrupted (by assumption)
  · exact Device.patience_of_read_bytes (by assumption)

/-- Brings the lookahead in sight. -/
def fill (window : Window) (device : Device) : Except Failure Unit × Window × Device :=
  readInto window.reuse device

/-- Releases bytes that are in sight. -/
def advance (count : Nat) (window : Window) : Window :=
  { window with cursor := window.cursor.advance count }

/-- Releases bytes, the new position being computed in a machine word. -/
def consume (count : Nat) (window : Window) : Window :=
  { window with cursor := window.cursor.consume count }

/-! ### Filling only moves bytes from the device into the window -/

@[simp] theorem sight_reuse (window : Window) : window.reuse.sight = window.sight := by
  unfold reuse
  split <;> rfl

@[simp] theorem sight_push (text : Bytes) (window : Window) :
    (window.push text).sight = window.sight ++ text := rfl

@[simp] theorem sight_advance (count : Nat) (window : Window) :
    (window.advance count).sight = window.sight.drop count := rfl

theorem readInto_content (window : Window) (device : Device) :
    (readInto window device).2.1.sight ++ (readInto window device).2.2.unread =
      window.sight ++ device.unread := by
  fun_induction readInto window device with
  | case1 => rfl
  | case2 window device _ after answer inductionHypothesis =>
    rw [inductionHypothesis, Device.unread_of_read_interrupted answer]
  | case3 window device _ failure after answer =>
    rw [Device.unread_of_read_failed answer]
  | case4 window device _ after answer =>
    rw [Device.unread_of_read_bytes answer, List.nil_append]
  | case5 window device _ byte rest after answer inductionHypothesis =>
    rw [inductionHypothesis, Device.unread_of_read_bytes answer, sight_push, List.append_assoc]

theorem readInto_sight (window : Window) (device : Device) :
    ∃ text, (readInto window device).2.1.sight = window.sight ++ text := by
  fun_induction readInto window device with
  | case1 => exact ⟨[], (List.append_nil _).symm⟩
  | case2 window device _ after answer inductionHypothesis => exact inductionHypothesis
  | case3 window device _ failure after answer => exact ⟨[], (List.append_nil _).symm⟩
  | case4 window device _ after answer => exact ⟨[], (List.append_nil _).symm⟩
  | case5 window device _ byte rest after answer inductionHypothesis =>
    obtain ⟨text, more⟩ := inductionHypothesis
    exact ⟨byte :: rest ++ text, by rw [more, sight_push, List.append_assoc]⟩

theorem fill_content (window : Window) (device : Device) :
    (fill window device).2.1.sight ++ (fill window device).2.2.unread =
      window.sight ++ device.unread := by
  unfold fill
  rw [readInto_content, sight_reuse]

theorem fill_sight (window : Window) (device : Device) :
    ∃ text, (fill window device).2.1.sight = window.sight ++ text := by
  unfold fill
  have more := readInto_sight window.reuse device
  rwa [sight_reuse] at more

end Window

end Scoresheet
