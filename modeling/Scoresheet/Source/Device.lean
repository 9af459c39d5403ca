/-
This file defines what a stream is read from: a device that holds the bytes not yet delivered and
answers each reading attempt as it pleases. An attempt may be answered with any number of bytes up
to the room it offers, with an interruption, or with a failure. How the first attempts are answered
is listed, and from then on every attempt is answered alike.
-/

import Scoresheet.Error

namespace Scoresheet

/-- How one reading attempt is answered. A delivery of no bytes claims that the input has ended,
which need not be true of later attempts. -/
inductive Reply where
  | deliver (count : Nat)
  | interrupted
  | fail (failure : Failure)
  deriving DecidableEq, Repr

/-- How all later attempts are answered. -/
inductive Habit where
  | deliverAll
  | deliver (count : Nat)
  | fail (failure : Failure)
  deriving DecidableEq, Repr

structure Device where
  unread : Bytes
  replies : List Reply
  habit : Habit
  deriving DecidableEq, Repr

/-- What a reading attempt returns. -/
inductive Delivery where
  | bytes (text : Bytes)
  | interrupted
  | failed (failure : Failure)
  deriving DecidableEq, Repr

namespace Device

/-- A device that delivers a text, as much of it as fits into each attempt. -/
def ofBytes (text : Bytes) : Device := ⟨text, [], .deliverAll⟩

/-- Hands out the given number of bytes, or all if there are fewer. -/
def handOut (count : Nat) (device : Device) : Delivery × Device :=
  (.bytes (device.unread.take count), { device with unread := device.unread.drop count })

/-- One reading attempt that offers room for the given number of bytes. -/
def read (room : Nat) (device : Device) : Delivery × Device :=
  match device.replies with
  | .deliver count :: rest => handOut (min count room) { device with replies := rest }
  | .interrupted :: rest => (.interrupted, { device with replies := rest })
  | .fail failure :: rest => (.failed failure, { device with replies := rest })
  | [] =>
    match device.habit with
    | .deliverAll => handOut room device
    | .deliver count => handOut (min count room) device
    | .fail failure => (.failed failure, device)

/-- The number of attempts that can go by without an end being claimed or a failure. -/
def patience (device : Device) : Nat := device.replies.length + device.unread.length

/-! ### A reading attempt loses nothing -/

theorem unread_of_read_bytes {room : Nat} {device after : Device} {text : Bytes}
    (answer : device.read room = (.bytes text, after)) : device.unread = text ++ after.unread := by
  unfold read handOut at answer
  split at answer
  · cases answer; exact (List.take_append_drop _ _).symm
  · cases answer
  · cases answer
  · split at answer
    · cases answer; exact (List.take_append_drop _ _).symm
    · cases answer; exact (List.take_append_drop _ _).symm
    · cases answer

theorem unread_of_read_interrupted {room : Nat} {device after : Device}
    (answer : device.read room = (.interrupted, after)) : device.unread = after.unread := by
  unfold read handOut at answer
  split at answer
  · cases answer
  · cases answer; rfl
  · cases answer
  · split at answer <;> cases answer

theorem unread_of_read_failed {room : Nat} {device after : Device} {failure : Failure}
    (answer : device.read room = (.failed failure, after)) : device.unread = after.unread := by
  unfold read handOut at answer
  split at answer
  · cases answer
  · cases answer
  · cases answer; rfl
  · split at answer
    · cases answer
    · cases answer
    · cases answer; rfl

/-! ### Patience runs out -/

theorem patience_of_read_interrupted {room : Nat} {device after : Device}
    (answer : device.read room = (.interrupted, after)) : after.patience < device.patience := by
  unfold read handOut at answer
  split at answer
  · cases answer
  · next rest replies =>
    cases answer
    simp only [patience, replies, List.length_cons]
    omega
  · cases answer
  · split at answer <;> cases answer

theorem replies_read_le (room : Nat) (device : Device) :
    (device.read room).2.replies.length ≤ device.replies.length := by
  unfold read handOut
  split
  · next listed => simp [listed]
  · next listed => simp [listed]
  · next listed => simp [listed]
  · split <;> exact Nat.le_refl _

theorem patience_of_read_bytes {room : Nat} {device after : Device} {byte : UInt8} {rest : Bytes}
    (answer : device.read room = (.bytes (byte :: rest), after)) :
    after.patience < device.patience := by
  have replies := replies_read_le room device
  have unread := congrArg List.length (unread_of_read_bytes answer)
  rw [answer] at replies
  simp only [List.length_append, List.length_cons] at unread
  simp only [patience]
  simp only at replies
  omega

end Device

end Scoresheet
