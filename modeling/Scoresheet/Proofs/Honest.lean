/-
This file says what can be relied on in a source. An honest source claims the end of its input only
where the input ends, and an unfailing one never fails. Between them they allow every way to cut an
input into pieces: an attempt may deliver as little as one byte or be interrupted any number of
times, and at the end it delivers nothing whatever it is answered with.

Filling the buffer of an honest source succeeds only with the whole lookahead or everything that is
left in sight. That the room offered to the device is never empty is part of the argument, since an
empty offer would be answered with nothing and taken for the end.
-/

import Scoresheet.Source

namespace Scoresheet

/-! ### Devices -/

namespace Device

/-- An attempt delivers nothing only if there is nothing left. -/
def IsHonest (device : Device) : Prop :=
  Reply.deliver 0 ∉ device.replies ∧ device.habit ≠ .deliver 0

/-- No attempt fails. -/
def IsUnfailing (device : Device) : Prop :=
  (∀ failure, Reply.fail failure ∉ device.replies) ∧ ∀ failure, device.habit ≠ .fail failure

variable {device : Device}

/-- An attempt uses up a reply or leaves them all, and keeps the habit. -/
theorem read_replies_habit (room : Nat) (device : Device) :
    (∀ reply ∈ (device.read room).2.replies, reply ∈ device.replies) ∧
      (device.read room).2.habit = device.habit := by
  unfold read handOut
  split
  · next listed =>
    rw [listed]
    exact ⟨fun _ member => List.mem_cons_of_mem _ member, rfl⟩
  · next listed =>
    rw [listed]
    exact ⟨fun _ member => List.mem_cons_of_mem _ member, rfl⟩
  · next listed =>
    rw [listed]
    exact ⟨fun _ member => List.mem_cons_of_mem _ member, rfl⟩
  · split <;> exact ⟨fun _ member => member, rfl⟩

theorem IsHonest.read (honest : device.IsHonest) (room : Nat) :
    (device.read room).2.IsHonest := by
  obtain ⟨replies, habit⟩ := read_replies_habit room device
  exact ⟨fun member => honest.1 (replies _ member), by rw [habit]; exact honest.2⟩

theorem IsUnfailing.read (unfailing : device.IsUnfailing) (room : Nat) :
    (device.read room).2.IsUnfailing := by
  obtain ⟨replies, habit⟩ := read_replies_habit room device
  exact ⟨fun failure member => unfailing.1 failure (replies _ member),
    by rw [habit]; exact unfailing.2⟩

theorem IsUnfailing.read_ne_failed (unfailing : device.IsUnfailing) (room : Nat)
    (failure : Failure) : (device.read room).1 ≠ .failed failure := by
  unfold Device.read handOut
  split
  · exact nofun
  · exact nofun
  · next listed => exact absurd (by rw [listed]; exact List.mem_cons_self) (unfailing.1 _)
  · split
    · exact nofun
    · exact nofun
    · next failing => exact absurd failing (unfailing.2 _)

/-- A delivery of no bytes leaves nothing to deliver, if there was room for some. -/
theorem IsHonest.unread_of_read_nil {room : Nat} {after : Device} (honest : device.IsHonest)
    (roomy : 0 < room) (answer : device.read room = (.bytes [], after)) : after.unread = [] := by
  have whole := unread_of_read_bytes answer
  rw [List.nil_append] at whole
  rw [← whole]
  have drained {count : Nat} (some : 0 < count) (none : device.unread.take count = []) :
      device.unread = [] := by
    rcases List.take_eq_nil_iff.mp none with zero | empty
    · omega
    · exact empty
  unfold Device.read handOut at answer
  split at answer
  · next count rest listed =>
    have positive : 0 < count := Nat.pos_of_ne_zero fun zero =>
      honest.1 (by rw [listed, zero]; exact List.mem_cons_self)
    exact drained (Nat.lt_min.mpr ⟨positive, roomy⟩) (Delivery.bytes.inj (Prod.mk.inj answer).1)
  · cases answer
  · cases answer
  · split at answer
    · exact drained roomy (Delivery.bytes.inj (Prod.mk.inj answer).1)
    · next count habit =>
      have positive : 0 < count := Nat.pos_of_ne_zero fun zero =>
        honest.2 (by rw [habit, zero])
      exact drained (Nat.lt_min.mpr ⟨positive, roomy⟩)
        (Delivery.bytes.inj (Prod.mk.inj answer).1)
    · cases answer

end Device

/-! ### Windows -/

namespace Window

/-- The number of bytes in the storage is the one that is noted. -/
def IsCounted (window : Window) : Prop := window.filled = window.cursor.size

/-- Even with a whole lookahead behind the released bytes the storage would not overflow. -/
def IsRoomy (window : Window) : Prop :=
  window.cursor.behind.length + lookahead ≤ capacity

variable {window : Window} {device : Device}

theorem isCounted_empty : empty.IsCounted := rfl

theorem IsCounted.reuse (counted : window.IsCounted) : window.reuse.IsCounted := by
  unfold Window.reuse
  split
  · exact (Nat.zero_add _).symm
  · exact counted

theorem IsCounted.push (counted : window.IsCounted) (text : Bytes) :
    (window.push text).IsCounted := by
  unfold IsCounted Cursor.size at *
  simp only [Window.push, List.length_append]
  omega

theorem IsCounted.advance (counted : window.IsCounted) (count : Nat) :
    (window.advance count).IsCounted := by
  show window.filled = (window.cursor.advance count).size
  rw [Cursor.size_advance]
  exact counted

/-- Reusing the storage makes room. -/
theorem IsCounted.isRoomy_reuse (counted : window.IsCounted) : window.reuse.IsRoomy := by
  unfold IsCounted Cursor.size at counted
  unfold IsRoomy Window.reuse
  split
  · exact Nat.le_of_ble_eq_true rfl
  · omega

theorem length_sight_lt_of_not_hasLookahead (short : ¬ window.hasLookahead = true) :
    window.sight.length < lookahead := by
  simp only [hasLookahead, lookahead, Bool.not_eq_true, Bool.not_eq_false', List.isEmpty_iff,
    List.drop_eq_nil_iff] at short
  show _ < 8
  omega

theorem lookahead_le_of_hasLookahead (shown : window.hasLookahead = true) :
    lookahead ≤ window.sight.length := by
  simp only [hasLookahead, Bool.not_eq_true', List.isEmpty_eq_false_iff, ne_eq,
    List.drop_eq_nil_iff, lookahead] at shown
  show 8 ≤ _
  omega

/-- As long as the lookahead is not in sight, an attempt is offered some room. -/
theorem IsCounted.room_pos (counted : window.IsCounted) (roomy : window.IsRoomy)
    (short : ¬ window.hasLookahead = true) : 0 < window.room := by
  have shown := length_sight_lt_of_not_hasLookahead short
  unfold IsCounted Cursor.size at counted
  unfold IsRoomy at roomy
  unfold room
  unfold sight at shown
  omega

/-- A window over an honest device, with the number of its bytes noted as it is. -/
structure IsConsistent (window : Window) (device : Device) : Prop where
  counted : window.IsCounted
  honest : device.IsHonest

theorem readInto_isConsistent (consistent : window.IsConsistent device) :
    (readInto window device).2.1.IsConsistent (readInto window device).2.2 := by
  fun_induction readInto window device with
  | case1 => exact consistent
  | case2 window device _ after answer inductionHypothesis =>
    have honest := consistent.honest.read window.room
    rw [answer] at honest
    exact inductionHypothesis ⟨consistent.counted, honest⟩
  | case3 window device _ failure after answer =>
    have honest := consistent.honest.read window.room
    rw [answer] at honest
    exact ⟨consistent.counted, honest⟩
  | case4 window device _ after answer =>
    have honest := consistent.honest.read window.room
    rw [answer] at honest
    exact ⟨consistent.counted, honest⟩
  | case5 window device _ byte rest after answer inductionHypothesis =>
    have honest := consistent.honest.read window.room
    rw [answer] at honest
    exact inductionHypothesis ⟨consistent.counted.push _, honest⟩

/-- Reading succeeds only with the lookahead or all bytes in sight. -/
theorem readInto_ready (consistent : window.IsConsistent device) (roomy : window.IsRoomy)
    (success : (readInto window device).1 = .ok ()) :
    lookahead ≤ (readInto window device).2.1.sight.length ∨
      (readInto window device).2.2.unread = [] := by
  fun_induction readInto window device with
  | case1 window device shown => exact .inl (lookahead_le_of_hasLookahead shown)
  | case2 window device _ after answer inductionHypothesis =>
    have honest := consistent.honest.read window.room
    rw [answer] at honest
    exact inductionHypothesis ⟨consistent.counted, honest⟩ roomy success
  | case3 => cases success
  | case4 window device short after answer =>
    exact .inr (consistent.honest.unread_of_read_nil (consistent.counted.room_pos roomy short) answer)
  | case5 window device _ byte rest after answer inductionHypothesis =>
    have honest := consistent.honest.read window.room
    rw [answer] at honest
    exact inductionHypothesis ⟨consistent.counted.push _, honest⟩ roomy success

theorem readInto_unfailing (unfailing : device.IsUnfailing) :
    (readInto window device).1 = .ok () ∧ (readInto window device).2.2.IsUnfailing := by
  fun_induction readInto window device with
  | case1 => exact ⟨rfl, unfailing⟩
  | case2 window device _ after answer inductionHypothesis =>
    have later := unfailing.read window.room
    rw [answer] at later
    exact inductionHypothesis later
  | case3 window device _ failure after answer =>
    exact absurd (congrArg Prod.fst answer) (unfailing.read_ne_failed window.room failure)
  | case4 window device _ after answer =>
    have later := unfailing.read window.room
    rw [answer] at later
    exact ⟨rfl, later⟩
  | case5 window device _ byte rest after answer inductionHypothesis =>
    have later := unfailing.read window.room
    rw [answer] at later
    exact inductionHypothesis later

end Window

/-! ### Sources -/

namespace Source

/-- The end is claimed only where the input ends. -/
def IsHonest : Source → Prop
  | slice _ => True
  | stream window device => window.IsConsistent device
  | released => True

/-- Filling the buffer never fails. -/
def IsUnfailing : Source → Prop
  | slice _ => True
  | stream _ device => device.IsUnfailing
  | released => True

/-- A whole lookahead is in sight, or everything that is left. -/
def IsReady (source : Source) : Prop :=
  Window.lookahead ≤ source.buffer.length ∨ source.unread = []

variable {source : Source}

theorem IsHonest.ofDevice {device : Device} (honest : device.IsHonest) :
    (Source.ofDevice device).IsHonest := ⟨Window.isCounted_empty, honest⟩

theorem IsHonest.fill (honest : source.IsHonest) : source.fill.2.IsHonest := by
  cases source with
  | slice cursor => trivial
  | stream window device =>
    exact Window.readInto_isConsistent ⟨honest.counted.reuse, honest.honest⟩
  | released => trivial

theorem IsHonest.isReady_fill (honest : source.IsHonest) (success : source.fill.1 = .ok ()) :
    source.fill.2.IsReady := by
  cases source with
  | slice cursor => exact .inr rfl
  | stream window device =>
    exact Window.readInto_ready ⟨honest.counted.reuse, honest.honest⟩
      honest.counted.isRoomy_reuse success
  | released => exact .inr rfl

theorem IsHonest.advance (honest : source.IsHonest) (count : Nat) :
    (source.advance count).IsHonest := by
  cases source with
  | slice cursor => trivial
  | stream window device => exact ⟨honest.counted.advance count, honest.honest⟩
  | released => trivial

theorem IsHonest.close (source : Source) : source.close.IsHonest := by
  cases source <;> trivial

theorem IsUnfailing.fill (unfailing : source.IsUnfailing) :
    source.fill.1 = .ok () ∧ source.fill.2.IsUnfailing := by
  cases source with
  | slice cursor => exact ⟨rfl, trivial⟩
  | stream window device => exact Window.readInto_unfailing unfailing
  | released => exact ⟨rfl, trivial⟩

theorem IsUnfailing.advance (unfailing : source.IsUnfailing) (count : Nat) :
    (source.advance count).IsUnfailing := by
  cases source with
  | slice cursor => trivial
  | stream window device => exact unfailing
  | released => trivial

theorem IsUnfailing.close (source : Source) : source.close.IsUnfailing := by
  cases source <;> trivial

/-- Nothing is in sight only if nothing is left. -/
def ShowsNext (source : Source) : Prop := source.buffer = [] → source.content = []

theorem IsReady.showsNext (ready : source.IsReady) : source.ShowsNext := by
  intro empty
  rcases ready with shown | drained
  · rw [empty] at shown
    cases shown
  · rw [content, empty, drained, List.nil_append]

theorem ShowsNext.of_ne_nil (inSight : source.buffer ≠ []) : source.ShowsNext :=
  fun empty => absurd empty inSight

theorem ShowsNext.head_content (shows : source.ShowsNext) :
    source.content.head? = source.buffer.head? := by
  cases shown : source.buffer with
  | nil => rw [shows shown]
  | cons byte rest => rw [content, shown, List.cons_append, List.head?_cons, List.head?_cons]

theorem ShowsNext.take_content (shows : source.ShowsNext) :
    source.content.take 1 = source.buffer.take 1 := by
  cases shown : source.buffer with
  | nil => rw [shows shown]
  | cons byte rest => rw [content, shown]; rfl

/-- A text no longer than the lookahead stands next exactly if it is seen to. -/
theorem IsReady.isPrefixOf_buffer (ready : source.IsReady) {text : Bytes}
    (short : text.length ≤ Window.lookahead) :
    text.isPrefixOf source.buffer = text.isPrefixOf source.content := by
  rw [Bool.eq_iff_iff, List.isPrefixOf_iff_prefix, List.isPrefixOf_iff_prefix]
  rcases ready with shown | drained
  · exact ⟨fun seen => seen.trans (List.prefix_append _ _),
      fun next => List.prefix_of_prefix_length_le next (List.prefix_append _ _)
        (Nat.le_trans short shown)⟩
  · rw [content, drained, List.append_nil]

@[simp] theorem content_close (source : Source) : source.close.content = [] := by
  cases source <;> rfl

end Source

end Scoresheet
