/-
This file proves that the window a stream is seen through is a queue that loses nothing. The reading
attempts are written down with the room each of them offered and what it was answered with; bytes
enter the window in the order in which they were delivered, and leave it in that order when they are
given up.

The storage is reused only when a whole lookahead would no longer fit behind the bytes in it. That
some room is left for every later attempt rests on two facts at once: the released bytes and a
lookahead fit into the storage, and less than a lookahead is in sight whenever an attempt is made.
-/

import Scoresheet.Proofs.Honest

namespace Scoresheet

/-! ### Reading attempts -/

/-- The bytes that were delivered. -/
def Delivery.text : Delivery → Bytes
  | bytes text => text
  | interrupted => []
  | failed _ => []

/-- A reading attempt: the room it offered, and what it was answered with. -/
structure Attempt where
  room : Nat
  delivery : Delivery
  deriving DecidableEq, Repr

namespace Attempt

/-- The bytes that several attempts took from their device. -/
def taken (attempts : List Attempt) : Bytes := attempts.flatMap (·.delivery.text)

@[simp] theorem taken_cons (attempt : Attempt) (attempts : List Attempt) :
    taken (attempt :: attempts) = attempt.delivery.text ++ taken attempts := rfl

@[simp] theorem taken_append (attempts later : List Attempt) :
    taken (attempts ++ later) = taken attempts ++ taken later := List.flatMap_append

end Attempt

namespace Device

/-- A device answers the attempts one after the other as they are written down, and is left as the
last of the two. -/
inductive Answers : Device → List Attempt → Device → Prop
  | nothing {device : Device} : Answers device [] device
  | attempt {device next after : Device} {room : Nat} {delivery : Delivery}
      {attempts : List Attempt} (answer : device.read room = (delivery, next))
      (later : Answers next attempts after) :
      Answers device (⟨room, delivery⟩ :: attempts) after

variable {device between after : Device} {attempts later : List Attempt}

theorem Answers.append (first : device.Answers attempts between)
    (second : between.Answers later after) : device.Answers (attempts ++ later) after := by
  induction first with
  | nothing => exact second
  | attempt answer _ inductionHypothesis => exact .attempt answer (inductionHypothesis second)

/-- What the attempts took is the beginning of what the device had. -/
theorem Answers.unread_eq (answers : device.Answers attempts after) :
    device.unread = Attempt.taken attempts ++ after.unread := by
  induction answers with
  | nothing => rfl
  | @attempt device next after room delivery attempts answer _ inductionHypothesis =>
    rw [Attempt.taken_cons, List.append_assoc, ← inductionHypothesis]
    cases delivery with
    | bytes text => exact unread_of_read_bytes answer
    | interrupted => exact unread_of_read_interrupted answer
    | failed failure => exact unread_of_read_failed answer

theorem length_handOut_le {count room : Nat} (within : count ≤ room) (device : Device) :
    (device.handOut count).1.text.length ≤ room :=
  Nat.le_trans (List.length_take_le count device.unread) within

/-- No more is delivered than there was room for. -/
theorem length_text_read_le (room : Nat) (device : Device) :
    (device.read room).1.text.length ≤ room := by
  unfold read
  split
  · exact length_handOut_le (Nat.min_le_right _ _) _
  · exact Nat.zero_le room
  · exact Nat.zero_le room
  · split
    · exact length_handOut_le (Nat.le_refl room) _
    · exact length_handOut_le (Nat.min_le_right _ _) _
    · exact Nat.zero_le room

end Device

/-! ### The window -/

namespace Window

/-- The attempts made until the lookahead is in sight, one delivers nothing, or the device fails. -/
def attempts (window : Window) (device : Device) : List Attempt :=
  if window.hasLookahead then []
  else
    match _ : device.read window.room with
    | (.interrupted, device) => ⟨window.room, .interrupted⟩ :: attempts window device
    | (.failed failure, _) => [⟨window.room, .failed failure⟩]
    | (.bytes [], _) => [⟨window.room, .bytes []⟩]
    | (.bytes (byte :: rest), device) =>
      ⟨window.room, .bytes (byte :: rest)⟩ :: attempts (window.push (byte :: rest)) device
termination_by device.patience
decreasing_by
  · exact Device.patience_of_read_interrupted (by assumption)
  · exact Device.patience_of_read_bytes (by assumption)

/-- The number of bytes in the storage is the one that is noted, and they fit into it. -/
structure IsSound (window : Window) : Prop where
  counted : window.IsCounted
  fits : window.filled ≤ capacity

variable {window : Window} {device after : Device}

theorem isSound_empty : empty.IsSound := ⟨isCounted_empty, Nat.zero_le capacity⟩

/-- The end of the released bytes is not behind that of the storage. -/
theorem IsCounted.filled_eq (counted : window.IsCounted) :
    window.filled = window.cursor.position + window.sight.length := counted

theorem IsSound.reuse (sound : window.IsSound) : window.reuse.IsSound := by
  refine ⟨sound.counted.reuse, ?_⟩
  have size := sound.counted.filled_eq
  have fits := sound.fits
  unfold Window.reuse
  split
  · show window.sight.length ≤ capacity
    omega
  · exact fits

theorem IsSound.push (sound : window.IsSound) {text : Bytes} (within : text.length ≤ window.room) :
    (window.push text).IsSound := by
  refine ⟨sound.counted.push text, ?_⟩
  have fits := sound.fits
  unfold room at within
  show window.filled + text.length ≤ capacity
  omega

theorem IsSound.advance (sound : window.IsSound) (count : Nat) : (window.advance count).IsSound :=
  ⟨sound.counted.advance count, sound.fits⟩

/-- Giving up no more than is in sight overflows no machine word. -/
theorem IsSound.consume_eq (sound : window.IsSound) {count : Nat}
    (within : count ≤ window.sight.length) : window.consume count = window.advance count := by
  have size := sound.counted.filled_eq
  have fits : window.filled ≤ 16384 := sound.fits
  have small : window.cursor.position + count < Cursor.wordSize := by
    unfold Cursor.wordSize
    omega
  unfold consume
  rw [Cursor.consume_of_lt small]
  rfl

theorem attempts_of_hasLookahead (shown : window.hasLookahead) : window.attempts device = [] := by
  rw [attempts, if_pos shown]

theorem attempts_of_interrupted (short : ¬ window.hasLookahead)
    (answer : device.read window.room = (.interrupted, after)) :
    window.attempts device = ⟨window.room, .interrupted⟩ :: window.attempts after := by
  rw [attempts, if_neg short]
  split <;> simp_all

theorem attempts_of_failed (short : ¬ window.hasLookahead) {failure : Failure}
    (answer : device.read window.room = (.failed failure, after)) :
    window.attempts device = [⟨window.room, .failed failure⟩] := by
  rw [attempts, if_neg short]
  split <;> simp_all

theorem attempts_of_nothing (short : ¬ window.hasLookahead)
    (answer : device.read window.room = (.bytes [], after)) :
    window.attempts device = [⟨window.room, .bytes []⟩] := by
  rw [attempts, if_neg short]
  split <;> simp_all

theorem attempts_of_bytes (short : ¬ window.hasLookahead) {byte : UInt8} {rest : Bytes}
    (answer : device.read window.room = (.bytes (byte :: rest), after)) :
    window.attempts device = ⟨window.room, .bytes (byte :: rest)⟩ ::
      (window.push (byte :: rest)).attempts after := by
  rw [attempts, if_neg short]
  split <;> simp_all

/-- The attempts lead the device to where reading leaves it. -/
theorem answers_attempts (window : Window) (device : Device) :
    device.Answers (window.attempts device) (readInto window device).2.2 := by
  fun_induction readInto window device with
  | case1 window device shown =>
    rw [attempts_of_hasLookahead shown]
    exact .nothing
  | case2 window device short after answer inductionHypothesis =>
    rw [attempts_of_interrupted short answer]
    exact .attempt answer inductionHypothesis
  | case3 window device short failure after answer =>
    rw [attempts_of_failed short answer]
    exact .attempt answer .nothing
  | case4 window device short after answer =>
    rw [attempts_of_nothing short answer]
    exact .attempt answer .nothing
  | case5 window device short byte rest after answer inductionHypothesis =>
    rw [attempts_of_bytes short answer]
    exact .attempt answer inductionHypothesis

/-- What the attempts took stands behind what was in sight, whether reading succeeds or not. -/
theorem sight_readInto (window : Window) (device : Device) :
    (readInto window device).2.1.sight =
      window.sight ++ Attempt.taken (window.attempts device) := by
  fun_induction readInto window device with
  | case1 window device shown =>
    rw [attempts_of_hasLookahead shown]
    exact (List.append_nil _).symm
  | case2 window device short after answer inductionHypothesis =>
    rw [attempts_of_interrupted short answer]
    exact inductionHypothesis
  | case3 window device short failure after answer =>
    rw [attempts_of_failed short answer]
    exact (List.append_nil _).symm
  | case4 window device short after answer =>
    rw [attempts_of_nothing short answer]
    exact (List.append_nil _).symm
  | case5 window device short byte rest after answer inductionHypothesis =>
    rw [attempts_of_bytes short answer, inductionHypothesis, sight_push, List.append_assoc]
    rfl

theorem IsSound.readInto (sound : window.IsSound) (device : Device) :
    (readInto window device).2.1.IsSound := by
  fun_induction Window.readInto window device with
  | case1 => exact sound
  | case2 window device short after answer inductionHypothesis => exact inductionHypothesis sound
  | case3 => exact sound
  | case4 => exact sound
  | case5 window device short byte rest after answer inductionHypothesis =>
    have within := device.length_text_read_le window.room
    rw [answer] at within
    exact inductionHypothesis (sound.push within)

/-- Every attempt is offered some room. -/
theorem room_attempts_pos (counted : window.IsCounted) (roomy : window.IsRoomy) (device : Device) :
    ∀ attempt ∈ window.attempts device, 0 < attempt.room := by
  fun_induction Window.readInto window device with
  | case1 window device shown =>
    rw [attempts_of_hasLookahead shown]
    exact List.forall_mem_nil _
  | case2 window device short after answer inductionHypothesis =>
    rw [attempts_of_interrupted short answer, List.forall_mem_cons]
    exact ⟨counted.room_pos roomy short, inductionHypothesis counted roomy⟩
  | case3 window device short failure after answer =>
    rw [attempts_of_failed short answer, List.forall_mem_singleton]
    exact counted.room_pos roomy short
  | case4 window device short after answer =>
    rw [attempts_of_nothing short answer, List.forall_mem_singleton]
    exact counted.room_pos roomy short
  | case5 window device short byte rest after answer inductionHypothesis =>
    rw [attempts_of_bytes short answer, List.forall_mem_cons]
    exact ⟨counted.room_pos roomy short, inductionHypothesis (counted.push _) roomy⟩

/-- Reading succeeds only with the lookahead in sight or behind an attempt that delivered
nothing. -/
theorem readInto_succeeds (success : (readInto window device).1 = .ok ()) :
    lookahead ≤ (readInto window device).2.1.sight.length ∨
      ∃ room, (window.attempts device).getLast? = some ⟨room, .bytes []⟩ := by
  fun_induction readInto window device with
  | case1 window device shown => exact .inl (lookahead_le_of_hasLookahead shown)
  | case2 window device short after answer inductionHypothesis =>
    rw [attempts_of_interrupted short answer]
    rcases inductionHypothesis success with sighted | ⟨room, last⟩
    · exact .inl sighted
    · refine .inr ⟨room, ?_⟩
      rw [List.getLast?_cons, last]
      rfl
  | case3 => cases success
  | case4 window device short after answer =>
    rw [attempts_of_nothing short answer]
    exact .inr ⟨window.room, rfl⟩
  | case5 window device short byte rest after answer inductionHypothesis =>
    rw [attempts_of_bytes short answer]
    rcases inductionHypothesis success with sighted | ⟨room, last⟩
    · exact .inl sighted
    · refine .inr ⟨room, ?_⟩
      rw [List.getLast?_cons, last]
      rfl

end Window

/-! ### A source in use -/

namespace Source

/-- The attempts made when the buffer is filled. -/
def attempts : Source → List Attempt
  | slice _ => []
  | stream window device => window.reuse.attempts device
  | released => []

end Source

/-- What can be asked of a source. -/
inductive Call where
  | fill
  | consume (count : Nat)
  | close
  deriving DecidableEq, Repr

/-- A source with the reading attempts made so far and the bytes given up so far. -/
structure Usage where
  source : Source
  attempts : List Attempt
  consumed : Bytes

namespace Usage

/-- A window in front of a device that nothing was read from. -/
def start (device : Device) : Usage := ⟨.ofDevice device, [], []⟩

/-- What is left behind one call. -/
def after (usage : Usage) : Call → Usage
  | .fill =>
    ⟨usage.source.fill.2, usage.attempts ++ usage.source.attempts, usage.consumed⟩
  | .consume count =>
    ⟨usage.source.consume count, usage.attempts, usage.consumed ++ usage.source.buffer.take count⟩
  | .close => ⟨usage.source.close, usage.attempts, usage.consumed⟩

/-- What is left behind several calls. -/
def run (usage : Usage) (calls : List Call) : Usage := calls.foldl after usage

/-- Whether no more bytes are given up than there are in the buffer. -/
def allows (usage : Usage) : Call → Bool
  | .consume count => count ≤ usage.source.buffer.length
  | _ => true

/-- Whether this holds of each of the calls where it is made. -/
def allowsAll : Usage → List Call → Bool
  | _, [] => true
  | usage, call :: calls => usage.allows call && (usage.after call).allowsAll calls

/-- The window is a queue between a device as it was at first and the one who gives bytes up. -/
structure IsQueue (device : Device) (usage : Usage) : Prop where
  /-- The bytes in sight lie between two places in the storage, and the device is the one that
  answered the attempts. -/
  window : ∃ window rest, usage.source = .stream window rest ∧ window.IsSound ∧
    device.Answers usage.attempts rest
  /-- Every attempt was offered some room. -/
  roomy : ∀ attempt ∈ usage.attempts, 0 < attempt.room
  /-- Nothing is lost, added or moved. -/
  kept : usage.consumed ++ usage.source.buffer = Attempt.taken usage.attempts

variable {device : Device} {usage : Usage}

theorem isQueue_start (device : Device) : (start device).IsQueue device where
  window := ⟨.empty, device, rfl, Window.isSound_empty, .nothing⟩
  roomy := nofun
  kept := rfl

theorem IsQueue.fill (queue : usage.IsQueue device) : (usage.after .fill).IsQueue device := by
  obtain ⟨source, attempts, consumed⟩ := usage
  obtain ⟨⟨window, rest, rfl, sound, answers⟩, roomy, kept⟩ := queue
  refine ⟨⟨_, _, rfl, sound.reuse.readInto rest, ?_⟩, ?_, ?_⟩
  · exact answers.append (window.reuse.answers_attempts rest)
  · exact List.forall_mem_append.mpr ⟨roomy,
      Window.room_attempts_pos sound.counted.reuse sound.counted.isRoomy_reuse rest⟩
  · show consumed ++ (Window.readInto window.reuse rest).2.1.sight = _
    rw [Window.sight_readInto, Window.sight_reuse, ← List.append_assoc]
    exact (congrArg (· ++ _) kept).trans (Attempt.taken_append _ _).symm

theorem IsQueue.consume (queue : usage.IsQueue device) {count : Nat}
    (within : count ≤ usage.source.buffer.length) :
    (usage.after (.consume count)).IsQueue device := by
  obtain ⟨source, attempts, consumed⟩ := usage
  obtain ⟨⟨window, rest, rfl, sound, answers⟩, roomy, kept⟩ := queue
  -- The machine counts in words, which do not overflow below the size of the storage.
  have same : window.consume count = window.advance count := sound.consume_eq within
  refine ⟨⟨_, _, congrArg (Source.stream · rest) same, sound.advance count, answers⟩, roomy, ?_⟩
  show (consumed ++ window.sight.take count) ++ (window.consume count).sight = _
  rw [same, Window.sight_advance, List.append_assoc, List.take_append_drop]
  exact kept

theorem IsQueue.after (queue : usage.IsQueue device) {call : Call} (unclosed : call ≠ .close)
    (allowed : usage.allows call) : (usage.after call).IsQueue device := by
  cases call with
  | fill => exact queue.fill
  | consume count => exact queue.consume (of_decide_eq_true allowed)
  | close => exact absurd rfl unclosed

theorem IsQueue.run {calls : List Call} (queue : usage.IsQueue device)
    (unclosed : .close ∉ calls) (allowed : usage.allowsAll calls) :
    (usage.run calls).IsQueue device := by
  induction calls generalizing usage with
  | nil => exact queue
  | cons call calls inductionHypothesis =>
    obtain ⟨first, later⟩ := Bool.and_eq_true_iff.mp allowed
    obtain ⟨other, others⟩ := List.ne_and_not_mem_of_not_mem_cons unclosed
    exact inductionHypothesis (queue.after (Ne.symm other) first) others later

/-- A released source stays released, and nothing is attempted any more. -/
theorem after_released (call : Call) (released : usage.source = .released) :
    (usage.after call).source = .released ∧ (usage.after call).attempts = usage.attempts := by
  obtain ⟨source, attempts, consumed⟩ := usage
  cases released
  cases call with
  | fill => exact ⟨rfl, List.append_nil attempts⟩
  | consume count => exact ⟨rfl, rfl⟩
  | close => exact ⟨rfl, rfl⟩

theorem run_released (calls : List Call) (released : usage.source = .released) :
    (usage.run calls).source = .released ∧ (usage.run calls).attempts = usage.attempts := by
  induction calls generalizing usage with
  | nil => exact ⟨released, rfl⟩
  | cons call calls inductionHypothesis =>
    obtain ⟨next, same⟩ := after_released call released
    exact (inductionHypothesis next).imp_right (·.trans same)

end Usage

/-! ### The queue -/

open Usage in
/-- However a device answers, and however filling and giving up bytes take turns, the bytes in sight
lie between a start and an end within the storage, every attempt is offered some room, and the bytes
given up so far followed by those in the buffer are the ones taken from the device so far. Filling
the buffer keeps the bytes in it and adds those it reads, also if it fails; if it succeeds, a
lookahead is in sight, or its last attempt delivered nothing. Once the source is closed, the buffer
is empty and there is no further attempt. -/
theorem Source.stream_loses_nothing (device : Device) (calls : List Call)
    (unclosed : Call.close ∉ calls) (allowed : (start device).allowsAll calls) :
    let usage := (start device).run calls
    (∃ window rest, usage.source = .stream window rest ∧
      window.cursor.position ≤ window.filled ∧ window.filled ≤ 16384 ∧
      usage.source.buffer.length = window.filled - window.cursor.position ∧
      device.Answers usage.attempts rest ∧
      device.unread = Attempt.taken usage.attempts ++ rest.unread) ∧
    (∀ attempt ∈ usage.attempts ++ usage.source.attempts, 0 < attempt.room) ∧
    usage.consumed ++ usage.source.buffer = Attempt.taken usage.attempts ∧
    usage.source.fill.2.buffer = usage.source.buffer ++ Attempt.taken usage.source.attempts ∧
    (usage.source.fill.1 = .ok () → 8 ≤ usage.source.fill.2.buffer.length ∨
      ∃ room, usage.source.attempts.getLast? = some ⟨room, .bytes []⟩) ∧
    ∀ later, ((usage.after .close).run later).source.buffer = [] ∧
      ((usage.after .close).run later).attempts = usage.attempts := by
  intro usage
  have queue : usage.IsQueue device := (isQueue_start device).run unclosed allowed
  have next : (usage.after .fill).IsQueue device := queue.fill
  obtain ⟨window, rest, stream, sound, answers⟩ := queue.window
  have size := sound.counted.filled_eq
  refine ⟨⟨window, rest, stream, ?_, sound.fits, ?_, answers, answers.unread_eq⟩, next.roomy,
    queue.kept, ?_, ?_, fun later => ?_⟩
  · omega
  · rw [stream]
    show window.sight.length = _
    omega
  · rw [stream]
    show (Window.readInto window.reuse rest).2.1.sight = _
    rw [Window.sight_readInto, Window.sight_reuse]
    rfl
  · rw [stream]
    exact Window.readInto_succeeds
  · have closed : (usage.after .close).source = .released := by
      show usage.source.close = _
      rw [stream]
      rfl
    obtain ⟨released, same⟩ := run_released later closed
    exact ⟨by rw [released]; rfl, same⟩

namespace Usage

/-- A device that is interrupted, delivers three bytes, fails, and then claims the end. -/
def faltering : Device :=
  ⟨Bytes.ofString "1. e4 e5 *", [.interrupted, .deliver 3, .fail ⟨"lost"⟩, .deliver 0], .deliverAll⟩

end Usage

/-- A failure behind an interruption and three bytes, of which two are given up. -/
theorem Source.stream_loses_nothing_faltering :
    let usage := (Usage.start Usage.faltering).run [.fill, .consume 2]
    usage.consumed = Bytes.ofString "1." ∧ usage.source.buffer = Bytes.ofString " " ∧
    usage.consumed ++ usage.source.buffer = Attempt.taken usage.attempts := by
  refine ⟨by decide +kernel, by decide +kernel, ?_⟩
  exact (Source.stream_loses_nothing Usage.faltering [.fill, .consume 2] (by decide)
    (by decide +kernel)).2.2.1

end Scoresheet
