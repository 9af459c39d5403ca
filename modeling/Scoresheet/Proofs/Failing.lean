/-
This file shows that a failure of the source is never taken for the end of the input. A lexer or a
reader over a device that may fail at any point is compared with one over the whole text in memory:
as long as no failure is reported both give the same answers, and the errors recorded before a
failure are the first of those recorded over the whole text. So nothing is made out of a text that
is cut short.
-/

import Scoresheet.Cache.PairHash
import Scoresheet.Proofs.Chunking

namespace Scoresheet

/-- The first row of answers is the second, or the two are the same up to an answer that fails
beside the other. -/
inductive BreaksOff {Answer : Type} (fails : Answer → Answer → Prop) :
    List Answer → List Answer → Prop where
  | done : BreaksOff fails [] []
  | onward {answer : Answer} {rest whole : List Answer} (later : BreaksOff fails rest whole) :
      BreaksOff fails (answer :: rest) (answer :: whole)
  | failed {answer other : Answer} (rest whole : List Answer) (failure : fails answer other) :
      BreaksOff fails (answer :: rest) (other :: whole)

namespace Lexer

/-- Alike lexers, of which the first is over a source that never fails. -/
structure Outlasts (first second : Lexer) : Prop extends first.Alike second where
  unfailing : first.source.IsUnfailing

variable {first second secondAfter : Lexer}

theorem Outlasts.ofDevice {device : Device} (honest : device.IsHonest) :
    (ofSource (.ofBytes device.unread)).Outlasts (ofSource (.ofDevice device)) where
  honestFirst := trivial
  honestSecond := .ofDevice honest
  content := List.append_nil _
  state := rfl
  unfailing := trivial

theorem Outlasts.isExhausted (outlasts : first.Outlasts second) :
    first.isExhausted = second.isExhausted := outlasts.view fun _ _ => rfl

theorem Outlasts.kind (outlasts : first.Outlasts second) : first.kind = second.kind :=
  outlasts.view fun _ _ => rfl

/-- A token that comes without a failure is the one of the whole text. -/
theorem Outlasts.advance (outlasts : first.Outlasts second)
    (success : Scan.advance.run second = (.ok (), secondAfter)) :
    ∃ firstAfter, Scan.advance.run first = (.ok (), firstAfter) ∧
      firstAfter.Outlasts secondAfter := by
  obtain ⟨firstAfter, found, unfailing⟩ := advance_of_isUnfailing outlasts.unfailing
  exact ⟨firstAfter, found, ⟨outlasts.toAlike.advance found success, unfailing⟩⟩

theorem Outlasts.skipUntil (outlasts : first.Outlasts second) (kind : TokenKind)
    (success : second.skipUntil kind = (.ok (), secondAfter)) :
    ∃ firstAfter, first.skipUntil kind = (.ok (), firstAfter) ∧
      firstAfter.Outlasts secondAfter := by
  fun_induction Lexer.skipUntil kind second generalizing first with
  | case1 second stopped =>
    cases success
    rw [← outlasts.kind, ← outlasts.isExhausted] at stopped
    exact ⟨first, skipUntil_of_stopped stopped, outlasts⟩
  | case2 second _ failure after cut => cases success
  | case3 second onward after advanced last =>
    cases success
    obtain ⟨firstAfter, found, later⟩ := outlasts.advance advanced
    rw [← outlasts.kind, ← outlasts.isExhausted] at onward
    rw [skipUntil_of_advance onward found]
    exact ⟨firstAfter, skipUntil_of_stopped (.inr (later.isExhausted ▸ last)), later⟩
  | case4 second onward after advanced more inductionHypothesis =>
    obtain ⟨firstAfter, found, later⟩ := outlasts.advance advanced
    rw [← outlasts.kind, ← outlasts.isExhausted] at onward
    rw [skipUntil_of_advance onward found]
    exact inductionHypothesis later success

theorem Outlasts.close (outlasts : first.Outlasts second) : first.close.Outlasts second.close where
  honestFirst := .close first.source
  honestSecond := .close second.source
  content := by
    show first.source.close.content = second.source.close.content
    rw [Source.content_close, Source.content_close]
  state := congrArg (fun lexer : Lexer => { lexer.close with source := first.source.close })
    outlasts.state
  unfailing := .close first.source

/-- A request that does not fail is answered as over the whole text. -/
theorem Outlasts.answer (outlasts : first.Outlasts second) (request : Request)
    (success : second.answer request = (.ok (), secondAfter)) :
    ∃ firstAfter, first.answer request = (.ok (), firstAfter) ∧
      firstAfter.Outlasts secondAfter := by
  cases request with
  | advance => exact outlasts.advance success
  | skipUntil kind => exact outlasts.skipUntil kind success
  | close =>
    cases success
    exact ⟨first.close, rfl, outlasts.close⟩

/-- The answer reports a failure of the source. -/
def Fails (answer _other : Except Failure Unit × View) : Prop :=
  ∃ failure, answer.1 = .error failure

theorem Outlasts.answers (outlasts : first.Outlasts second) (requests : List Request) :
    BreaksOff Fails (second.answers requests) (first.answers requests) := by
  induction requests generalizing first second with
  | nil => exact .done
  | cons request rest inductionHypothesis =>
    unfold Lexer.answers
    dsimp only
    cases answered : second.answer request with
    | mk result secondAfter =>
      cases result with
      | error failure => exact .failed _ _ ⟨failure, rfl⟩
      | ok _ =>
        obtain ⟨firstAfter, found, later⟩ := outlasts.answer request answered
        rw [found, show secondAfter.view = firstAfter.view from (later.view fun _ _ => rfl).symm]
        exact .onward (inductionHypothesis later)

end Lexer

namespace Draft

variable {first second : Lexer}

variable [Hashable HeaderPair]

/-- A game is read as from the whole text, or the source fails. -/
theorem readOn_outlasts (outlasts : first.Outlasts second) (config : Config) (draft : Draft)
    (allocations : List Nat) (interner : Interner) :
    (∃ failure, (draft.readOn config allocations interner second).1 =
        .error (.sourceFailed failure)) ∨
      (draft.readOn config allocations interner first).1 =
          (draft.readOn config allocations interner second).1 ∧
        (draft.readOn config allocations interner first).2.1 =
          (draft.readOn config allocations interner second).2.1 ∧
        (draft.readOn config allocations interner first).2.2.Outlasts
          (draft.readOn config allocations interner second).2.2 := by
  induction size : second.source.content.length using Nat.strongRecOn
    generalizing draft allocations interner first second with
  | ind size inductionHypothesis =>
    cases advanced : Scan.advance.run second with
    | mk result secondAfter =>
      cases result with
      | error failure => exact .inl ⟨failure, by rw [readOn_of_failed advanced]⟩
      | ok _ =>
        obtain ⟨firstAfter, found, later⟩ := outlasts.advance advanced
        have tokens : firstAfter.token = secondAfter.token := later.view fun _ _ => rfl
        have starts : firstAfter.start = secondAfter.start := later.view fun _ _ => rfl
        rw [readOn_of_advance advanced, readOn_of_advance found, tokens, starts,
          later.isExhausted]
        dsimp only
        split
        · exact .inr ⟨rfl, rfl, later⟩
        · next more =>
          split
          · exact .inr ⟨rfl, rfl, later⟩
          · exact .inr ⟨rfl, rfl, later⟩
          · have shorter := Lexer.content_lt_of_advance advanced (Bool.eq_false_iff.mpr more)
            exact inductionHypothesis _ (size ▸ shorter) later _ _ _ rfl

end Draft

namespace Reader

/-- Readers in the same state otherwise, of which the first is over a source that never fails. -/
structure Outlasts (first second : Reader) : Prop where
  lexer : first.lexer.Outlasts second.lexer
  state : { second with lexer := first.lexer } = first

/-- A reader over a source that failed has recorded no errors and counted no games but those of the
reader over the whole text. -/
structure Trails (second first : Reader) : Prop where
  errors : second.errors <+: first.errors
  gamesRead : second.gamesRead ≤ first.gamesRead

variable {first second third firstAfter secondAfter : Reader}

theorem Trails.trans (left : second.Trails first) (right : first.Trails third) :
    second.Trails third :=
  ⟨left.errors.trans right.errors, Nat.le_trans left.gamesRead right.gamesRead⟩

theorem Outlasts.trails (outlasts : first.Outlasts second) : second.Trails first := by
  rw [← outlasts.state]
  exact ⟨List.prefix_rfl, Nat.le_refl _⟩

/-- What was recorded and counted stays. -/
theorem trails_settle (reading : Reading) (reader : Reader) :
    reader.Trails (reader.settle reading).2 := by
  unfold settle
  split
  · exact ⟨List.prefix_rfl, Nat.le_succ _⟩
  · exact ⟨List.prefix_rfl, Nat.le_refl _⟩
  · split
    · exact ⟨List.prefix_rfl, Nat.le_refl _⟩
    · dsimp only
      split
      · exact ⟨List.prefix_append _ _, Nat.le_refl _⟩
      · split <;> exact ⟨List.prefix_append _ _, Nat.le_refl _⟩

/-- Passing a game over records nothing and counts nothing. -/
theorem skipGame_keeps (reader : Reader) :
    reader.skipGame.2.errors = reader.errors ∧ reader.skipGame.2.gamesRead = reader.gamesRead := by
  unfold skipGame
  repeat' split
  all_goals exact ⟨rfl, rfl⟩

theorem Outlasts.trails_skipGame (outlasts : first.Outlasts second) :
    second.skipGame.2.Trails first.skipGame.2 := by
  have trails := outlasts.trails
  obtain ⟨errors, gamesRead⟩ := skipGame_keeps first
  obtain ⟨errors', gamesRead'⟩ := skipGame_keeps second
  exact ⟨by rw [errors, errors']; exact trails.errors,
    by rw [gamesRead, gamesRead']; exact trails.gamesRead⟩

/-- The result reports a failure of the source. -/
def IsFailed (result : Option (Except ReadError Entry)) : Prop :=
  ∃ failure, result = some (.error (.sourceFailed failure))

/-- A failure of the source ends the reading. -/
theorem settle_failed (failure : Failure) (reader : Reader) :
    reader.settle (.error (.sourceFailed failure)) =
      (some (some (.error (.sourceFailed failure))), { reader with isDone := true }) := by
  unfold settle
  dsimp only
  rw [if_pos (by rw [ReadError.cause?]; exact Bool.or_true _)]

/-- Two readers settle the same reading alike, unless the source of the second one fails. -/
theorem Outlasts.settle (outlasts : first.Outlasts second) (reading : Reading) :
    (∃ result, (second.settle reading).1 = some result ∧ IsFailed result ∧
        (second.settle reading).2.Trails (first.settle reading).2) ∨
      (first.settle reading).1 = (second.settle reading).1 ∧
        (first.settle reading).2.Outlasts (second.settle reading).2 := by
  obtain ⟨lexer, config, interner, errors, gamesRead, isDone⟩ := second
  obtain ⟨lexer', config', interner', errors', gamesRead', isDone'⟩ := first
  obtain ⟨lexers, state⟩ := outlasts
  simp only [mk.injEq, true_and] at state
  obtain ⟨rfl, rfl, rfl, rfl, rfl⟩ := state
  dsimp only at lexers
  unfold Reader.settle
  split
  · exact .inr ⟨rfl, lexers, rfl⟩
  · exact .inr ⟨rfl, lexers, rfl⟩
  · dsimp only
    split
    · exact .inr ⟨rfl, lexers, rfl⟩
    · split
      · exact .inr ⟨rfl, lexers, rfl⟩
      · cases skipped : lexer.skipUntil .termination with
        | mk result after =>
          cases result with
          | error failure =>
            refine .inl ⟨_, rfl, ⟨failure, rfl⟩, ?_⟩
            cases lexer'.skipUntil .termination with
            | mk result' after' => cases result' <;> exact ⟨List.prefix_rfl, Nat.le_refl _⟩
          | ok _ =>
            obtain ⟨after', found, later⟩ := lexers.skipUntil .termination skipped
            rw [found]
            exact .inr ⟨rfl, later, rfl⟩

theorem Outlasts.isDone (outlasts : first.Outlasts second) : first.isDone = second.isDone := by
  rw [← outlasts.state]

theorem Outlasts.atLimit (outlasts : first.Outlasts second) : first.atLimit = second.atLimit := by
  rw [← outlasts.state]
  rfl

theorem Outlasts.finish (outlasts : first.Outlasts second) :
    Outlasts { first with isDone := true } { second with isDone := true } :=
  ⟨outlasts.lexer, congrArg (fun reader : Reader => { reader with isDone := true }) outlasts.state⟩

/-- The call reports a failure of the source. -/
def Reply.IsFailed : Reply → Prop
  | .game result => Reader.IsFailed result
  | .skipped result => ∃ failure, result = .error (.sourceFailed failure)
  | .closed => False

/-- Passing a game over finds the same on both readers, unless the source of the second one fails.
-/
theorem Outlasts.skipGame (outlasts : first.Outlasts second) :
    (Reply.IsFailed (.skipped second.skipGame.1) ∧ second.skipGame.2.Trails first.skipGame.2) ∨
      first.skipGame.1 = second.skipGame.1 ∧ first.skipGame.2.Outlasts second.skipGame.2 := by
  have behind := outlasts.trails_skipGame
  refine Or.imp_left (fun failed => ⟨failed, behind⟩) ?_
  obtain ⟨lexer, config, interner, errors, gamesRead, isDone⟩ := second
  obtain ⟨lexer', config', interner', errors', gamesRead', isDone'⟩ := first
  obtain ⟨lexers, state⟩ := outlasts
  simp only [mk.injEq, true_and] at state
  obtain ⟨rfl, rfl, rfl, rfl, rfl⟩ := state
  dsimp only at lexers
  unfold Reader.skipGame
  split
  · exact .inr ⟨rfl, lexers, rfl⟩
  · cases advanced : Scan.advance.run lexer with
    | mk result after =>
      cases result with
      | error failure => exact .inl ⟨failure, rfl⟩
      | ok _ =>
        obtain ⟨after', advanced', later⟩ := lexers.advance advanced
        simp only [advanced', ← later.isExhausted]
        split
        · exact .inr ⟨rfl, later, rfl⟩
        · cases skipped : after.skipUntil .termination with
          | mk result last =>
            cases result with
            | error failure => exact .inl ⟨failure, rfl⟩
            | ok _ =>
              obtain ⟨last', skipped', final⟩ := later.skipUntil .termination skipped
              rw [skipped']
              exact .inr ⟨congrArg (fun kind => Except.ok (decide (kind = .termination))) final.kind,
                final, rfl⟩

variable [Hashable HeaderPair]

theorem trails_pass (reader : Reader) : reader.Trails reader.pass.2 := by
  have settled := trails_settle (Draft.read reader.config reader.interner reader.lexer).1
    { reader with
      interner := (Draft.read reader.config reader.interner reader.lexer).2.1
      lexer := (Draft.read reader.config reader.interner reader.lexer).2.2 }
  exact ⟨settled.errors, settled.gamesRead⟩

theorem trails_next (reader : Reader) : reader.Trails reader.next.2 := by
  induction reader using next_induction with
  | done reader done =>
    rw [next_of_isDone done]
    exact ⟨List.prefix_rfl, Nat.le_refl _⟩
  | limit reader running limit =>
    rw [next_of_atLimit running limit]
    exact ⟨List.prefix_rfl, Nat.le_refl _⟩
  | answered reader result after running room passed =>
    have kept := trails_pass reader
    rw [next_of_answered running room passed]
    rwa [passed] at kept
  | again reader after running room passed inductionHypothesis =>
    have kept := trails_pass reader
    rw [passed] at kept
    rw [next_of_again running room passed]
    exact kept.trans inductionHypothesis

/-- What a pass recorded stays until the search is over. -/
theorem trails_next_of_pass {reader : Reader} (running : reader.isDone = false)
    (room : reader.atLimit = false) : reader.pass.2.Trails reader.next.2 := by
  rw [next_of_pass running room]
  cases reader.pass with
  | mk result after =>
    cases result with
    | some result => exact ⟨List.prefix_rfl, Nat.le_refl _⟩
    | none => exact trails_next after

/-- A pass is the same on both readers, unless the source of the second one fails. -/
theorem Outlasts.pass (outlasts : first.Outlasts second) :
    (∃ result, second.pass.1 = some result ∧ IsFailed result ∧
        second.pass.2.Trails first.pass.2) ∨
      first.pass.1 = second.pass.1 ∧ first.pass.2.Outlasts second.pass.2 := by
  have configs : first.config = second.config := by rw [← outlasts.state]
  have interner : first.interner = second.interner := by rw [← outlasts.state]
  rcases Draft.readOn_outlasts outlasts.lexer first.config .start [] first.interner with
    ⟨failure, failed⟩ | ⟨results, interners, later⟩
  · have behind := outlasts.trails.trans (trails_pass first)
    rw [configs, interner] at failed
    have passed : second.pass = (some (some (.error (.sourceFailed failure))), { second with
        interner := (Draft.read second.config second.interner second.lexer).2.1
        lexer := (Draft.read second.config second.interner second.lexer).2.2
        isDone := true }) := by
      unfold Reader.pass Draft.read
      dsimp only
      rw [failed, settle_failed]
    rw [passed]
    exact .inl ⟨_, rfl, ⟨failure, rfl⟩, ⟨behind.errors, behind.gamesRead⟩⟩
  · unfold Reader.pass Draft.read
    dsimp only
    rw [← configs, ← interner, ← results, ← interners]
    refine Outlasts.settle ⟨later, ?_⟩ _
    rw [← outlasts.state]

/-- A search returns the same on both readers, unless the source of the second one fails. -/
theorem Outlasts.next (outlasts : first.Outlasts second) :
    (IsFailed second.next.1 ∧ second.next.2.Trails first.next.2) ∨
      first.next.1 = second.next.1 ∧ first.next.2.Outlasts second.next.2 := by
  induction second using next_induction generalizing first with
  | done second done =>
    rw [next_of_isDone done, next_of_isDone (outlasts.isDone.trans done)]
    exact .inr ⟨rfl, outlasts⟩
  | limit second running limit =>
    rw [next_of_atLimit running limit,
      next_of_atLimit (outlasts.isDone.trans running) (outlasts.atLimit.trans limit)]
    exact .inr ⟨rfl, outlasts.finish⟩
  | answered second result after running room passed =>
    have running' := outlasts.isDone.trans running
    have room' := outlasts.atLimit.trans room
    have behind := outlasts.pass
    rw [next_of_answered running room passed]
    rw [passed] at behind
    rcases behind with ⟨found, returned, failed, trails⟩ | ⟨results, later⟩
    · cases returned
      exact .inl ⟨failed, trails.trans (trails_next_of_pass running' room')⟩
    · have passed' : first.pass = (some result, first.pass.2) := Prod.ext results rfl
      rw [next_of_answered running' room' passed']
      exact .inr ⟨rfl, later⟩
  | again second after running room passed inductionHypothesis =>
    have running' := outlasts.isDone.trans running
    have room' := outlasts.atLimit.trans room
    have behind := outlasts.pass
    rw [next_of_again running room passed]
    rw [passed] at behind
    rcases behind with ⟨found, returned, _⟩ | ⟨results, later⟩
    · cases returned
    · have passed' : first.pass = (none, first.pass.2) := Prod.ext results rfl
      rw [next_of_again running' room' passed']
      exact inductionHypothesis later

theorem Outlasts.answer (outlasts : first.Outlasts second) (request : Request) :
    ((second.answer request).1.IsFailed ∧
        (second.answer request).2.Trails (first.answer request).2) ∨
      (first.answer request).1 = (second.answer request).1 ∧
        (first.answer request).2.Outlasts (second.answer request).2 := by
  cases request with
  | next => exact outlasts.next.imp_right fun same => ⟨congrArg Reply.game same.1, same.2⟩
  | skipGame =>
    exact outlasts.skipGame.imp_right fun same => ⟨congrArg Reply.skipped same.1, same.2⟩
  | close =>
    exact .inr ⟨rfl, outlasts.lexer.close,
      congrArg (fun reader : Reader => { reader with lexer := first.lexer.close, isDone := true })
        outlasts.state⟩

/-- The first answer reports a failure, and what was recorded and counted by then was so behind the
other answer. -/
structure Fails (answer other : Reply × List ReadError × Nat) : Prop where
  failed : answer.1.IsFailed
  errors : answer.2.1 <+: other.2.1
  gamesRead : answer.2.2 ≤ other.2.2

theorem Outlasts.answers (outlasts : first.Outlasts second) (requests : List Request) :
    BreaksOff Fails (second.answers requests) (first.answers requests) := by
  induction requests generalizing first second with
  | nil => exact .done
  | cons request rest inductionHypothesis =>
    unfold Reader.answers
    dsimp only
    rcases outlasts.answer request with ⟨failed, trails⟩ | ⟨replies, later⟩
    · exact .failed _ _ ⟨failed, trails.errors, trails.gamesRead⟩
    · have errors : (first.answer request).2.errors = (second.answer request).2.errors := by
        rw [← later.state]
      have gamesRead : (first.answer request).2.gamesRead =
          (second.answer request).2.gamesRead := by
        rw [← later.state]
      rw [replies, errors, gamesRead]
      exact .onward (inductionHypothesis later)

end Reader

/-- A failure of the source is not taken for the end of the input. Whatever part of a text a device
delivers before it fails, and in whatever pieces, the tokens before the failure are those of the
whole text, and so are the games and the recorded errors. -/
theorem answers_breakOff [Hashable HeaderPair] (device : Device) (honest : device.IsHonest) :
    (∀ requests : List Lexer.Request,
      BreaksOff Lexer.Fails ((Lexer.ofSource (.ofDevice device)).answers requests)
        ((Lexer.ofSource (.ofBytes device.unread)).answers requests)) ∧
    ∀ (config : Config) (requests : List Reader.Request),
      BreaksOff Reader.Fails ((Reader.start config (.ofSource (.ofDevice device))).answers requests)
        ((Reader.start config (.ofSource (.ofBytes device.unread))).answers requests) := by
  have lexers := Lexer.Outlasts.ofDevice honest
  refine ⟨lexers.answers, fun config requests => ?_⟩
  have readers : (Reader.start config (.ofSource (.ofBytes device.unread))).Outlasts
      (Reader.start config (.ofSource (.ofDevice device))) := ⟨lexers, rfl⟩
  exact readers.answers requests

/-- A game of which the last byte, its marker, is never delivered. -/
def Device.broken : Device where
  unread := [0x31, 0x2E, 0x20, 0x65, 0x34, 0x20, 0x2A]
  replies := [.deliver 4, .interrupted, .deliver 2]
  habit := .fail ⟨"broken pipe"⟩

open scoped PairHash

theorem answers_broken_breakOff :
    Device.broken.IsHonest ∧
    (∀ requests : List Lexer.Request,
      BreaksOff Lexer.Fails ((Lexer.ofSource (.ofDevice .broken)).answers requests)
        ((Lexer.ofSource (.ofBytes Device.broken.unread)).answers requests)) ∧
    ∀ (config : Config) (requests : List Reader.Request),
      BreaksOff Reader.Fails
        ((Reader.start config (.ofSource (.ofDevice .broken))).answers requests)
        ((Reader.start config (.ofSource (.ofBytes Device.broken.unread))).answers requests) := by
  have honest : Device.broken.IsHonest := by unfold Device.IsHonest; decide
  exact ⟨honest, answers_breakOff .broken honest⟩

end Scoresheet
