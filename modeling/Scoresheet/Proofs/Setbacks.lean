/-
This file says what a scan leaves that is cut short by a failing source. It may have passed bytes,
but it has not changed what decides about the next token: the kind of the last one, the scope, and
whether that is still to be found. All such changes come last, where nothing can fail any more.
-/

import Scoresheet.Lexer.Progress
import Scoresheet.Proofs.Honest

namespace Scoresheet

namespace Lexer

/-! ### What a failing scan leaves -/

/-- From the first state the second is reached by reading on, and nothing that decides about the
next token has changed. -/
structure Keeps (before after : Lexer) : Prop where
  reads : before.Reads after
  kind : after.kind = before.kind
  scope : after.scope = before.scope
  unsettled : after.unsettled = before.unsettled
  opening : after.opening = before.opening
  honest : before.source.IsHonest → after.source.IsHonest

variable {first second third lexer : Lexer}

theorem Keeps.trans (left : first.Keeps second) (right : second.Keeps third) :
    first.Keeps third where
  reads := left.reads.trans right.reads
  kind := right.kind.trans left.kind
  scope := right.scope.trans left.scope
  unsettled := right.unsettled.trans left.unsettled
  opening := right.opening.trans left.opening
  honest := right.honest ∘ left.honest

theorem Keeps.refl (lexer : Lexer) : lexer.Keeps lexer := ⟨.of_eq rfl rfl, rfl, rfl, rfl, rfl, id⟩

theorem Keeps.fill (lexer : Lexer) : lexer.Keeps (Scan.fill.run lexer).2 :=
  ⟨.fill lexer, rfl, rfl, rfl, rfl, .fill⟩

theorem Keeps.take (keep : Bool) (count : Nat) (lexer : Lexer) :
    lexer.Keeps (lexer.take keep count) := by
  have honest (honest : lexer.source.IsHonest) := honest.advance count
  cases keep
  · exact ⟨.pass count lexer, rfl, rfl, rfl, rfl, honest⟩
  · exact ⟨.capture count lexer, rfl, rfl, rfl, rfl, honest⟩

theorem Keeps.runUntil (keep : Bool) (stop : UInt8 → Bool) (lexer : Lexer) :
    lexer.Keeps (runUntil keep stop lexer).2 := by
  fun_induction Lexer.runUntil keep stop lexer with
  | case1 => exact .fill _
  | case2 => exact .fill _
  | case3 lexer answer filled _ next _ _ inductionHypothesis =>
    exact ((Keeps.fill lexer).trans (.take _ _ _)).trans inductionHypothesis
  | case4 lexer answer filled _ next => exact (Keeps.fill lexer).trans (.take _ _ _)

theorem Keeps.captureQuoted (closing : UInt8) (lexer : Lexer) :
    lexer.Keeps (captureQuoted closing lexer).2 := by
  fun_induction Lexer.captureQuoted closing lexer with
  | case1 => exact .fill _
  | case2 => exact .fill _
  | case3 lexer answer filled _ run next _ _ inductionHypothesis =>
    exact ((Keeps.fill lexer).trans (.take true _ _)).trans inductionHypothesis
  | case4 lexer answer filled _ run next => exact (Keeps.fill lexer).trans (.take true _ _)
  | case5 lexer answer filled _ run next _ byte rest _ _ escape failure _ =>
    exact (((Keeps.fill lexer).trans (.take true _ _)).trans (.take true 1 next)).trans (.fill _)
  | case6 lexer answer filled _ run next _ byte rest _ _ escape _ inductionHypothesis =>
    exact ((((Keeps.fill lexer).trans (.take true _ _)).trans (.take true 1 next)).trans
      (.fill _)).trans ((Keeps.take true 1 _).trans inductionHypothesis)

end Lexer

namespace Scan

open Lexer

variable {Value Result : Type}

/-- What is cut short is cut short in its first or in its second part. -/
theorem run_bind_error {first : Scan Value} {second : Value → Scan Result} {lexer after : Lexer}
    {failure : Failure} (failed : (first >>= second).run lexer = (.error failure, after)) :
    first.run lexer = (.error failure, after) ∨
      ∃ value middle, first.run lexer = (.ok value, middle) ∧
        (second value).run middle = (.error failure, after) := by
  rw [run_bind] at failed
  split at failed
  · next value middle found => exact .inr ⟨value, middle, found, failed⟩
  · next found =>
    cases failed
    exact .inl found

/-- Whatever comes of the scan, it only reads on. -/
def Still (scan : Scan Value) : Prop := ∀ lexer : Lexer, lexer.Keeps (scan.run lexer).2

/-- As long as the scan is cut short, it only reads on. -/
def StillCutShort (scan : Scan Value) : Prop :=
  ∀ ⦃lexer after : Lexer⦄ ⦃failure : Failure⦄, scan.run lexer = (.error failure, after) →
    lexer.Keeps after

/-- The scan needs nothing of the source and is never cut short. -/
def Sure (scan : Scan Value) : Prop := ∀ lexer : Lexer, ∃ value, (scan.run lexer).1 = .ok value

theorem Still.bind {first : Scan Value} {second : Value → Scan Result} (left : first.Still)
    (right : ∀ value, (second value).Still) : (first >>= second).Still := by
  intro lexer
  have early := left lexer
  rw [run_bind]
  split
  · next value middle found =>
    rw [found] at early
    exact early.trans (right value middle)
  · next failure after found =>
    rw [found] at early
    exact early

theorem Still.look (view : Lexer → Value) : (look view).Still := .refl

theorem Still.pure (value : Value) : (Pure.pure value : Scan Value).Still := .refl

theorem Still.fill : Scan.fill.Still := Keeps.fill

theorem Still.peek : Scan.peek.Still := .bind .fill fun _ => .look _

theorem Still.markStart : Scan.markStart.Still := fun _ => ⟨.of_eq rfl rfl, rfl, rfl, rfl, rfl, id⟩

theorem Still.pass (count : Nat) : (Scan.pass count).Still := Keeps.take false count

theorem Still.capture (count : Nat) : (Scan.capture count).Still := Keeps.take true count

theorem Still.captureUntil (stop : UInt8 → Bool) : (Scan.captureUntil stop).Still :=
  Keeps.runUntil true stop

theorem Still.passLine : Scan.passLine.Still :=
  .bind (Keeps.runUntil false _) fun _ => .pass 1

theorem Still.captureLine : Scan.captureLine.Still := by
  refine .bind (.captureUntil _) fun _ lexer => ?_
  show lexer.Keeps lexer.dropReturn
  unfold Lexer.dropReturn
  split
  · exact ⟨.of_eq rfl rfl, rfl, rfl, rfl, rfl, id⟩
  · exact .refl lexer

theorem Still.passSpace : Scan.passSpace.Still := by
  intro lexer
  show lexer.Keeps (Lexer.passSpace lexer).2
  fun_induction Lexer.passSpace lexer with
  | case1 => exact .fill _
  | case2 => exact .fill _
  | case3 lexer answer filled _ byte rest inSight blank inductionHypothesis =>
    exact ((Keeps.fill lexer).trans (.take false _ _)).trans inductionHypothesis
  | case4 lexer answer filled _ byte rest inSight blank escaped failure after line =>
    have passed := Still.passLine filled
    rw [line] at passed
    exact (Keeps.fill lexer).trans passed
  | case5 lexer answer filled _ byte rest inSight blank escaped after line inductionHypothesis =>
    have passed := Still.passLine filled
    rw [line] at passed
    exact ((Keeps.fill lexer).trans passed).trans inductionHypothesis
  | case6 => exact .fill _

theorem Still.cutShort {scan : Scan Value} (still : scan.Still) : scan.StillCutShort := by
  intro lexer after failure failed
  have kept := still lexer
  rw [failed] at kept
  exact kept

theorem Sure.cutShort {scan : Scan Value} (sure : scan.Sure) : scan.StillCutShort := by
  intro lexer after failure failed
  obtain ⟨value, success⟩ := sure lexer
  rw [failed] at success
  cases success

theorem Sure.change (update : Lexer → Lexer) : (change update).Sure := fun _ => ⟨(), rfl⟩

theorem Sure.pure (value : Value) : (Pure.pure value : Scan Value).Sure := fun _ => ⟨value, rfl⟩

theorem Sure.bind {first : Scan Value} {second : Value → Scan Result} (left : first.Sure)
    (right : ∀ value, (second value).Sure) : (first >>= second).Sure := by
  intro lexer
  obtain ⟨value, success⟩ := left lexer
  rw [run_bind]
  split
  · next found after _ => exact right found after
  · next failed =>
    rw [failed] at success
    cases success

/-- What comes first only reads on, so what comes after it may be cut short. -/
theorem StillCutShort.bind {first : Scan Value} {second : Value → Scan Result} (left : first.Still)
    (right : ∀ value, (second value).StillCutShort) : (first >>= second).StillCutShort := by
  intro lexer after failure failed
  rcases run_bind_error failed with found | ⟨value, middle, found, later⟩
  · exact left.cutShort found
  · have early := left lexer
    rw [found] at early
    exact early.trans (right value later)

/-- Only what comes first can be cut short. -/
theorem StillCutShort.bind_sure {first : Scan Value} {second : Value → Scan Result}
    (left : first.StillCutShort) (right : ∀ value, (second value).Sure) :
    (first >>= second).StillCutShort := by
  intro lexer after failure failed
  rcases run_bind_error failed with found | ⟨value, middle, _, later⟩
  · exact left found
  · obtain ⟨result, success⟩ := right value middle
    rw [later] at success
    cases success

theorem Sure.finish : finish.Sure := .bind (.change _) fun _ => .pure _

theorem Sure.delimiter (kind : TokenKind) : (delimiter kind).Sure :=
  .bind (.change _) fun _ => .pure _

theorem Sure.terminate : terminate.Sure := .bind (.change _) fun _ => .pure _

theorem StillCutShort.quotedToken (closing : UInt8) (text close : TokenKind) :
    (quotedToken closing text close).StillCutShort := by
  refine .bind .markStart fun _ => .bind .peek fun next => ?_
  split
  · exact Sure.finish.cutShort
  · split
    · exact (Sure.delimiter _).cutShort
    · exact .bind (Keeps.captureQuoted closing) fun _ => (Sure.pure _).cutShort

theorem StillCutShort.headerTokenAt (byte : UInt8) : (headerTokenAt byte).StillCutShort := by
  refine .bind (.look _) fun previous => ?_
  split
  · exact (Sure.delimiter _).cutShort
  · split
    · exact .bind (.pass 1) fun _ => (Sure.bind (.change _) fun _ => .pure _).cutShort
    · split
      · exact (Sure.delimiter _).cutShort
      · exact .bind (.captureUntil _) fun _ => (Sure.pure _).cutShort

theorem StillCutShort.spacedToken {token : UInt8 → Scan TokenKind}
    (each : ∀ byte, (token byte).StillCutShort) : (spacedToken token).StillCutShort := by
  refine .bind .passSpace fun next => ?_
  split
  · exact Sure.finish.cutShort
  · exact .bind .markStart fun _ => each _

theorem StillCutShort.headerToken : headerToken.StillCutShort := by
  have spaced : (Scan.spacedToken Scan.headerTokenAt).StillCutShort := .spacedToken .headerTokenAt
  refine .bind (.look _) fun kind => ?_
  split
  · exact .quotedToken _ _ _
  · refine .bind .peek fun next => ?_
    split
    · split
      · exact .bind .markStart fun _ => .bind (.captureUntil _) fun _ => (Sure.pure _).cutShort
      · exact spaced
    · exact spaced
  · exact spaced

theorem Still.behindDigits (next : Option UInt8) : (behindDigits next).Still := by
  unfold Scan.behindDigits
  split
  · split
    · exact .bind (.captureUntil _) fun _ => .look _
    · exact .pure _
  · exact .pure _

theorem StillCutShort.digitToken : digitToken.StillCutShort := by
  refine .bind (.look _) fun buffer => ?_
  split
  · exact .bind (.capture _) fun _ => Sure.terminate.cutShort
  · exact .bind (.captureUntil _) fun _ =>
      .bind .peek fun next => (Still.behindDigits next).cutShort

theorem StillCutShort.movetextTokenAt (byte : UInt8) : (movetextTokenAt byte).StillCutShort := by
  unfold Scan.movetextTokenAt
  repeat' split
  · exact (Sure.delimiter _).cutShort
  · exact .bind (.pass 1) fun _ => .bind .captureLine fun _ => (Sure.pure _).cutShort
  · exact .bind (.capture 1) fun _ => .bind (.captureUntil _) fun _ => (Sure.pure _).cutShort
  · exact .bind (.captureUntil _) fun _ => (Sure.pure _).cutShort
  · exact .bind (.capture 1) fun _ => Sure.terminate.cutShort
  · exact .bind (.captureUntil _) fun _ => .bind (.look _) fun _ => (Sure.pure _).cutShort
  · exact .digitToken
  · exact .bind (.capture 1) fun _ => (Sure.pure _).cutShort
  · refine .bind (.captureUntil _) fun _ => .bind (.look _) fun span => ?_
    split
    · exact (Sure.pure _).cutShort
    · exact (Still.look _).cutShort

theorem StillCutShort.movetextToken : movetextToken.StillCutShort := by
  refine .bind (.look _) fun kind => ?_
  split
  · exact .quotedToken _ _ _
  · exact .spacedToken .movetextTokenAt

/-- A token that is cut short has changed nothing that decides about the next one. -/
theorem StillCutShort.scopedToken : scopedToken.StillCutShort := by
  have movetext : (Scan.movetextToken >>= fun kind =>
      change (Lexer.closeOpening kind) >>= fun _ => pure kind).StillCutShort :=
    StillCutShort.movetextToken.bind_sure fun _ => .bind (.change _) fun _ => .pure _
  refine .bind (.look _) fun scope => ?_
  split
  · exact Sure.finish.cutShort
  · exact .headerToken
  · exact movetext
  · exact movetext

end Scan

end Scoresheet
