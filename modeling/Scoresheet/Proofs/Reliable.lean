/-
This file shows that a lexer fails only where its source does. Over an unfailing source every scan
succeeds and leaves the source unfailing, so the next token, the search for a token of a certain
kind, and with them the reading of games always come to a result.
-/

import Scoresheet.Lexer.Progress
import Scoresheet.Proofs.Honest

namespace Scoresheet

namespace Lexer

variable {lexer : Lexer}

theorem isUnfailing_fill (unfailing : lexer.source.IsUnfailing) :
    (Scan.fill.run lexer).1 = .ok () ∧ (Scan.fill.run lexer).2.source.IsUnfailing :=
  unfailing.fill

theorem isUnfailing_take (unfailing : lexer.source.IsUnfailing) (keep : Bool) (count : Nat) :
    (lexer.take keep count).source.IsUnfailing := by
  cases keep <;> exact unfailing.advance count

/-! ### The loops -/

theorem runUntil_reliable (unfailing : lexer.source.IsUnfailing) (keep : Bool)
    (stop : UInt8 → Bool) :
    (runUntil keep stop lexer).1 = .ok () ∧
      (runUntil keep stop lexer).2.source.IsUnfailing := by
  fun_induction runUntil keep stop lexer with
  | case1 lexer answer filled failure failed =>
    have filling := (isUnfailing_fill unfailing).1
    rw [show (Scan.fill.run lexer).1 = .error failure from failed] at filling
    cases filling
  | case2 => exact ⟨rfl, (isUnfailing_fill unfailing).2⟩
  | case3 lexer answer filled _ next _ _ inductionHypothesis =>
    exact inductionHypothesis (isUnfailing_take (isUnfailing_fill unfailing).2 _ _)
  | case4 => exact ⟨rfl, isUnfailing_take (isUnfailing_fill unfailing).2 _ _⟩

theorem passLine_reliable (unfailing : lexer.source.IsUnfailing) :
    (Scan.passLine.run lexer).1 = .ok () ∧ (Scan.passLine.run lexer).2.source.IsUnfailing := by
  have run := runUntil_reliable unfailing false (· == Ascii.lineFeed)
  unfold Scan.passLine
  rw [Scan.run_bind]
  split
  · next after equation =>
    rw [show runUntil false (· == Ascii.lineFeed) lexer = _ from equation] at run
    exact ⟨rfl, run.2.advance 1⟩
  · next failure after equation =>
    rw [show runUntil false (· == Ascii.lineFeed) lexer = _ from equation] at run
    cases run.1

theorem passSpace_reliable (unfailing : lexer.source.IsUnfailing) :
    ∃ next, (passSpace lexer).1 = .ok next ∧ (passSpace lexer).2.source.IsUnfailing := by
  fun_induction passSpace lexer with
  | case1 lexer answer filled failure failed =>
    have filling := (isUnfailing_fill unfailing).1
    rw [show (Scan.fill.run lexer).1 = .error failure from failed] at filling
    cases filling
  | case2 => exact ⟨none, rfl, (isUnfailing_fill unfailing).2⟩
  | case3 lexer answer filled _ byte rest inSight blank inductionHypothesis =>
    exact inductionHypothesis ((isUnfailing_fill unfailing).2.advance _)
  | case4 lexer answer filled _ byte rest inSight blank escaped failure after line =>
    have run := passLine_reliable (isUnfailing_fill unfailing).2
    rw [show Scan.passLine.run (Scan.fill.run lexer).2 = _ from line] at run
    cases run.1
  | case5 lexer answer filled _ byte rest inSight blank escaped after line inductionHypothesis =>
    have run := passLine_reliable (isUnfailing_fill unfailing).2
    rw [show Scan.passLine.run (Scan.fill.run lexer).2 = _ from line] at run
    exact inductionHypothesis run.2
  | case6 lexer answer filled _ byte => exact ⟨some byte, rfl, (isUnfailing_fill unfailing).2⟩

theorem captureQuoted_reliable (unfailing : lexer.source.IsUnfailing) (closing : UInt8) :
    (captureQuoted closing lexer).1 = .ok () ∧
      (captureQuoted closing lexer).2.source.IsUnfailing := by
  fun_induction captureQuoted closing lexer with
  | case1 lexer answer filled failure failed =>
    have filling := (isUnfailing_fill unfailing).1
    rw [show (Scan.fill.run lexer).1 = .error failure from failed] at filling
    cases filling
  | case2 => exact ⟨rfl, (isUnfailing_fill unfailing).2⟩
  | case3 lexer answer filled _ run next _ _ inductionHypothesis =>
    exact inductionHypothesis ((isUnfailing_fill unfailing).2.advance _)
  | case4 => exact ⟨rfl, (isUnfailing_fill unfailing).2.advance _⟩
  | case5 lexer answer filled _ run next _ byte rest _ _ escape failure failed =>
    have taken : (next.capture 1).source.IsUnfailing :=
      ((isUnfailing_fill unfailing).2.advance _).advance 1
    have filling := (isUnfailing_fill taken).1
    rw [show (Scan.fill.run (next.capture 1)).1 = .error failure from failed] at filling
    cases filling
  | case6 lexer answer filled _ run next _ byte rest _ _ escape _ inductionHypothesis =>
    have taken : (next.capture 1).source.IsUnfailing :=
      ((isUnfailing_fill unfailing).2.advance _).advance 1
    exact inductionHypothesis ((isUnfailing_fill taken).2.advance 1)

end Lexer

/-! ### Every scan -/

namespace Scan

open Lexer Ascii

/-- The scan succeeds over an unfailing source and leaves it unfailing. -/
def Reliable {Value : Type} (scan : Scan Value) : Prop :=
  ∀ lexer : Lexer, lexer.source.IsUnfailing →
    ∃ value, (scan.run lexer).1 = .ok value ∧ (scan.run lexer).2.source.IsUnfailing

variable {Value Result : Type}

theorem Reliable.bind {first : Scan Value} {second : Value → Scan Result}
    (left : first.Reliable) (right : ∀ value, (second value).Reliable) :
    (first >>= second).Reliable := by
  intro lexer unfailing
  obtain ⟨value, success, later⟩ := left lexer unfailing
  rw [run_bind]
  split
  · next found after equation =>
    rw [equation] at later
    exact right found after later
  · next failure after equation =>
    rw [equation] at success
    cases success

theorem Reliable.pure (value : Value) : (Pure.pure value : Scan Value).Reliable :=
  fun _ unfailing => ⟨value, rfl, unfailing⟩

theorem Reliable.look (view : Lexer → Value) : (look view).Reliable :=
  fun lexer unfailing => ⟨view lexer, rfl, unfailing⟩

theorem Reliable.change {update : Lexer → Lexer}
    (keeps : ∀ lexer : Lexer, lexer.source.IsUnfailing → (update lexer).source.IsUnfailing) :
    (change update).Reliable :=
  fun lexer unfailing => ⟨(), rfl, keeps lexer unfailing⟩

/-- An update that leaves the source alone. -/
theorem Reliable.update {update : Lexer → Lexer}
    (keeps : ∀ lexer : Lexer, (update lexer).source = lexer.source) :
    (Scan.change update).Reliable :=
  .change fun lexer unfailing => by rwa [keeps]

theorem Reliable.peek : peek.Reliable :=
  .bind (fun _ unfailing => ⟨(), isUnfailing_fill unfailing⟩) fun _ => .look _

theorem Reliable.pass (count : Nat) : (pass count).Reliable :=
  .change fun _ unfailing => unfailing.advance count

theorem Reliable.capture (count : Nat) : (capture count).Reliable :=
  .change fun _ unfailing => unfailing.advance count

theorem Reliable.markStart : markStart.Reliable := .update fun _ => rfl

theorem Reliable.captureUntil (stop : UInt8 → Bool) : (captureUntil stop).Reliable :=
  fun _ unfailing => ⟨(), runUntil_reliable unfailing true stop⟩

theorem Reliable.captureLine : captureLine.Reliable := by
  refine .bind (.captureUntil _) fun _ => .update fun lexer => ?_
  unfold Lexer.dropReturn
  split <;> rfl

theorem Reliable.captureQuoted (closing : UInt8) : (captureQuoted closing).Reliable :=
  fun _ unfailing => ⟨(), captureQuoted_reliable unfailing closing⟩

theorem Reliable.passSpace : passSpace.Reliable := fun _ unfailing => passSpace_reliable unfailing

theorem Reliable.finish : finish.Reliable := .bind (.update fun _ => rfl) fun _ => .pure _

theorem Reliable.passByteOrderMark : passByteOrderMark.Reliable := by
  refine .bind (.look _) fun offset => ?_
  split
  · refine .bind (fun _ unfailing => ⟨(), isUnfailing_fill unfailing⟩) fun _ =>
      .change fun lexer unfailing => ?_
    unfold Lexer.passMark
    split
    · exact unfailing.advance _
    · exact unfailing
  · exact .pure _

theorem Reliable.findScope : findScope.Reliable := by
  refine .bind (.update fun _ => rfl) fun _ => .bind .passSpace fun next => .update fun lexer => ?_
  unfold Lexer.settle
  repeat' split
  all_goals rfl

theorem Reliable.delimiter (kind : TokenKind) : (delimiter kind).Reliable :=
  .bind (.pass 1) fun _ => .pure _

theorem Reliable.terminate : terminate.Reliable := .bind (.update fun _ => rfl) fun _ => .pure _

theorem Reliable.quotedToken (closing : UInt8) (text close : TokenKind) :
    (quotedToken closing text close).Reliable := by
  refine .bind .markStart fun _ => .bind .peek fun next => ?_
  split
  · exact .finish
  · split
    · exact .delimiter _
    · exact .bind (.captureQuoted _) fun _ => .pure _

theorem Reliable.headerTokenAt (byte : UInt8) : (headerTokenAt byte).Reliable := by
  refine .bind (.look _) fun previous => ?_
  split
  · exact .delimiter _
  · split
    · exact .bind (.pass 1) fun _ => .bind (.update fun _ => rfl) fun _ => .pure _
    · split
      · exact .delimiter _
      · exact .bind (.captureUntil _) fun _ => .pure _

theorem Reliable.spacedToken {token : UInt8 → Scan TokenKind}
    (each : ∀ byte, (token byte).Reliable) : (spacedToken token).Reliable := by
  refine .bind .passSpace fun next => ?_
  split
  · exact .finish
  · exact .bind .markStart fun _ => each _

theorem Reliable.headerToken : headerToken.Reliable := by
  refine .bind (.look _) fun kind => ?_
  split
  · exact .quotedToken _ _ _
  · refine .bind .peek fun next => ?_
    split
    · split
      · exact .bind .markStart fun _ => .bind (.captureUntil _) fun _ => .pure _
      · exact .spacedToken .headerTokenAt
    · exact .spacedToken .headerTokenAt
  · exact .spacedToken .headerTokenAt

theorem Reliable.numberToken : numberToken.Reliable := by
  refine .bind (.captureUntil _) fun _ => .bind .peek fun next => ?_
  unfold Scan.behindDigits
  split
  · split
    · exact .bind (.captureUntil _) fun _ => .look _
    · exact .pure _
  · exact .pure _

theorem Reliable.digitToken : digitToken.Reliable := by
  refine .bind (.look _) fun buffer => ?_
  split
  · exact .bind (.capture _) fun _ => .terminate
  · exact .numberToken

theorem Reliable.moveToken : moveToken.Reliable := by
  refine .bind (.captureUntil _) fun _ => .bind (.look _) fun span => ?_
  split
  · exact .pure _
  · exact .look _

theorem Reliable.movetextTokenAt (byte : UInt8) : (movetextTokenAt byte).Reliable := by
  unfold Scan.movetextTokenAt
  repeat' split
  · exact .delimiter _
  · exact .bind (.pass 1) fun _ => .bind .captureLine fun _ => .pure _
  · exact .bind (.capture 1) fun _ => .bind (.captureUntil _) fun _ => .pure _
  · exact .bind (.captureUntil _) fun _ => .pure _
  · exact .bind (.capture 1) fun _ => .terminate
  · exact .bind (.captureUntil _) fun _ => .bind (.look _) fun _ => .pure _
  · exact .digitToken
  · exact .bind (.capture 1) fun _ => .pure _
  · exact .moveToken

theorem Reliable.movetextToken : movetextToken.Reliable := by
  refine .bind (.look _) fun kind => ?_
  split
  · exact .quotedToken _ _ _
  · exact .spacedToken .movetextTokenAt

theorem Reliable.closeOpening (kind : TokenKind) :
    (Scan.change (Lexer.closeOpening kind)).Reliable := by
  refine .update fun lexer => ?_
  unfold Lexer.closeOpening
  repeat' split
  all_goals rfl

theorem Reliable.scopedToken : scopedToken.Reliable := by
  refine .bind (.look _) fun scope => ?_
  split
  · exact .finish
  · exact .headerToken
  · exact .bind .movetextToken fun kind => .bind (.closeOpening kind) fun _ => .pure _
  · exact .bind .movetextToken fun kind => .bind (.closeOpening kind) fun _ => .pure _

theorem Reliable.nextToken : nextToken.Reliable := by
  refine .bind (.look _) fun unsettled => ?_
  split
  · exact .bind .passByteOrderMark fun _ => .bind .findScope fun _ => .scopedToken
  · exact .scopedToken

theorem Reliable.advance : advance.Reliable :=
  .bind (.update fun _ => rfl) fun _ => .bind .nextToken fun _ => .update fun _ => rfl

end Scan

namespace Lexer

/-- Over an unfailing source there is always a next token. -/
theorem advance_of_isUnfailing {lexer : Lexer} (unfailing : lexer.source.IsUnfailing) :
    ∃ after, Scan.advance.run lexer = (.ok (), after) ∧ after.source.IsUnfailing := by
  obtain ⟨value, success, later⟩ := Scan.Reliable.advance lexer unfailing
  exact ⟨_, Prod.ext success rfl, later⟩

theorem advance_ne_error {lexer after : Lexer} {failure : Failure}
    (unfailing : lexer.source.IsUnfailing) :
    Scan.advance.run lexer ≠ (.error failure, after) := by
  obtain ⟨_, success, _⟩ := advance_of_isUnfailing unfailing
  rw [success]
  nofun

/-- The source behind a token is as unfailing as it was in front of it. -/
theorem isUnfailing_of_advance {lexer after : Lexer} (unfailing : lexer.source.IsUnfailing)
    (advanced : Scan.advance.run lexer = (.ok (), after)) : after.source.IsUnfailing := by
  obtain ⟨_, success, later⟩ := advance_of_isUnfailing unfailing
  rw [advanced] at success
  exact (Prod.mk.inj success).2 ▸ later

end Lexer

end Scoresheet
