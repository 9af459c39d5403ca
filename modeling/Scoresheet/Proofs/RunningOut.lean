/-
This file shows that a lexer runs out of tokens, whatever its source does, and that it stays so.
Every token but the last takes at least one byte, so discarding tokens comes to an end, and no more
of them come than there are bytes. The last token is undefined and covers nothing; unlike other
undefined tokens it leaves the lexer outside any scope, with none to be found.

From there on the source is left alone, also if it would deliver more. That no call is made is said
by comparing sources: what makes none gives the same over all of them, those that fail at every
attempt included. Only an exhausted lexer comes to its next token without a call.
-/

import Scoresheet.Proofs.Admission
import Scoresheet.Proofs.Retrying

namespace Scoresheet

namespace Lexer

/-- A token of the given kind is the last one: it is undefined and covers nothing, and no more
tokens will be produced. -/
structure IsLast (kind : TokenKind) (lexer : Lexer) : Prop where
  undefined : kind = .undefined
  empty : lexer.span = []
  exhausted : lexer.isExhausted = true

/-- The lexer is within a scope and has kept nothing of the next token. -/
structure IsWithin (text : Bytes) (lexer : Lexer) : Prop where
  fresh : lexer.IsFresh text
  inside : lexer.scope ≠ .outside

variable {lexer : Lexer} {kind : TokenKind}

theorem isLast_closeOpening (last : lexer.IsLast kind) : (lexer.closeOpening kind).IsLast kind := by
  obtain ⟨rfl, empty, exhausted⟩ := last
  unfold closeOpening
  split
  · exact ⟨rfl, empty, exhausted⟩
  · exact ⟨rfl, empty, exhausted⟩

theorem scope_closeOpening (kind : TokenKind) (lexer : Lexer) :
    (lexer.closeOpening kind).scope = lexer.scope := by
  unfold closeOpening
  split
  · split <;> rfl
  · rfl

end Lexer

/-! ### Only the last token leaves the scopes -/

namespace Scan

open Lexer Ascii

variable {Value : Type} {text : Bytes}

/-- A scan that succeeds within a scope stays within one. -/
abbrev StaysInside (scan : Scan Value) : Prop :=
  scan.Leads (·.scope ≠ .outside) fun _ lexer => lexer.scope ≠ .outside

theorem Still.staysInside {scan : Scan Value} (still : scan.Still) : scan.StaysInside := by
  intro lexer later value inside success
  have kept := still lexer
  rw [success] at kept
  rw [kept.scope]
  exact inside

theorem Still.delimiter (kind : TokenKind) : (delimiter kind).Still :=
  .bind (.pass 1) fun _ => .pure _

theorem StaysInside.terminate : terminate.StaysInside :=
  Leads.bind (.change fun _ _ => nofun) fun _ => .pure fun _ inside => inside

theorem StaysInside.headerTokenAt (byte : UInt8) : (headerTokenAt byte).StaysInside := by
  refine .bind_look fun previous => ?_
  split
  · exact (Still.delimiter _).staysInside
  · split
    · have unsettled : (change ({ · with unsettled := true })).StaysInside :=
        .change fun _ inside => inside
      exact (Still.pass 1).staysInside.bind fun _ => unsettled.bind fun _ =>
        (Still.pure _).staysInside
    · split
      · exact (Still.delimiter _).staysInside
      · exact Still.staysInside (.bind (.captureUntil _) fun _ => .pure _)

theorem StaysInside.digitToken : digitToken.StaysInside := by
  refine .bind_look fun buffer => ?_
  split
  · exact (Still.capture _).staysInside.bind fun _ => StaysInside.terminate
  · exact Still.staysInside (.bind (.captureUntil _) fun _ => .bind .peek .behindDigits)

theorem Still.moveToken : moveToken.Still := by
  refine .bind (.captureUntil _) fun _ => .bind (.look _) fun standalone => ?_
  split
  · exact .pure _
  · exact .look _

theorem StaysInside.movetextTokenAt (byte : UInt8) : (movetextTokenAt byte).StaysInside := by
  unfold Scan.movetextTokenAt
  repeat' split
  · exact (Still.delimiter _).staysInside
  · exact Still.staysInside (.bind (.pass 1) fun _ => .bind .captureLine fun _ => .pure _)
  · exact Still.staysInside (.bind (.capture 1) fun _ => .bind (.captureUntil _) fun _ => .pure _)
  · exact Still.staysInside (.bind (.captureUntil _) fun _ => .pure _)
  · exact (Still.capture 1).staysInside.bind fun _ => StaysInside.terminate
  · exact Still.staysInside (.bind (.captureUntil _) fun _ => .bind (.look _) fun _ => .pure _)
  · exact .digitToken
  · exact Still.staysInside (.bind (.capture 1) fun _ => .pure _)
  · exact Still.moveToken.staysInside

/-- From states with the property the scan tells the last token, or it leaves the lexer within a
scope. -/
def Concludes (ready : Lexer → Prop) (scan : Scan TokenKind) : Prop :=
  scan.Leads ready fun kind lexer => lexer.IsLast kind ∨ lexer.scope ≠ .outside

theorem StaysInside.concludes {scan : Scan TokenKind} (stays : scan.StaysInside) :
    scan.Concludes (IsWithin text) :=
  fun lexer later kind within success => .inr (stays lexer later kind within.inside success)

theorem Concludes.finish : finish.Concludes (IsFresh text) := by
  intro lexer later kind fresh success
  cases success
  exact .inl ⟨rfl, fresh.span, rfl⟩

theorem Concludes.within {scan : Scan TokenKind} (concludes : scan.Concludes (IsFresh text)) :
    scan.Concludes (IsWithin text) :=
  fun lexer later kind within success => concludes lexer later kind within.fresh success

/-- Reading on within a scope without keeping anything. -/
theorem Still.within {scan : Scan Value} (still : scan.Still)
    (kept : ∀ lexer, (scan.run lexer).2.captured = lexer.captured) :
    scan.Leads (IsWithin text) fun _ => IsWithin text := by
  intro lexer later value within success
  have reading := still lexer
  have captured := kept lexer
  rw [success] at reading captured
  refine ⟨within.fresh.reads captured reading.reads.consumes, ?_⟩
  rw [reading.scope]
  exact within.inside

theorem captured_peek (lexer : Lexer) : (peek.run lexer).2.captured = lexer.captured := by
  unfold Scan.peek
  rw [run_bind]
  split
  · next found => exact congrArg (·.2.captured) found.symm
  · next found => exact congrArg (·.2.captured) found.symm

theorem Concludes.quotedToken (closing : UInt8) (inner close : TokenKind) :
    (quotedToken closing inner close).Concludes (IsWithin text) := by
  refine Leads.bind (Still.markStart.within fun _ => rfl) fun _ =>
    (Still.peek.within captured_peek).bind fun next => ?_
  split
  · exact Concludes.finish.within
  · split
    · exact (Still.delimiter _).staysInside.concludes
    · have quoted : (Scan.captureQuoted closing).Still := Keeps.captureQuoted closing
      exact (Still.staysInside (quoted.bind fun _ => .pure _)).concludes

theorem Concludes.spacedToken {token : UInt8 → Scan TokenKind}
    (each : ∀ byte, (token byte).StaysInside) :
    (spacedToken token).Concludes (IsWithin text) := by
  have space : Scan.passSpace.Leads (IsWithin text) fun _ => IsWithin text :=
    Still.passSpace.within fun lexer => (skims_passSpace lexer).captured
  refine space.bind fun next => ?_
  split
  · exact Concludes.finish.within
  · exact Leads.bind (Still.markStart.within fun _ => rfl) fun _ => (each _).concludes

theorem Concludes.headerToken : headerToken.Concludes (IsWithin text) := by
  have spaced : (Scan.spacedToken headerTokenAt).Concludes (IsWithin text) :=
    .spacedToken StaysInside.headerTokenAt
  have separator : Scan.separatorToken.Still :=
    .bind .markStart fun _ => .bind (.captureUntil _) fun _ => .pure _
  refine .bind_look fun kind => ?_
  split
  · exact Concludes.quotedToken _ _ _
  · refine (Still.peek.within captured_peek).bind fun next => ?_
    split
    · split
      · exact separator.staysInside.concludes
      · exact spaced
    · exact spaced
  · exact spaced

theorem Concludes.movetextToken : movetextToken.Concludes (IsWithin text) := by
  refine .bind_look fun kind => ?_
  split
  · exact Concludes.quotedToken _ _ _
  · exact Concludes.spacedToken StaysInside.movetextTokenAt

theorem Concludes.closeOpening {ready : Lexer → Prop} {token : Scan TokenKind}
    (concludes : token.Concludes ready) :
    (do
      let kind ← token
      change (Lexer.closeOpening kind)
      return kind : Scan TokenKind).Concludes ready := by
  refine Leads.bind concludes fun kind => ?_
  have closed : (change (Lexer.closeOpening kind)).Leads
      (fun lexer => lexer.IsLast kind ∨ lexer.scope ≠ .outside)
      fun _ lexer => lexer.IsLast kind ∨ lexer.scope ≠ .outside :=
    .change fun lexer told => told.imp isLast_closeOpening fun inside => by
      rwa [scope_closeOpening]
  exact closed.bind fun _ => .pure fun _ told => told

theorem Concludes.scopedToken : scopedToken.Concludes (IsFresh text) := by
  have inside {scan : Scan TokenKind} {scope : Scope} (other : scope ≠ .outside)
      (concludes : scan.Concludes (IsWithin text)) :
      scan.Concludes fun lexer => lexer.IsFresh text ∧ lexer.scope = scope :=
    fun lexer later kind holds success =>
      concludes lexer later kind ⟨holds.1, by rwa [holds.2]⟩ success
  have scope : (look (·.scope)).Leads (IsFresh text)
      fun scope lexer => lexer.IsFresh text ∧ lexer.scope = scope :=
    .look fun _ fresh => ⟨fresh, rfl⟩
  refine scope.bind fun scope => ?_
  split
  · exact fun lexer later kind holds success =>
      Concludes.finish lexer later kind holds.1 success
  · exact inside nofun .headerToken
  · exact inside nofun (.closeOpening .movetextToken)
  · exact inside nofun (.closeOpening .movetextToken)

theorem Concludes.nextToken : nextToken.Concludes (IsFresh text) := by
  refine .bind_look fun unsettled => ?_
  split
  · exact Leads.passByteOrderMark.bind fun _ => Leads.findScope.bind fun _ =>
      Concludes.scopedToken
  · exact Concludes.scopedToken

end Scan

namespace Lexer

variable {lexer after : Lexer}

/-- A new token is the last one, or it takes at least one byte and is not the last. -/
theorem isLast_or_offset_lt (success : Scan.advance.run lexer = (.ok (), after)) :
    after.IsLast after.kind ∨
      after.isExhausted = false ∧ lexer.place.offset < after.place.offset := by
  obtain ⟨kind, told, found, rfl⟩ := nextToken_of_advance success
  have fresh : ({ lexer with captured := [] } : Lexer).IsFresh lexer.source.content :=
    ⟨rfl, [], rfl⟩
  refine (Scan.Concludes.nextToken _ told kind fresh found).imp
    (fun last => ⟨last.undefined, last.empty, last.exhausted⟩) fun inside => ?_
  have more : ({ told with kind } : Lexer).isExhausted = false := by
    refine Bool.eq_false_iff.mpr fun ended => inside ?_
    exact beq_iff_eq.mp (Bool.and_eq_true_iff.mp ended).1
  exact ⟨more, offset_lt_of_advance success more⟩

end Lexer

/-! ### Calls to the source -/

/-- A stream that shows nothing and whose device fails at every attempt. -/
def Source.failing (failure : Failure) : Source := .ofDevice ⟨[], [], .fail failure⟩

theorem Source.fill_failing (failure : Failure) :
    (Source.failing failure).fill.1 = .error failure := by
  show (Window.readInto Window.empty ⟨[], [], .fail failure⟩).1 = _
  rw [Window.readInto]
  rfl

namespace Scan

open Lexer Ascii

variable {Value Result : Type}

/-- From the given state the scan makes no call to the source: it gives the same over every source,
and leaves each of them as it was. -/
def IsSilent (scan : Scan Value) (lexer : Lexer) : Prop :=
  ∃ (result : Except Failure Value) (after : Lexer), ∀ source : Source,
    scan.run { lexer with source } = (result, { after with source })

/-- A call would show over a source that fails. -/
theorem not_isSilent_of_failing {scan : Scan Value} {lexer : Lexer}
    (fails : ∀ failure : Failure,
      (scan.run { lexer with source := .failing failure }).1 = .error failure) :
    ¬ scan.IsSilent lexer := by
  rintro ⟨result, after, same⟩
  have told (failure : Failure) : result = .error failure := by
    rw [← fails failure, same]
  have equal : (⟨"one"⟩ : Failure) = ⟨"another"⟩ :=
    Except.error.inj ((told ⟨"one"⟩).symm.trans (told ⟨"another"⟩))
  exact absurd equal (by decide)

/-- Whatever else the scan does, it first calls the source and is cut short if that fails. -/
def Asks (scan : Scan Value) : Prop :=
  ∀ (lexer : Lexer) (failure : Failure), lexer.source = .failing failure →
    (scan.run lexer).1 = .error failure

theorem run_bind_failed {first : Scan Value} {second : Value → Scan Result} {lexer : Lexer}
    {failure : Failure} (failed : (first.run lexer).1 = .error failure) :
    ((first >>= second).run lexer).1 = .error failure := by
  rw [run_bind]
  split
  · next found =>
    rw [found] at failed
    cases failed
  · next found =>
    rw [found] at failed
    exact congrArg Except.error (Except.error.inj failed)

theorem Asks.bind {first : Scan Value} (asks : first.Asks) (second : Value → Scan Result) :
    (first >>= second).Asks :=
  fun lexer failure failing => run_bind_failed (asks lexer failure failing)

theorem Asks.bind_look {view : Lexer → Value} {second : Value → Scan Result}
    (asks : ∀ value, (second value).Asks) : (look view >>= second).Asks :=
  fun lexer failure failing => asks (view lexer) lexer failure failing

/-- A change that leaves the source alone may come first. -/
theorem Asks.bind_change {update : Lexer → Lexer} {second : Unit → Scan Result}
    (keeps : ∀ lexer : Lexer, (update lexer).source = lexer.source) (asks : (second ()).Asks) :
    (change update >>= second).Asks :=
  fun lexer failure failing => asks (update lexer) failure ((keeps lexer).trans failing)

theorem Asks.fill : Scan.fill.Asks := fun lexer failure failing => by
  show lexer.source.fill.1 = _
  rw [failing, Source.fill_failing]

theorem Asks.peek : Scan.peek.Asks := Asks.fill.bind _

theorem Asks.passSpace : Scan.passSpace.Asks := by
  intro lexer failure failing
  have filling := Asks.fill lexer failure failing
  show (Lexer.passSpace lexer).1 = _
  rw [Lexer.passSpace]
  split
  · next found =>
    rw [found] at filling
    exact congrArg Except.error (Except.error.inj filling)
  · next found =>
    rw [found] at filling
    cases filling

theorem Asks.quotedToken (closing : UInt8) (inner close : TokenKind) :
    (quotedToken closing inner close).Asks :=
  .bind_change (fun _ => rfl) (Asks.peek.bind _)

theorem Asks.spacedToken (token : UInt8 → Scan TokenKind) : (spacedToken token).Asks :=
  Asks.passSpace.bind _

theorem Asks.headerToken : headerToken.Asks := by
  refine .bind_look fun kind => ?_
  split
  · exact .quotedToken _ _ _
  · exact Asks.peek.bind _
  · exact .spacedToken _

theorem Asks.movetextToken : movetextToken.Asks := by
  refine .bind_look fun kind => ?_
  split
  · exact .quotedToken _ _ _
  · exact .spacedToken _

theorem Asks.findScope : findScope.Asks :=
  .bind_change (fun _ => rfl) (Asks.passSpace.bind _)

/-- At the beginning of the input the source is asked for a mark, and elsewhere by what follows. -/
theorem Asks.passByteOrderMark {second : Unit → Scan Result} (asks : (second ()).Asks) :
    (Scan.passByteOrderMark >>= second).Asks := by
  intro lexer failure failing
  by_cases start : lexer.place.offset = 0
  · have marking : (Scan.passByteOrderMark.run lexer).1 = .error failure := by
      unfold Scan.passByteOrderMark
      rw [run_bind, run_look]
      dsimp only
      rw [if_pos start]
      exact Asks.fill.bind _ lexer failure failing
    exact run_bind_failed marking
  · have unmarked : Scan.passByteOrderMark.run lexer = (.ok (), lexer) := by
      unfold Scan.passByteOrderMark
      rw [run_bind, run_look]
      dsimp only
      rw [if_neg start, run_pure]
    rw [run_bind, unmarked]
    exact asks lexer failure failing

/-- Within a scope the source is called. -/
theorem scopedToken_failing {lexer : Lexer} {failure : Failure} (inside : lexer.scope ≠ .outside)
    (failing : lexer.source = .failing failure) : (scopedToken.run lexer).1 = .error failure := by
  unfold Scan.scopedToken
  rw [run_bind, run_look]
  dsimp only
  split
  · next outside => exact absurd outside inside
  · exact Asks.headerToken lexer failure failing
  · exact Asks.movetextToken.bind _ lexer failure failing
  · exact Asks.movetextToken.bind _ lexer failure failing

/-- Unless the lexer is exhausted, the source is called. -/
theorem nextToken_failing {lexer : Lexer} {failure : Failure} (more : lexer.isExhausted = false)
    (failing : lexer.source = .failing failure) : (nextToken.run lexer).1 = .error failure := by
  unfold Scan.nextToken
  rw [run_bind, run_look]
  dsimp only
  split
  · exact Asks.passByteOrderMark (Asks.findScope.bind _) lexer failure failing
  · next settled =>
    refine scopedToken_failing (fun outside => ?_) failing
    unfold Lexer.isExhausted at more
    rw [outside, Bool.eq_false_iff.mpr settled] at more
    cases more

theorem advance_failing {lexer : Lexer} {failure : Failure} (more : lexer.isExhausted = false)
    (failing : lexer.source = .failing failure) : (advance.run lexer).1 = .error failure := by
  have emptied : ({ lexer with captured := [] } : Lexer).isExhausted = false := more
  have token : (nextToken.run { lexer with captured := [] }).1 = .error failure :=
    nextToken_failing emptied failing
  unfold Scan.advance
  rw [run_bind, run_change]
  exact run_bind_failed token

end Scan

/-! ### The end -/

namespace Lexer

variable {lexer after : Lexer}

/-- A search for the next token makes no call to the source exactly if the lexer is exhausted. -/
theorem isSilent_advance_iff : Scan.advance.IsSilent lexer ↔ lexer.isExhausted = true := by
  refine ⟨fun silent => ?_, fun exhausted => ?_⟩
  · by_contra more
    exact Scan.not_isSilent_of_failing (fun failure => Scan.advance_failing
      (Bool.eq_false_iff.mpr more) rfl) silent
  · refine ⟨.ok (), lexer.spent, fun source => ?_⟩
    have same : ({ lexer with source } : Lexer).isExhausted = true := exhausted
    exact advance_eq_spent same

/-- How a lexer comes to its end. -/
inductive RunsOut (lexer : Lexer) : Lexer → Prop where
  /-- Nothing is left of the input. -/
  | input {after : Lexer} (nothing : lexer.source.content = [])
      (success : Scan.advance.run lexer = (.ok (), after)) : RunsOut lexer after
  /-- Where the scope is looked for, there is none. -/
  | scope {marked settled after : Lexer} (unsettled : lexer.unsettled = true)
      (marking : Scan.passByteOrderMark.run { lexer with captured := [] } = (.ok (), marked))
      (searching : Scan.findScope.run marked = (.ok (), settled))
      (outside : settled.scope = .outside)
      (success : Scan.advance.run lexer = (.ok (), after)) : RunsOut lexer after
  /-- The source is released. -/
  | closed : RunsOut lexer lexer.close

theorem RunsOut.isLast (out : lexer.RunsOut after) : after.IsLast after.kind := by
  cases out with
  | input nothing success =>
    refine (isLast_or_offset_lt success).resolve_right fun onward => ?_
    have balance := (consumes_of_advance success).content_lt onward.2
    rw [nothing] at balance
    exact absurd balance (Nat.not_lt_zero _)
  | @scope marked settled _ unsettled marking searching outside success =>
    refine (isLast_or_offset_lt success).resolve_right fun onward => ?_
    obtain ⟨kind, told, found, rfl⟩ := nextToken_of_advance success
    have flag : ({ lexer with captured := [] } : Lexer).unsettled = true := unsettled
    obtain ⟨marked', settled', marking', searching', telling⟩ := findScope_of_nextToken flag found
    rw [marking] at marking'
    cases marking'
    rw [searching] at searching'
    cases searching'
    rw [scopedToken_of_outside outside] at telling
    cases telling
    exact absurd onward.1 (by nofun)
  | closed => exact ⟨rfl, rfl, rfl⟩

/-! ### Requests behind the end -/

/-- The lexer once requests were made one after the other, whether they succeeded or failed. -/
def following (requests : List Request) (lexer : Lexer) : Lexer :=
  requests.foldl (fun lexer request => (lexer.answer request).2) lexer

/-- The lexer is exhausted where the exhausted one was. -/
structure Idles (before after : Lexer) : Prop where
  exhausted : after.isExhausted = true
  place : after.place = before.place

theorem idles_answer (exhausted : lexer.isExhausted = true) (request : Request) :
    lexer.Idles (lexer.answer request).2 ∧
      (request ≠ .close → (lexer.answer request).2.source = lexer.source) := by
  cases request with
  | advance =>
    rw [answer, advance_eq_spent exhausted]
    exact ⟨⟨exhausted, rfl⟩, fun _ => rfl⟩
  | skipUntil kind =>
    rw [answer, skipUntil_of_stopped (.inr exhausted)]
    exact ⟨⟨exhausted, rfl⟩, fun _ => rfl⟩
  | close => exact ⟨⟨rfl, rfl⟩, fun other => absurd rfl other⟩

/-- Whatever is asked of an exhausted lexer, it stays where it is, and only a release touches its
source. -/
theorem idles_following (exhausted : lexer.isExhausted = true) (requests : List Request) :
    lexer.Idles (lexer.following requests) ∧
      (.close ∉ requests → (lexer.following requests).source = lexer.source) := by
  induction requests generalizing lexer with
  | nil => exact ⟨⟨exhausted, rfl⟩, fun _ => rfl⟩
  | cons request rest inductionHypothesis =>
    obtain ⟨idles, kept⟩ := idles_answer exhausted request
    obtain ⟨later, laterKept⟩ := inductionHypothesis idles.exhausted
    refine ⟨⟨later.exhausted, later.place.trans idles.place⟩, fun unclosed => ?_⟩
    obtain ⟨other, others⟩ := List.ne_and_not_mem_of_not_mem_cons unclosed
    exact (laterKept others).trans (kept (Ne.symm other))

/-! ### Few tokens -/

/-- Discarding tokens until one is of the given kind, one step after the other: it asks for the
given number of tokens and comes to the given result. -/
inductive Skipping (kind : TokenKind) : Nat → Lexer → Except Failure Unit × Lexer → Prop where
  | over {lexer : Lexer} (stops : lexer.kind = kind ∨ lexer.isExhausted = true) :
      Skipping kind 0 lexer (.ok (), lexer)
  | failed {lexer after : Lexer} {failure : Failure}
      (onward : ¬ (lexer.kind = kind ∨ lexer.isExhausted = true))
      (failed : Scan.advance.run lexer = (.error failure, after)) :
      Skipping kind 1 lexer (.error failure, after)
  | next {lexer after : Lexer} {count : Nat} {result : Except Failure Unit × Lexer}
      (onward : ¬ (lexer.kind = kind ∨ lexer.isExhausted = true))
      (success : Scan.advance.run lexer = (.ok (), after))
      (later : Skipping kind count after result) : Skipping kind (count + 1) lexer result

/-- Discarding tokens asks for at most one token more than there are bytes. -/
theorem skipUntil_stops (kind : TokenKind) (lexer : Lexer) :
    ∃ count ≤ lexer.source.content.length + 1,
      Skipping kind count lexer (lexer.skipUntil kind) := by
  fun_induction skipUntil kind lexer with
  | case1 lexer stops => exact ⟨0, Nat.zero_le _, .over stops⟩
  | case2 lexer onward failure after cut =>
    exact ⟨1, Nat.le_add_left 1 _, .failed onward cut⟩
  | case3 lexer onward after success last =>
    exact ⟨1, Nat.le_add_left 1 _, .next onward success (.over (.inr last))⟩
  | case4 lexer onward after success more inductionHypothesis =>
    obtain ⟨count, few, later⟩ := inductionHypothesis
    have shorter := content_lt_of_advance success (Bool.eq_false_iff.mpr more)
    exact ⟨count + 1, by omega, .next onward success later⟩

/-- The tokens that a request comes to, the last one left out. -/
def tokensFor (request : Request) (lexer : Lexer) : List Token :=
  ((lexer.steps request).filter (!·.2.isExhausted)).map (·.2.token)

/-- The tokens that requests come to one after the other. Behind one that fails the others go on. -/
def yields : List Request → Lexer → List Token
  | [], _ => []
  | request :: rest, lexer => lexer.tokensFor request ++ yields rest (lexer.answer request).2

/-- A step to a token that is not the last has taken something of what was left. -/
theorem length_filter_cons_le {rest : List (Lexer × Lexer)} {left : Nat}
    (success : Scan.advance.run lexer = (.ok (), after))
    (others : (rest.filter (!·.2.isExhausted)).length + left ≤ after.source.content.length) :
    (((lexer, after) :: rest).filter (!·.2.isExhausted)).length + left ≤
      lexer.source.content.length := by
  cases ended : after.isExhausted with
  | true =>
    rw [List.filter_cons_of_neg (by rw [ended]; nofun)]
    exact others.trans (consumes_of_advance success).content_le
  | false =>
    have shorter := content_lt_of_advance success ended
    rw [List.filter_cons_of_pos (by rw [ended]; rfl), List.length_cons]
    omega

theorem length_skips_le (kind : TokenKind) (lexer : Lexer) :
    ((lexer.skips kind).filter (!·.2.isExhausted)).length +
      (lexer.skipUntil kind).2.source.content.length ≤ lexer.source.content.length := by
  fun_induction skips kind lexer with
  | case1 lexer stopped =>
    rw [skipUntil_of_stopped stopped]
    exact Nat.le_of_eq (Nat.zero_add _)
  | case2 lexer onward failure after failed =>
    exact (Nat.zero_add _).trans_le (content_skipUntil_le kind lexer)
  | case3 lexer onward after success inductionHypothesis =>
    rw [skipUntil_of_advance onward success]
    refine length_filter_cons_le success ?_
    split
    · next last =>
      rw [skipUntil_of_stopped (.inr last)]
      exact Nat.le_of_eq (Nat.zero_add _)
    · next more => exact inductionHypothesis more

theorem length_tokensFor_le (request : Request) (lexer : Lexer) :
    (lexer.tokensFor request).length + (lexer.answer request).2.source.content.length ≤
      lexer.source.content.length := by
  rw [tokensFor, List.length_map]
  cases request with
  | advance =>
    rw [steps, answer]
    cases asked : Scan.advance.run lexer with
    | mk result after =>
      cases result with
      | error failure => exact (Nat.zero_add _).trans_le (consumes_of_advance asked).content_le
      | ok _ => exact length_filter_cons_le asked (Nat.le_of_eq (Nat.zero_add _))
  | skipUntil kind => exact length_skips_le kind lexer
  | close =>
    show _ + lexer.source.close.content.length ≤ _
    rw [Source.content_close]
    exact Nat.zero_le _

/-- However tokens are asked for, no more of them come than there are bytes. -/
theorem length_yields_le (requests : List Request) (lexer : Lexer) :
    (lexer.yields requests).length ≤ lexer.source.content.length := by
  induction requests generalizing lexer with
  | nil => exact Nat.zero_le _
  | cons request rest inductionHypothesis =>
    have first := length_tokensFor_le request lexer
    have others := inductionHypothesis (lexer.answer request).2
    rw [yields, List.length_append]
    omega

/-- The tokens of a lexer run out. Whatever its state and its source, a token that comes is the last
one, which is undefined, covers nothing and leaves the lexer exhausted, or it takes at least one
byte and the lexer is not exhausted. The last one comes at the end of the input, where no scope is
found, and with a release. An exhausted lexer, and no other, comes to its next token without a call
to the source. It stays exhausted and where it is whatever is asked of it; every further token is
the last one, and the source is left alone unless it is released. So discarding tokens stops after
at most one token more than there are bytes, and however tokens are asked for, no more of them come
before the last one than there are bytes. -/
theorem tokens_run_out :
    (∀ lexer after : Lexer, Scan.advance.run lexer = (.ok (), after) →
      after.IsLast after.kind ∨
        after.isExhausted = false ∧ lexer.place.offset < after.place.offset) ∧
    (∀ lexer after : Lexer, lexer.RunsOut after → after.IsLast after.kind) ∧
    (∀ lexer : Lexer, Scan.advance.IsSilent lexer ↔ lexer.isExhausted = true) ∧
    (∀ lexer : Lexer, lexer.isExhausted = true → ∀ requests : List Request,
      let later := lexer.following requests
      later.isExhausted = true ∧ later.place = lexer.place ∧
      (.close ∉ requests → later.source = lexer.source) ∧
      ∃ last, Scan.advance.run later = (.ok (), last) ∧ last.IsLast last.kind ∧
        last.place = lexer.place ∧ last.source = later.source) ∧
    (∀ (kind : TokenKind) (lexer : Lexer), ∃ count ≤ lexer.source.content.length + 1,
      Skipping kind count lexer (lexer.skipUntil kind)) ∧
    ∀ (source : Source) (requests : List Request),
      ((ofSource source).yields requests).length ≤ source.content.length := by
  refine ⟨fun lexer after success => isLast_or_offset_lt success,
    fun lexer after out => out.isLast, fun lexer => isSilent_advance_iff, ?_, skipUntil_stops,
    fun source requests => length_yields_le requests (ofSource source)⟩
  intro lexer exhausted requests later
  obtain ⟨idles, kept⟩ := idles_following exhausted requests
  exact ⟨idles.exhausted, idles.place, kept, later.spent, advance_eq_spent idles.exhausted,
    ⟨rfl, rfl, idles.exhausted⟩, idles.place, rfl⟩

/-- The device claims the end twice before it delivers a game. -/
def premature : Lexer :=
  .ofSource (.ofDevice ⟨Bytes.ofString "1. e4 *", [.deliver 0, .deliver 0], .deliverAll⟩)

/-- Where the end was claimed, the game that would be delivered is not asked for any more. In memory
its first token takes a byte. -/
theorem tokens_run_out_premature :
    let last := (Scan.advance.run premature).2
    let requests : List Request := [.advance, .skipUntil .moveNumber, .advance]
    let first := (Scan.advance.run premature.inMemory).2
    (premature.isExhausted = false ∧ Scan.advance.run premature = (.ok (), last) ∧
      (last.IsLast last.kind ∨
        last.isExhausted = false ∧ premature.place.offset < last.place.offset)) ∧
    (Scan.advance.run premature.inMemory = (.ok (), first) ∧ first.kind = .moveNumber ∧
      (first.IsLast first.kind ∨
        first.isExhausted = false ∧ premature.inMemory.place.offset < first.place.offset)) ∧
    (premature.RunsOut premature.close ∧ premature.close.IsLast premature.close.kind) ∧
    last.isExhausted = true ∧ Request.close ∉ requests ∧
    (last.following requests).source = last.source ∧
    last.source.content = Bytes.ofString "1. e4 *" ∧
    ∃ more, Scan.advance.run (last.following requests) = (.ok (), more) ∧
      more.IsLast more.kind ∧ more.place = last.place ∧
      more.source = (last.following requests).source := by
  intro last requests first
  obtain ⟨takes, runsOut, _, stays, _⟩ := tokens_run_out
  have success : Scan.advance.run premature = (.ok (), last) :=
    advance_eq_of_isOk (by decide +kernel)
  have told : Scan.advance.run premature.inMemory = (.ok (), first) :=
    advance_eq_of_isOk (by decide +kernel)
  have exhausted : last.isExhausted = true := by decide +kernel
  have unclosed : Request.close ∉ requests := by decide
  obtain ⟨_, _, kept, further⟩ := stays last exhausted requests
  exact ⟨⟨by decide +kernel, success, takes premature last success⟩,
    ⟨told, by decide +kernel, takes premature.inMemory first told⟩,
    ⟨.closed, runsOut premature premature.close .closed⟩, exhausted, unclosed, kept unclosed,
    by decide +kernel, further⟩

end Lexer

end Scoresheet
