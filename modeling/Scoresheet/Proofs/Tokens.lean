/-
This file says what a token is known to be from its kind. A termination marker is one of the four,
it is what was read last of the input, and the lexer is in the scope behind a marker then; a move
number is a run of digits. The facts hold over every source, and each scan of the lexer is taken
through them once.
-/

import Scoresheet.Lexer.Progress

namespace Scoresheet

namespace Lexer

variable {lexer after : Lexer}

/-- The current token is a termination marker that was read last of the given text. -/
structure IsAtMarker (text : Bytes) (lexer : Lexer) : Prop where
  scope : lexer.scope = .termination
  unsettled : lexer.unsettled = true
  taken : ∃ outcome : Outcome, outcome.marker = lexer.span ∧
    ∃ passed, text = passed ++ outcome.marker ++ lexer.source.content

/-- What is known of the current token if it is of the given kind and was read from the given text.
-/
def Fits (text : Bytes) (lexer : Lexer) : TokenKind → Prop
  | .termination => lexer.IsAtMarker text
  | .moveNumber => lexer.span ≠ [] ∧ lexer.span.all Ascii.isDigit = true
  | _ => True

/-- No byte of the next token was kept yet, and the end of the given text is still to come. -/
structure IsFresh (text : Bytes) (lexer : Lexer) : Prop where
  captured : lexer.captured = []
  rest : ∃ passed, text = passed ++ lexer.source.content

theorem IsFresh.span {text : Bytes} (fresh : lexer.IsFresh text) : lexer.span = [] :=
  List.reverse_eq_nil_iff.mpr fresh.captured

/-- Passing bytes that are not kept. -/
theorem IsFresh.reads {text : Bytes} (fresh : lexer.IsFresh text)
    (captured : after.captured = lexer.captured) (consumes : lexer.Consumes after) :
    after.IsFresh text := by
  obtain ⟨passed, whole⟩ := fresh.rest
  obtain ⟨eaten, content, _⟩ := consumes
  exact ⟨captured.trans fresh.captured, passed ++ eaten, by
    rw [whole, content, List.append_assoc]⟩

/-! ### The loops -/

/-- The states are the same but for the source and the place in it. -/
def Skims (before after : Lexer) : Prop :=
  { after with source := before.source, place := before.place } = before

theorem Skims.trans {first second third : Lexer} (left : first.Skims second)
    (right : second.Skims third) : first.Skims third := by
  unfold Skims
  rw [← right] at left
  exact left

theorem Skims.captured {before after : Lexer} (skims : before.Skims after) :
    after.captured = before.captured := by
  rw [← skims]

theorem Skims.kind {before after : Lexer} (skims : before.Skims after) :
    after.kind = before.kind := by
  rw [← skims]

/-- Passing bytes without keeping them changes nothing but the source and the place. -/
theorem skims_passUntil (stop : UInt8 → Bool) (lexer : Lexer) :
    lexer.Skims (runUntil false stop lexer).2 := by
  fun_induction runUntil false stop lexer with
  | case1 => rfl
  | case2 => rfl
  | case3 lexer answer filled _ next _ _ inductionHypothesis =>
    have taken : lexer.Skims next := rfl
    exact taken.trans inductionHypothesis
  | case4 => rfl

theorem skims_passLine (lexer : Lexer) : lexer.Skims (Scan.passLine.run lexer).2 := by
  have run := skims_passUntil (· == Ascii.lineFeed) lexer
  unfold Scan.passLine
  rw [Scan.run_bind]
  split
  · next equation =>
    rw [show runUntil false (· == Ascii.lineFeed) lexer = _ from equation] at run
    exact run
  · next equation =>
    rw [show runUntil false (· == Ascii.lineFeed) lexer = _ from equation] at run
    exact run

theorem skims_passSpace (lexer : Lexer) : lexer.Skims (passSpace lexer).2 := by
  fun_induction passSpace lexer with
  | case1 => rfl
  | case2 => rfl
  | case3 lexer answer filled _ byte rest inSight blank inductionHypothesis =>
    have taken : lexer.Skims (filled.pass (filled.source.buffer.takeWhile Ascii.isSpace).length) :=
      rfl
    exact taken.trans inductionHypothesis
  | case4 lexer answer filled _ byte rest inSight blank escaped failure after line =>
    have start : lexer.Skims filled := rfl
    have run := skims_passLine filled
    rw [line] at run
    exact start.trans run
  | case5 lexer answer filled _ byte rest inSight blank escaped after line inductionHypothesis =>
    have start : lexer.Skims filled := rfl
    have run := skims_passLine filled
    rw [line] at run
    exact start.trans (run.trans inductionHypothesis)
  | case6 => rfl

theorem span_capture (count : Nat) (lexer : Lexer) :
    (lexer.capture count).span = lexer.span ++ lexer.source.buffer.take count := by
  show ((lexer.source.buffer.take count).reverse ++ lexer.captured).reverse = _
  rw [List.reverse_append, List.reverse_reverse]
  rfl

/-- The part of the buffer in front of the first byte that stops a run. -/
theorem span_capture_takeWhile (onward : UInt8 → Bool) (lexer : Lexer) :
    (lexer.capture (lexer.source.buffer.takeWhile onward).length).span =
      lexer.span ++ lexer.source.buffer.takeWhile onward := by
  rw [span_capture, Bytes.take_length_takeWhile]

/-- A run adds bytes to the token none of which stops it. -/
theorem span_captureUntil (stop : UInt8 → Bool) (lexer : Lexer) :
    ∃ run, (runUntil true stop lexer).2.span = lexer.span ++ run ∧
      run.all (!stop ·) = true := by
  fun_induction runUntil true stop lexer with
  | case1 lexer => exact ⟨[], (List.append_nil _).symm, rfl⟩
  | case2 lexer => exact ⟨[], (List.append_nil _).symm, rfl⟩
  | case3 lexer answer filled _ next _ _ inductionHypothesis =>
    obtain ⟨run, added, onward⟩ := inductionHypothesis
    refine ⟨filled.source.buffer.takeWhile (!stop ·) ++ run, ?_, ?_⟩
    · rw [added, ← List.append_assoc]
      exact congrArg (· ++ run) (span_capture_takeWhile _ filled)
    · rw [List.all_append, List.all_takeWhile, onward]
      rfl
  | case4 lexer answer filled _ next _ _ =>
    exact ⟨_, span_capture_takeWhile _ filled, List.all_takeWhile⟩

/-- A run that goes over the byte in sight adds something to the token. -/
theorem span_captureUntil_ne_nil {stop : UInt8 → Bool} {byte : UInt8}
    (head : lexer.source.buffer.head? = some byte) (onward : stop byte = false)
    (success : runUntil true stop lexer = (.ok (), after)) : after.span ≠ [] := by
  obtain ⟨rest, inSight⟩ := List.head?_eq_some_iff.mp (head_fill head)
  have begins : (Scan.fill.run lexer).2.source.buffer.takeWhile (!stop ·) ≠ [] := by
    rw [inSight, List.takeWhile_cons, if_pos (by rw [onward]; rfl)]
    exact List.cons_ne_nil _ _
  have taken := span_capture_takeWhile (!stop ·) (Scan.fill.run lexer).2
  rw [runUntil] at success
  dsimp only at success
  split at success
  · cases success
  · split at success
    · next empty =>
      rw [empty] at inSight
      cases inSight
    · split at success
      · obtain ⟨run, added, _⟩ := span_captureUntil stop ((Scan.fill.run lexer).2.capture
          ((Scan.fill.run lexer).2.source.buffer.takeWhile (!stop ·)).length)
        have last : after.span = _ := success ▸ added
        rw [last, taken]
        simp [begins]
      · rw [← (Prod.mk.inj success).2]
        show (Lexer.capture _ _).span ≠ []
        rw [taken]
        simp [begins]

end Lexer

/-! ### Every scan -/

namespace Scan

open Lexer Ascii

variable {Value Result : Type}

/-- From states with the first property the scan leads to values and states with the second one, if
it succeeds. -/
def Leads (before : Lexer → Prop) (scan : Scan Value) (after : Value → Lexer → Prop) : Prop :=
  ∀ (lexer later : Lexer) (value : Value), before lexer → scan.run lexer = (.ok value, later) →
    after value later

section Leads

variable {before : Lexer → Prop} {after : Value → Lexer → Prop} {last : Result → Lexer → Prop}

theorem Leads.bind {first : Scan Value} {second : Value → Scan Result}
    (left : first.Leads before after) (right : ∀ value, (second value).Leads (after value) last) :
    (first >>= second).Leads before last := by
  intro lexer later result holds success
  obtain ⟨value, middle, early, late⟩ := run_bind_ok success
  exact right value middle later result (left lexer middle value holds early) late

theorem Leads.pure {value : Value} (holds : ∀ lexer, before lexer → after value lexer) :
    (Pure.pure value : Scan Value).Leads before after := by
  intro lexer later result start success
  cases success
  exact holds lexer start

theorem Leads.look {view : Lexer → Value}
    (holds : ∀ lexer, before lexer → after (view lexer) lexer) :
    (look view).Leads before after := by
  intro lexer later result start success
  cases success
  exact holds lexer start

theorem Leads.change {update : Lexer → Lexer} {after : Unit → Lexer → Prop}
    (holds : ∀ lexer, before lexer → after () (update lexer)) :
    (Scan.change update).Leads before after := by
  intro lexer later result start success
  cases success
  exact holds lexer start

/-- A look at the state changes nothing. -/
theorem Leads.bind_look {view : Lexer → Value} {second : Value → Scan Result}
    (right : ∀ value, (second value).Leads before last) :
    (Scan.look view >>= second).Leads before last := by
  intro lexer later result holds success
  rw [run_bind, run_look] at success
  exact right (view lexer) lexer later result holds success

theorem Leads.any (scan : Scan Value) : scan.Leads before fun _ _ => True :=
  fun _ _ _ _ _ => trivial

/-- What does not depend on the source is kept while the buffer is filled. -/
theorem Leads.fill (any : ∀ lexer source, before lexer → before { lexer with source }) :
    Scan.fill.Leads before fun _ => before := by
  intro lexer later value holds success
  rw [← (Prod.mk.inj success).2]
  exact any lexer _ holds

theorem Leads.peek (any : ∀ lexer source, before lexer → before { lexer with source }) :
    Scan.peek.Leads before fun _ => before :=
  (Leads.fill any).bind fun _ => .look fun _ holds => holds

end Leads

/-- Passing bytes that are not kept. -/
theorem Leads.fresh {scan : Scan Value} {text : Bytes} (consuming : scan.Consuming)
    (kept : ∀ lexer, (scan.run lexer).2.captured = lexer.captured) :
    scan.Leads (IsFresh text) fun _ => IsFresh text := by
  intro lexer later value fresh success
  have captured := kept lexer
  have consumes := consuming lexer
  rw [success] at captured consumes
  exact fresh.reads captured consumes

/-! ### Tokens told by their kinds -/

/-- The scan tells tokens whose kinds have the given property. -/
def Gives (fits : TokenKind → Prop) (scan : Scan TokenKind) : Prop :=
  scan.Leads (fun _ => True) fun kind _ => fits kind

section Gives

variable {fits : TokenKind → Prop}

theorem Gives.pure {kind : TokenKind} (fit : fits kind) :
    (Pure.pure kind : Scan TokenKind).Gives fits :=
  Leads.pure fun _ _ => fit

theorem Gives.bind {first : Scan Value} {second : Value → Scan TokenKind}
    (right : ∀ value, (second value).Gives fits) : (first >>= second).Gives fits :=
  Leads.bind (.any first) right

theorem Gives.finish (none : fits .undefined) : finish.Gives fits := .bind fun _ => .pure none

theorem Gives.delimiter {kind : TokenKind} (fit : fits kind) : (delimiter kind).Gives fits :=
  .bind fun _ => .pure fit

theorem Gives.quotedToken {closing : UInt8} {text close : TokenKind} (none : fits .undefined)
    (fitText : fits text) (fitClose : fits close) :
    (quotedToken closing text close).Gives fits := by
  refine .bind fun _ => .bind fun next => ?_
  split
  · exact .finish none
  · split
    · exact .delimiter fitClose
    · exact .bind fun _ => .pure fitText

theorem Gives.spacedToken {token : UInt8 → Scan TokenKind} (none : fits .undefined)
    (each : ∀ byte, (token byte).Gives fits) : (spacedToken token).Gives fits := by
  refine .bind fun next => ?_
  split
  · exact .finish none
  · exact .bind fun _ => each _

theorem Gives.moveKind (none : fits .undefined) (white : fits .whiteMove)
    (black : fits .blackMove) : moveKind.Gives fits := by
  refine Leads.look fun lexer _ => ?_
  cases lexer.kind <;> assumption

theorem Gives.moveToken (none : fits .undefined) (white : fits .whiteMove) (black : fits .blackMove)
    (glyph : fits .nag) : moveToken.Gives fits := by
  refine .bind fun _ => .bind fun standalone => ?_
  split
  · exact .pure glyph
  · exact .moveKind none white black

end Gives

/-- The scan tells tokens that are neither termination markers nor move numbers. -/
abbrev IsPlain (scan : Scan TokenKind) : Prop :=
  scan.Gives fun kind => kind ≠ .termination ∧ kind ≠ .moveNumber

theorem IsPlain.finish : finish.IsPlain := Gives.finish (by decide)

theorem IsPlain.headerTokenAt (byte : UInt8) : (headerTokenAt byte).IsPlain := by
  refine .bind fun previous => ?_
  split
  · exact .delimiter (by decide)
  · split
    · exact .bind fun _ => .bind fun _ => .pure (by decide)
    · split
      · refine .delimiter ?_
        split <;> decide
      · refine .bind fun _ => .pure ?_
        split <;> decide

theorem IsPlain.headerToken : headerToken.IsPlain := by
  have spaced : (Scan.spacedToken Scan.headerTokenAt).IsPlain :=
    .spacedToken (by decide) IsPlain.headerTokenAt
  refine .bind fun kind => ?_
  split
  · exact .quotedToken (by decide) (by decide) (by decide)
  · refine .bind fun next => ?_
    split
    · split
      · exact .bind fun _ => .bind fun _ => .pure (by decide)
      · exact spaced
    · exact spaced
  · exact spaced

theorem IsPlain.moveKind : moveKind.IsPlain :=
  Gives.moveKind (by decide) (by decide) (by decide)

theorem IsPlain.moveToken : moveToken.IsPlain :=
  Gives.moveToken (by decide) (by decide) (by decide) (by decide)

theorem isPlain_delimiterKind? {byte : UInt8} {kind : TokenKind}
    (found : delimiterKind? byte = some kind) : kind ≠ .termination ∧ kind ≠ .moveNumber := by
  unfold delimiterKind? at found
  repeat' split at found
  all_goals
    cases found
    try decide

/-! ### Tokens that are what their kinds say -/

/-- The scan tells tokens of kinds they fit. -/
def Tells (text : Bytes) (scan : Scan TokenKind) (before : Lexer → Prop) : Prop :=
  scan.Leads before fun kind later => later.Fits text kind

variable {text : Bytes} {before : Lexer → Prop}

theorem IsPlain.tells {scan : Scan TokenKind} (plain : scan.IsPlain) : scan.Tells text before := by
  intro lexer later kind _ success
  obtain ⟨noMarker, noNumber⟩ := plain lexer later kind trivial success
  cases kind with
  | termination => exact absurd rfl noMarker
  | moveNumber => exact absurd rfl noNumber
  | _ => trivial

/-- White space is not kept, and the byte behind it is in sight. -/
theorem Leads.passSpace : Scan.passSpace.Leads (IsFresh text) fun next lexer =>
    lexer.IsFresh text ∧ ∀ byte, next = some byte → Facing byte lexer := by
  intro lexer later next fresh success
  refine ⟨Leads.fresh .passSpace (fun lexer => (skims_passSpace lexer).captured) lexer later next
    fresh success, fun byte found => ?_⟩
  rw [found] at success
  exact passSpace_head success

theorem Tells.spacedToken {token : UInt8 → Scan TokenKind}
    (each : ∀ byte, (token byte).Tells text fun lexer => lexer.IsFresh text ∧ Facing byte lexer) :
    (spacedToken token).Tells text (IsFresh text) := by
  refine Leads.bind Leads.passSpace fun next => ?_
  split
  · exact IsPlain.finish.tells
  · next byte =>
    refine Leads.bind (.change fun lexer holds => ?_) fun _ => each byte
    exact ⟨holds.1.reads rfl (.of_eq rfl rfl rfl), holds.2 byte rfl⟩

/-- A run of digits is a move number where it is told to be one. -/
theorem Tells.numberToken {byte : UInt8} (digit : isDigit byte = true) :
    numberToken.Tells text fun lexer => lexer.IsFresh text ∧ Facing byte lexer := by
  have run : (Scan.captureUntil (!isDigit ·)).Leads
      (fun lexer => lexer.IsFresh text ∧ Facing byte lexer)
      fun _ lexer => lexer.Fits text .moveNumber := by
    intro lexer later value holds success
    have found : runUntil true (!isDigit ·) lexer = (.ok value, later) := success
    obtain ⟨digits, added, all⟩ := span_captureUntil (!isDigit ·) lexer
    rw [found, holds.1.span, List.nil_append] at added
    refine ⟨span_captureUntil_ne_nil holds.2 (by rw [digit]; rfl) found, ?_⟩
    rw [added]
    simpa using all
  refine run.bind fun _ => (Leads.peek fun _ _ fits => fits).bind fun next => ?_
  unfold Scan.behindDigits
  split
  · split
    · exact IsPlain.tells (.bind fun _ => IsPlain.moveKind)
    · exact .pure fun _ fits => fits
  · exact .pure fun _ fits => fits

/-- Behind a marker that was captured the lexer is in the scope behind it. -/
theorem Tells.marker (outcome : Outcome) {count : Nat} {shown : Lexer → Prop}
    (marked : ∀ lexer, shown lexer → lexer.source.buffer.take count = outcome.marker) :
    (do
      Scan.capture count
      Scan.terminate : Scan TokenKind).Tells text
        fun lexer => lexer.IsFresh text ∧ shown lexer := by
  have captured : (Scan.capture count).Leads (fun lexer => lexer.IsFresh text ∧ shown lexer)
      fun _ lexer => outcome.marker = lexer.span ∧
        ∃ passed, text = passed ++ outcome.marker ++ lexer.source.content := by
    refine .change fun lexer holds => ?_
    obtain ⟨passed, whole⟩ := holds.1.rest
    have content := Source.content_advance count lexer.source
    rw [marked lexer holds.2] at content
    refine ⟨?_, passed, by rw [whole, content, List.append_assoc]; rfl⟩
    rw [span_capture, marked lexer holds.2, holds.1.span, List.nil_append]
  refine captured.bind fun _ => ?_
  have terminated : (Scan.change Lexer.terminate).Leads
      (fun lexer => outcome.marker = lexer.span ∧
        ∃ passed, text = passed ++ outcome.marker ++ lexer.source.content)
      fun _ lexer => lexer.Fits text .termination :=
    .change fun lexer taken => ⟨rfl, rfl, outcome, taken⟩
  exact terminated.bind fun _ => .pure fun _ fits => fits

theorem exists_of_mem_numericMarkers {marker : Bytes} (member : marker ∈ numericMarkers) :
    ∃ outcome : Outcome, outcome.marker = marker := by
  simp only [numericMarkers, List.mem_cons, List.not_mem_nil, or_false] at member
  rcases member with rfl | rfl | rfl
  · exact ⟨.draw, rfl⟩
  · exact ⟨.whiteWins, rfl⟩
  · exact ⟨.blackWins, rfl⟩

theorem Tells.digitToken {byte : UInt8} (digit : isDigit byte = true) :
    digitToken.Tells text fun lexer => lexer.IsFresh text ∧ Facing byte lexer := by
  have buffer : (Scan.look (·.source.buffer)).Leads
      (fun lexer => lexer.IsFresh text ∧ Facing byte lexer) fun buffer lexer =>
        (lexer.IsFresh text ∧ Facing byte lexer) ∧ lexer.source.buffer = buffer :=
    .look fun _ holds => ⟨holds, rfl⟩
  refine buffer.bind fun buffer => ?_
  split
  · next marker found =>
    obtain ⟨outcome, named⟩ := exists_of_mem_numericMarkers (List.mem_of_find?_eq_some found)
    have shows := List.find?_some found
    have begins : marker <+: buffer := List.isPrefixOf_iff_prefix.mp shows
    have marked : ∀ lexer : Lexer, lexer.source.buffer = buffer →
        lexer.source.buffer.take marker.length = outcome.marker := by
      intro lexer shown
      rw [shown, named]
      exact (List.prefix_iff_eq_take.mp begins).symm
    intro lexer later kind holds success
    exact Tells.marker outcome marked lexer later kind ⟨holds.1.1, holds.2⟩ success
  · intro lexer later kind holds success
    exact Tells.numberToken digit lexer later kind holds.1 success

theorem Tells.movetextTokenAt (byte : UInt8) :
    (movetextTokenAt byte).Tells text fun lexer => lexer.IsFresh text ∧ Facing byte lexer := by
  unfold Scan.movetextTokenAt
  split
  · next kind found => exact IsPlain.tells (.delimiter (isPlain_delimiterKind? found))
  · repeat' split
    · exact IsPlain.tells (.bind fun _ => .bind fun _ => .pure (by decide))
    · exact IsPlain.tells (.bind fun _ => .bind fun _ => .pure (by decide))
    · exact IsPlain.tells (.bind fun _ => .pure (by decide))
    · next star =>
      refine Tells.marker .unknown fun lexer facing => ?_
      obtain ⟨rest, shown⟩ := List.head?_eq_some_iff.mp facing
      rw [shown, star]
      rfl
    · refine IsPlain.tells (.bind fun _ => .bind fun _ => .pure ?_)
      split <;> decide
    · next digit => exact .digitToken digit
    · exact IsPlain.tells (.bind fun _ => .pure (by decide))
    · exact IsPlain.moveToken.tells

theorem Tells.movetextToken : movetextToken.Tells text (IsFresh text) := by
  refine .bind_look fun kind => ?_
  split
  · exact IsPlain.tells (.quotedToken (by decide) (by decide) (by decide))
  · exact Tells.spacedToken .movetextTokenAt

theorem fits_closeOpening {kind : TokenKind} {lexer : Lexer} (fits : lexer.Fits text kind) :
    (lexer.closeOpening kind).Fits text kind := by
  unfold Lexer.closeOpening
  split
  · cases kind with
    | termination => exact ⟨fits.scope, fits.unsettled, fits.taken⟩
    | moveNumber => exact fits
    | _ => trivial
  · exact fits

theorem Tells.scopedToken : scopedToken.Tells text (IsFresh text) := by
  have movetext : (do
      let kind ← Scan.movetextToken
      Scan.change (Lexer.closeOpening kind)
      return kind : Scan TokenKind).Tells text (IsFresh text) := by
    refine Leads.bind Tells.movetextToken fun kind => ?_
    have closed : (Scan.change (Lexer.closeOpening kind)).Leads (·.Fits text kind)
        fun _ lexer => lexer.Fits text kind :=
      .change fun _ fits => fits_closeOpening fits
    exact closed.bind fun _ => .pure fun _ fits => fits
  refine .bind_look fun scope => ?_
  split
  · exact IsPlain.finish.tells
  · exact IsPlain.headerToken.tells
  · exact movetext
  · exact movetext

/-- Finding the scope reads nothing for the token. -/
theorem Leads.findScope : Scan.findScope.Leads (IsFresh text) fun _ => IsFresh text := by
  have started : (Scan.change ({ · with unsettled := false })).Leads (IsFresh text)
      fun _ => IsFresh text := .fresh (.change fun _ => .of_eq rfl rfl rfl) fun _ => rfl
  have space : Scan.passSpace.Leads (IsFresh text) fun _ => IsFresh text :=
    fun lexer later next fresh success => (passSpace lexer later next fresh success).1
  refine started.bind fun _ => space.bind fun next =>
    .fresh (.change (Consumes.settle next)) fun lexer => ?_
  rw [run_change]
  unfold Lexer.settle
  repeat' split
  all_goals rfl

theorem Leads.passByteOrderMark :
    Scan.passByteOrderMark.Leads (IsFresh text) fun _ => IsFresh text := by
  have filled : Scan.fill.Leads (IsFresh text) fun _ => IsFresh text := .fresh .fill fun _ => rfl
  refine .bind_look fun offset => ?_
  split
  · refine filled.bind fun _ => .fresh (.change Consumes.passMark) fun lexer => ?_
    rw [run_change]
    unfold Lexer.passMark
    split <;> rfl
  · exact .pure fun _ fresh => fresh

theorem Tells.nextToken : nextToken.Tells text (IsFresh text) := by
  refine .bind_look fun unsettled => ?_
  split
  · exact Leads.passByteOrderMark.bind fun _ => Leads.findScope.bind fun _ => Tells.scopedToken
  · exact Tells.scopedToken

/-- Behind a termination marker the movetext is no longer open. -/
theorem Leads.scopedToken : Scan.scopedToken.Leads (fun _ => True)
    fun kind lexer => kind = .termination → lexer.opening = false := by
  have never {scan : Scan TokenKind} (plain : scan.IsPlain) : scan.Leads (fun _ => True)
      fun kind lexer => kind = .termination → lexer.opening = false :=
    fun lexer later kind _ success marker =>
      absurd marker (plain lexer later kind trivial success).1
  have movetext : (do
      let kind ← Scan.movetextToken
      Scan.change (Lexer.closeOpening kind)
      return kind : Scan TokenKind).Leads (fun _ => True)
        fun kind lexer => kind = .termination → lexer.opening = false := by
    refine Leads.bind (.any _) fun kind => ?_
    have closed : (Scan.change (Lexer.closeOpening kind)).Leads (fun _ => True)
        fun _ lexer => kind = .termination → lexer.opening = false := by
      refine .change fun lexer _ marker => ?_
      rw [marker]
      unfold Lexer.closeOpening
      split
      · rfl
      · next shut => exact Bool.eq_false_iff.mpr shut
    exact closed.bind fun _ => .pure fun _ holds => holds
  refine .bind_look fun scope => ?_
  split
  · exact never .finish
  · exact never .headerToken
  · exact movetext
  · exact movetext

end Scan

namespace Lexer

/-- The current token is what its kind says. -/
theorem fits_of_advance {lexer after : Lexer} (success : Scan.advance.run lexer = (.ok (), after)) :
    after.Fits lexer.source.content after.kind := by
  obtain ⟨kind, told, found, rfl⟩ := nextToken_of_advance success
  have fits : told.Fits lexer.source.content kind := Scan.Tells.nextToken
    { lexer with captured := [] } told kind ⟨rfl, [], rfl⟩ found
  cases kind with
  | termination => exact ⟨fits.scope, fits.unsettled, fits.taken⟩
  | moveNumber => exact fits
  | _ => trivial

theorem opening_of_advance {lexer after : Lexer}
    (success : Scan.advance.run lexer = (.ok (), after)) (marker : after.kind = .termination) :
    after.opening = false := by
  have next : Scan.nextToken.Leads (fun _ => True)
      fun kind lexer => kind = .termination → lexer.opening = false := by
    refine .bind_look fun unsettled => ?_
    split
    · exact Scan.Leads.bind (.any _) fun _ => .bind (.any _) fun _ => .scopedToken
    · exact .scopedToken
  obtain ⟨kind, told, found, rfl⟩ := nextToken_of_advance success
  exact next _ told kind trivial found marker

end Lexer

end Scoresheet
