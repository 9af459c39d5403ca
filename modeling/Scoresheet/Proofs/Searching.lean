/-
This file says how a lexer comes to the next token. If the scope is known, the search for a token
begins where the lexer is. Otherwise a byte order mark at the beginning of the input and white space
are passed first. The search itself may pass white space again, and then the token starts. So nothing
but the mark, white space and escaped lines is ever passed between two tokens.
-/

import Scoresheet.Proofs.Lexemes

namespace Scoresheet

open Ascii

namespace Lexer

/-- The lexer is where another one was, within a scope, and has kept nothing. -/
structure Poised (before lexer : Lexer) : Prop where
  honest : lexer.source.IsHonest
  content : lexer.source.content = before.source.content
  place : lexer.place = before.place
  captured : lexer.captured = []
  inside : lexer.scope ≠ .outside

/-- There are no more tokens. -/
structure Ended (kind : TokenKind) (lexer : Lexer) : Prop where
  kind : kind = .undefined
  outside : lexer.scope = .outside
  settled : lexer.unsettled = false
  honest : lexer.source.IsHonest

/-- The second lexer is where the first one was, or behind the white space there. -/
def Skips (before after : Lexer) : Prop :=
  ∃ gap, (gap = [] ∨ gap = Place.blanks false before.place before.source.content) ∧
    before.source.content = gap ++ after.source.content ∧ after.place = before.place.pass gap

/-- A token was told that starts where the lexer was before or behind the white space there. -/
def Found (before : Lexer) (previous kind : TokenKind) (lexer : Lexer) : Prop :=
  ∃ origin, Skips before origin ∧ origin.start = origin.place.position ∧
    origin.source.content ≠ [] ∧ Lexed origin previous origin.source.content kind lexer

/-- How a lexer comes to where the search for a token begins: it is there if the scope is known.
Otherwise it passes a byte order mark at the beginning of the input, and white space. -/
inductive Approaches (lexer : Lexer) : Lexer → Prop where
  | settled {before : Lexer} (known : lexer.unsettled = false)
      (content : before.source.content = lexer.source.content)
      (place : before.place = lexer.place) : Approaches lexer before
  | unmarked {before : Lexer} (unmarked : lexer.Unmarked) (skips : Skips lexer before) :
      Approaches lexer before
  | marked {marked before : Lexer} (start : lexer.place.offset = 0)
      (content : lexer.source.content = byteOrderMark ++ marked.source.content)
      (place : marked.place =
        { lexer.place.pass byteOrderMark with lineStart := byteOrderMark.length })
      (skips : Skips marked before) : Approaches lexer before

variable {before lexer : Lexer} {text : Bytes}

/-- Where a token starts, it is at its origin. -/
theorem Poised.markStart (poised : Poised before lexer) (same : lexer.source.content = text) :
    Wrote lexer.markStart [] [] text lexer.markStart where
  honest := poised.honest
  content := same
  place := rfl
  span := by
    show lexer.captured.reverse = []
    rw [poised.captured, List.reverse_nil]
  start := rfl
  inside := poised.inside

theorem Poised.skips (poised : Poised before lexer) : Skips before lexer :=
  ⟨[], .inl rfl, poised.content.symm, poised.place⟩

end Lexer

namespace Scan

open Lexer

variable {origin before : Lexer} {rest : Bytes} {byte : UInt8} {previous kind : TokenKind}

/-! ### Finding the start of a token -/

/-- What is known when the search for a token is over. -/
def Finds (before : Lexer) (previous : TokenKind) (scan : Scan TokenKind)
    (ready : Lexer → Prop) : Prop :=
  scan.Leads ready fun kind lexer => Ended kind lexer ∨ Found before previous kind lexer

theorem ended_finish {lexer later : Lexer} (honest : lexer.source.IsHonest)
    (success : Scan.finish.run lexer = (.ok kind, later)) : Ended kind later := by
  obtain ⟨kinds, states⟩ := Prod.mk.inj success
  rw [← states, ← Except.ok.inj kinds]
  exact ⟨rfl, rfl, rfl, honest⟩

/-- Filling the buffer leaves a lexer where it is. -/
theorem poised_fill : Scan.fill.Leads (Poised before) fun _ lexer =>
    Poised before lexer ∧ lexer.source.IsReady := by
  intro lexer later value poised success
  have same : later = (Scan.fill.run lexer).2 := congrArg Prod.snd success.symm
  have ready := isReady_fill poised.honest (congrArg Prod.fst success)
  rw [same]
  exact ⟨{ poised with
    honest := poised.honest.fill
    content := (Source.content_fill lexer.source).trans poised.content }, ready⟩

theorem poised_peek : Scan.peek.Leads (Poised before) fun next lexer =>
    next = before.source.content.head? ∧ Poised before lexer :=
  poised_fill.bind fun _ => .look fun lexer holds =>
    ⟨by rw [← holds.1.content, holds.2.showsNext.head_content], holds.1⟩

/-- A token that starts where the lexer is. -/
theorem found_at {lexer later : Lexer} (skips : Skips before lexer)
    (next : lexer.source.content = byte :: rest)
    (lexed : Lexed lexer.markStart previous (byte :: rest) kind later) :
    Found before previous kind later := by
  have text : lexer.markStart.source.content = byte :: rest := next
  refine ⟨lexer.markStart, skips, rfl, ?_, ?_⟩
  · rw [text]
    exact List.cons_ne_nil _ _
  · rwa [text]

theorem finds_spacedToken {token : UInt8 → Scan TokenKind}
    (each : ∀ byte rest origin, isSpace byte = false →
      (token byte).Leads (AtStart origin (byte :: rest)) (Lexed origin previous (byte :: rest))) :
    (spacedToken token).Finds before previous (Poised before) := by
  intro lexer later kind poised success
  obtain ⟨next, spaced, passed, told⟩ := run_bind_ok success
  have passing : Lexer.passSpace lexer = (.ok next, spaced) := passed
  obtain ⟨takes, ready, head⟩ := passSpace_takes poised.honest passing
  cases next with
  | none => exact .inl (ended_finish takes.honest told)
  | some byte =>
    obtain ⟨rest, behind⟩ := List.head?_eq_some_iff.mp head
    have captured := congrArg Lexer.captured takes.state
    have there : Poised spaced spaced :=
      ⟨takes.honest, rfl, rfl, captured.trans poised.captured, takes.scope_eq ▸ poised.inside⟩
    have lexed := each byte rest spaced.markStart (passSpace_significant passing) _ _ _
      ⟨there.markStart behind, ready⟩ told
    have skips : Skips before spaced := by
      refine ⟨_, .inr rfl, ?_, ?_⟩
      · rw [← poised.content, ← poised.place]
        exact takes.content
      · rw [takes.place, poised.content, poised.place]
    exact .inr (found_at skips behind lexed)

theorem finds_quotedToken {closing : UInt8} {told close : TokenKind}
    (writes : ∀ span : Bytes, told.Writes span span)
    (admits : ∀ span : Bytes, span ≠ [] → span.quoted closing = span → told.Admits previous span)
    (delimiter : close.delimiter? = some closing) :
    (quotedToken closing told close).Finds before previous (Poised before) := by
  intro lexer later kind poised success
  obtain ⟨_, _, marked, peeking⟩ := run_bind_ok success
  cases marked
  obtain ⟨_, peeked, peek, telling⟩ := run_bind_ok peeking
  obtain ⟨rfl, wrote, ready⟩ := wrote_peek _ _ _ (poised.markStart rfl) peek
  cases next : lexer.source.content with
  | nil =>
    rw [next] at telling
    exact .inl (ended_finish wrote.honest telling)
  | cons byte rest =>
    rw [next] at telling wrote
    refine .inr (found_at poised.skips next ?_)
    simp only [List.head?_cons] at telling
    split at telling
    · next closes =>
      exact lexes_delimiter (closes ▸ delimiter) _ _ _ ⟨wrote, ready⟩ telling
    · next onward =>
      have quoted : (do
          Scan.captureQuoted closing
          return told : Scan TokenKind).Leads (Wrote lexer.markStart [] [] (byte :: rest))
            (Lexed lexer.markStart previous (byte :: rest)) := by
        refine (wrote_captureQuoted closing).bind fun _ => .pure ?_
        rintro lexer ⟨more, whole, kept⟩
        exact ⟨_, _, more, whole, kept, writes _,
          admits _ (Bytes.quoted_ne_nil onward) (Bytes.quoted_quoted closing _)⟩
      exact quoted _ _ _ wrote telling

theorem finds_separatorToken (next : before.source.content.head?.any isBlank = true) :
    separatorToken.Finds before previous (Poised before) := by
  intro lexer later kind poised success
  obtain ⟨_, _, marked, running⟩ := run_bind_ok success
  cases marked
  cases content : lexer.source.content with
  | nil =>
    rw [← poised.content, content] at next
    cases next
  | cons byte rest =>
    rw [← poised.content, content] at next
    have blank : isBlank byte = true := next
    have told : (do
        Scan.captureUntil (!isBlank ·)
        return .separator : Scan TokenKind).Leads (Wrote lexer.markStart [] [] (byte :: rest))
          (Lexed lexer.markStart previous (byte :: rest)) :=
      (wrote_run (by rw [blank]; rfl)).bind fun _ =>
        lexes_pure (cons_takeWhile_append_dropWhile _) rfl
          ⟨List.cons_ne_nil _ _, forall_mem_run blank fun other onward => by simpa using onward⟩
    exact .inr (found_at poised.skips content (told _ _ _ (poised.markStart content) running))

/-- The kind of the last token matters within a header section only. -/
theorem finds_headerToken {lexer later : Lexer} (poised : Poised before lexer)
    (success : headerToken.run lexer = (.ok kind, later)) :
    Ended kind later ∨ Found before lexer.kind kind later := by
  have spaced (bare : lexer.kind ≠ .valueBegin) :
      (spacedToken headerTokenAt).Finds before lexer.kind (Poised before) :=
    finds_spacedToken fun _ _ _ significant => lexes_headerTokenAt significant bare
  have told : headerToken.run lexer = _ := success
  unfold Scan.headerToken at told
  rw [run_bind] at told
  simp only [run_look] at told
  split at told
  · next quoted =>
    have found : (quotedToken quote .value .valueEnd).Finds before lexer.kind (Poised before) :=
      finds_quotedToken (fun _ => rfl) (fun span some closed => ⟨some, fun _ => closed⟩) rfl
    exact found _ _ _ poised told
  · next name =>
    have bare : lexer.kind ≠ .valueBegin := by rw [name]; nofun
    obtain ⟨_, peeked, peek, telling⟩ := run_bind_ok told
    obtain ⟨rfl, there⟩ := poised_peek _ _ _ poised peek
    split at telling
    · next byte shown =>
      split at telling
      · next blank =>
        exact finds_separatorToken (by rw [shown]; exact blank) _ _ _ there telling
      · exact spaced bare _ _ _ there telling
    · exact spaced bare _ _ _ there telling
  · next unopened _ => exact spaced unopened _ _ _ poised told

theorem finds_movetextToken : movetextToken.Finds before previous (Poised before) := by
  refine .bind_look fun kind => ?_
  split
  · exact finds_quotedToken (fun _ => rfl) (fun span some quoted => ⟨some, quoted⟩) rfl
  · exact finds_spacedToken fun _ _ _ => lexes_movetextTokenAt

/-! ### The next token -/

theorem ended_closeOpening {lexer : Lexer} (ended : Ended kind lexer) :
    Ended kind (lexer.closeOpening kind) := by
  obtain ⟨rfl, outside, settled, honest⟩ := ended
  unfold Lexer.closeOpening
  split
  · exact ⟨rfl, outside, settled, honest⟩
  · exact ⟨rfl, outside, settled, honest⟩

theorem found_closeOpening {lexer : Lexer} (found : Found before previous kind lexer) :
    Found before previous kind (lexer.closeOpening kind) := by
  obtain ⟨origin, skips, begins, some, written, kept, rest, whole, wrote, means⟩ := found
  refine ⟨origin, skips, begins, some, written, kept, rest, whole, ?_, means⟩
  unfold Lexer.closeOpening
  split
  · split <;> exact { wrote with }
  · exact wrote

/-- The token of a scope is searched for from where the lexer is. The kind of the last token matters
within a header section only. -/
theorem finds_scopedToken {lexer later : Lexer} (honest : lexer.source.IsHonest)
    (empty : lexer.captured = []) (same : lexer.scope = .header → lexer.kind = previous)
    (success : scopedToken.run lexer = (.ok kind, later)) :
    Ended kind later ∨ Found lexer previous kind later := by
  have movetext (inside : lexer.scope ≠ .outside)
      (told : (do
        let kind ← movetextToken
        change (Lexer.closeOpening kind)
        return kind : Scan TokenKind).run lexer = (.ok kind, later)) :
      Ended kind later ∨ Found lexer previous kind later := by
    obtain ⟨found, middle, telling, closing⟩ := run_bind_ok told
    cases closing
    have poised : Poised lexer lexer := ⟨honest, rfl, rfl, empty, inside⟩
    exact (finds_movetextToken _ _ _ poised telling).imp ended_closeOpening found_closeOpening
  have told : scopedToken.run lexer = _ := success
  unfold Scan.scopedToken at told
  rw [run_bind] at told
  simp only [run_look] at told
  split at told
  · exact .inl (ended_finish honest told)
  · next header =>
    rw [← same header]
    exact finds_headerToken ⟨honest, rfl, rfl, empty, by rw [header]; nofun⟩ told
  · next inside => exact movetext (by rw [inside]; nofun) told
  · next inside => exact movetext (by rw [inside]; nofun) told

/-- Settling changes nothing but the scope, and for the movetext the kind of the last token and
whether headers may still follow. -/
theorem settle_eq (next : Option UInt8) (lexer : Lexer) :
    ∃ scope kind opening, lexer.settle next = { lexer with scope, kind, opening } := by
  unfold Lexer.settle
  split
  · exact ⟨_, _, _, rfl⟩
  · split
    · exact ⟨_, _, _, rfl⟩
    · split <;> exact ⟨_, _, _, rfl⟩

/-- Settling finds a header section without forgetting the last token. -/
theorem kind_settle {next : Option UInt8} {lexer : Lexer}
    (header : (lexer.settle next).scope = .header) : (lexer.settle next).kind = lexer.kind := by
  unfold Lexer.settle at header ⊢
  split
  · rfl
  · next byte =>
    dsimp only at header
    split
    · rfl
    · next other =>
      rw [if_neg other] at header
      split at header
      · cases header
      · next closed => rw [if_neg closed]

/-- What is left to do when the input is behind its byte order mark. -/
theorem finds_unsettled {lexer later : Lexer} (honest : lexer.source.IsHonest)
    (empty : lexer.captured = [])
    (success : (findScope >>= fun _ => scopedToken).run lexer = (.ok kind, later)) :
    Ended kind later ∨ ∃ before, Skips lexer before ∧ Found before lexer.kind kind later := by
  obtain ⟨_, settled, finding, telling⟩ := run_bind_ok success
  obtain ⟨_, _, changed, onward⟩ := run_bind_ok finding
  cases changed
  obtain ⟨next, spaced, passed, settling⟩ := run_bind_ok onward
  cases settling
  have there : ({ lexer with unsettled := false } : Lexer).source.IsHonest := honest
  obtain ⟨takes, _, _⟩ := passSpace_takes there passed
  have captured := congrArg Lexer.captured takes.state
  have header := @kind_settle next spaced
  obtain ⟨scope, kind, opening, same⟩ := settle_eq next spaced
  rw [same] at telling header
  generalize unchanged : ({ spaced with scope, kind, opening } : Lexer) = settled at telling header
  have honestThere : settled.source.IsHonest := unchanged ▸ takes.honest
  have emptied : settled.captured = [] := unchanged ▸ captured.trans empty
  have skips : Skips lexer settled := unchanged ▸ ⟨_, .inr rfl, takes.content, takes.place⟩
  exact (finds_scopedToken honestThere emptied
    (fun within => (header within).trans takes.kind_eq) telling).imp id fun found =>
      ⟨settled, skips, found⟩

/-- The byte order mark is passed without being kept. -/
theorem passes_byteOrderMark {lexer after : Lexer} (honest : lexer.source.IsHonest)
    (start : lexer.place.offset = 0)
    (begins : byteOrderMark.isPrefixOf lexer.source.content = true)
    (success : passByteOrderMark.run lexer = (.ok (), after)) :
    after.source.IsHonest ∧ after.captured = lexer.captured ∧ after.kind = lexer.kind ∧
      lexer.source.content = byteOrderMark ++ after.source.content ∧
      after.place = { lexer.place.pass byteOrderMark with lineStart := byteOrderMark.length } := by
  unfold Scan.passByteOrderMark at success
  rw [run_bind, run_look] at success
  dsimp only at success
  rw [if_pos start] at success
  obtain ⟨_, filled, filling, passed⟩ := run_bind_ok success
  cases passed
  have ready := isReady_fill honest (congrArg Prod.fst filling)
  have taking : Takes false [] lexer (Scan.fill.run lexer).2 := .fill honest
  rw [filling] at ready taking
  have content : lexer.source.content = filled.source.content := taking.content
  have seen := begins
  rw [content, ← ready.isPrefixOf_buffer (by decide)] at seen
  have passes := Takes.take taking.honest false byteOrderMark.length
  rw [← List.prefix_iff_eq_take.mp (List.isPrefixOf_iff_prefix.mp seen)] at passes
  have whole := taking.trans passes
  have place : (filled.pass byteOrderMark.length).place = lexer.place.pass byteOrderMark :=
    whole.place
  have offset : (filled.pass byteOrderMark.length).place.offset = byteOrderMark.length := by
    rw [place, Place.offset_pass, start, Nat.zero_add]
  unfold Lexer.passMark
  rw [if_pos seen]
  have captured := congrArg Lexer.captured whole.state
  refine ⟨whole.honest, captured, whole.kind_eq, whole.content, ?_⟩
  show { (filled.pass byteOrderMark.length).place with
    lineStart := (filled.pass byteOrderMark.length).place.offset } = _
  rw [offset, place]

end Scan

namespace Lexer

open Scan

variable {lexer after : Lexer}

/-- The scope is found behind white space. -/
theorem findScope_eq {settled : Lexer}
    (searching : Scan.findScope.run lexer = (.ok (), settled)) :
    ∃ next spaced, passSpace { lexer with unsettled := false } = (.ok next, spaced) ∧
      settled = spaced.settle next := by
  obtain ⟨_, _, begun, onward⟩ := run_bind_ok searching
  cases begun
  obtain ⟨next, spaced, passed, ended⟩ := run_bind_ok onward
  cases ended
  exact ⟨next, spaced, passed, rfl⟩

/-- A scope that was found is no longer to be found. -/
theorem unsettled_of_findScope {settled : Lexer}
    (searching : Scan.findScope.run lexer = (.ok (), settled)) : settled.unsettled = false := by
  obtain ⟨next, spaced, passed, rfl⟩ := findScope_eq searching
  have skims := skims_passSpace { lexer with unsettled := false }
  rw [passed] at skims
  have flags := congrArg Lexer.unsettled skims
  obtain ⟨scope, kind, opening, same⟩ := settle_eq next spaced
  rw [same]
  exact flags

/-- In a scope that is known the next token is told. -/
theorem scopedToken_of_nextToken {kind : TokenKind} (settled : lexer.unsettled = false)
    (told : Scan.nextToken.run lexer = (.ok kind, after)) :
    Scan.scopedToken.run lexer = (.ok kind, after) := by
  unfold Scan.nextToken at told
  rw [run_bind, run_look] at told
  dsimp only at told
  rwa [settled, if_neg Bool.false_ne_true] at told

/-- In a scope that is to be found, it is found before the next token is told. -/
theorem findScope_of_nextToken {kind : TokenKind} (unsettled : lexer.unsettled = true)
    (told : Scan.nextToken.run lexer = (.ok kind, after)) :
    ∃ marked settled, Scan.passByteOrderMark.run lexer = (.ok (), marked) ∧
      Scan.findScope.run marked = (.ok (), settled) ∧
      Scan.scopedToken.run settled = (.ok kind, after) := by
  unfold Scan.nextToken at told
  rw [run_bind, run_look] at told
  dsimp only at told
  rw [if_pos unsettled] at told
  obtain ⟨_, marked, marking, onward⟩ := run_bind_ok told
  obtain ⟨_, settled, searching, telling⟩ := run_bind_ok onward
  exact ⟨marked, settled, marking, searching, telling⟩

theorem nextToken_finds {kind : TokenKind} (honest : lexer.source.IsHonest)
    (empty : lexer.captured = []) (told : Scan.nextToken.run lexer = (.ok kind, after)) :
    Ended kind after ∨ ∃ before, Approaches lexer before ∧ Found before lexer.kind kind after := by
  unfold Scan.nextToken at told
  rw [run_bind, run_look] at told
  dsimp only at told
  split at told
  · obtain ⟨_, marked, passed, finding⟩ := run_bind_ok told
    by_cases unmarked : lexer.Unmarked
    · have takes := unmarked.takes honest passed
      have captured := congrArg Lexer.captured takes.state
      refine (finds_unsettled takes.honest (captured.trans empty) finding).imp id ?_
      rintro ⟨before, ⟨gap, blank, content, place⟩, found⟩
      rw [takes.kind_eq] at found
      have same : lexer.source.content = marked.source.content := takes.content
      have unmoved : marked.place = lexer.place := takes.place
      rw [← same, unmoved] at blank
      rw [← same] at content
      rw [unmoved] at place
      exact ⟨before, .unmarked unmarked ⟨gap, blank, content, place⟩, found⟩
    · obtain ⟨start, begins⟩ := not_or.mp unmarked
      obtain ⟨honest, captured, kind, content, place⟩ :=
        passes_byteOrderMark honest (Decidable.not_not.mp start) (Bool.not_eq_false _ ▸ begins) passed
      refine (finds_unsettled honest (captured.trans empty) finding).imp id ?_
      rintro ⟨before, skips, found⟩
      exact ⟨before, .marked (Decidable.not_not.mp start) content place skips, kind ▸ found⟩
  · next settled =>
    exact (finds_scopedToken honest empty (fun _ => rfl) told).imp id fun found =>
      ⟨lexer, .settled (Bool.eq_false_iff.mpr settled) rfl rfl, found⟩

/-- A token that is told lies where the search for it led, or there are no more tokens. -/
theorem advance_finds (honest : lexer.source.IsHonest)
    (success : Scan.advance.run lexer = (.ok (), after)) :
    Ended after.kind after ∨
      ∃ before, Approaches lexer before ∧ Found before lexer.kind after.kind after := by
  obtain ⟨kind, told, found, rfl⟩ := nextToken_of_advance success
  have there : ({ lexer with captured := [] } : Lexer).source.IsHonest := honest
  refine (nextToken_finds there rfl found).imp (fun ended => { ended with }) ?_
  rintro ⟨before, approaches, origin, skips, begins, some, written, kept, rest, whole, wrote, means⟩
  refine ⟨before, ?_, origin, skips, begins, some, written, kept, rest, whole, { wrote with }, means⟩
  cases approaches with
  | settled known content place => exact .settled known content place
  | unmarked unmarked skips => exact .unmarked unmarked skips
  | marked start content place skips => exact .marked start content place skips

end Lexer

end Scoresheet
