/-
This file shows that the layout of a movetext does not matter. Where two texts lay out the same
atoms, the lexers over them stay in step from token to token: between two tokens they are abreast in
an atom or at its end, inside a comment in braces the same is left of the comment, and the separator
behind an atom is passed before the next token begins, whatever it is made of. So the lexers tell
the same tokens, and the readers yield the same games and errors but for positions.
-/

import Scoresheet.Cache.PairHash
import Scoresheet.Proofs.Abreast
import Scoresheet.Proofs.Concatenation
import Scoresheet.Proofs.Searching

namespace Scoresheet

open Ascii Bytes

namespace Lexer

/-! ### In step -/

/-- Behind a token of the kind the lexers are at the end, or the same is left for both of an atom,
and what follows it differs in separators only. -/
inductive InStep (kind : TokenKind) (first second : Lexer) : Prop where
  | ended (last : kind = .undefined) (exhausted : first.isExhausted = true)
      (same : first.unplaced = second.unplaced)
  | between {rest tail tail' : Bytes} (outside : kind ≠ .commentBegin) (pending : IsPending rest)
      (follow : Follow tail tail') (abreast : Abreast rest tail tail' first second)
  | enclosed {remark tail tail' : Bytes} (inside : kind = .commentBegin)
      (enclosable : remark.isEnclosable closeBrace = true) (follow : Follow tail tail')
      (abreast : Abreast (remark ++ [closeBrace]) tail tail' first second)
      (settled : first.unsettled = false) (movetext : first.scope ≠ .outside)

variable {rest tail tail' remark separator atom gap : Bytes} {kind told told' : TokenKind}
  {next next' : Option UInt8} {lexer after first second firstAfter secondAfter : Lexer}

theorem InStep.unplaced (inStep : InStep kind first second) : first.unplaced = second.unplaced := by
  cases inStep with
  | ended _ _ same => exact same
  | between _ _ _ abreast => exact abreast.same
  | enclosed _ _ _ abreast => exact abreast.same

/-- Neither lexer is in a header section. -/
theorem InStep.noHeader (inStep : InStep kind first second) : first.scope ≠ .header := by
  cases inStep with
  | ended _ exhausted =>
    rw [beq_iff_eq.mp (Bool.and_eq_true_iff.mp exhausted).1]
    decide
  | between _ _ _ abreast => exact abreast.noHeader
  | enclosed _ _ _ abreast => exact abreast.noHeader

/-- A change of the current token alone. -/
theorem InStep.update {update : Lexer → Lexer} (inStep : InStep kind first second)
    (only : ∀ lexer : Lexer, update lexer =
      { lexer with kind := (update lexer).kind, captured := (update lexer).captured })
    (oblivious : ∀ lexer : Lexer, (update lexer).unplaced = (update lexer.unplaced).unplaced) :
    InStep kind (update first) (update second) := by
  have source (lexer : Lexer) : (update lexer).source = lexer.source := by rw [only]
  have place (lexer : Lexer) : (update lexer).place = lexer.place := by rw [only]
  have scope : (update first).scope = first.scope := by rw [only]
  have unsettled : (update first).unsettled = first.unsettled := by rw [only]
  cases inStep with
  | ended last exhausted same =>
    refine .ended last ?_ (by rw [oblivious, same, ← oblivious])
    rw [Lexer.isExhausted, scope, unsettled]
    exact exhausted
  | between outside pending follow abreast =>
    exact .between outside pending follow
      (abreast.update source place oblivious (scope ▸ abreast.noHeader))
  | enclosed inside enclosable follow abreast settled movetext =>
    exact .enclosed inside enclosable follow
      (abreast.update source place oblivious (scope ▸ abreast.noHeader))
      (unsettled.trans settled) (scope ▸ movetext)

/-! ### From one atom to the next -/

/-- A separator in front of an atom is passed and nothing else. -/
theorem Remains.passSeparator (remains : lexer.Remains [] (separator ++ (atom ++ tail)))
    (parts : IsSeparator separator) (isAtom : IsAtom atom)
    (takes : Takes false (Place.blanks false lexer.place lexer.source.content) lexer after) :
    after.Remains atom tail ∧ after.unplaced = lexer.unplaced := by
  have content : lexer.source.content = separator ++ (atom ++ tail) := remains.content
  rw [content, parts.blanks isAtom] at takes
  obtain ⟨byte, others, rfl, blank⟩ := parts.head
  obtain ⟨first, text, rfl, noEscape⟩ := isAtom.exists_head
  have joined : lexer.Remains ((byte :: others) ++ (first :: text)) tail := by
    refine ⟨remains.honest, by rw [content, List.append_assoc], remains.inLine, fun escape => ?_⟩
    rw [Option.some.inj escape] at blank
    exact absurd blank (by decide)
  exact ⟨joined.takes (fun escape => absurd (Option.some.inj escape) noEscape) takes,
    takes.unplaced⟩

/-- In front of what is left of an atom nothing is passed. -/
theorem Remains.passNothing {byte : UInt8} {others : Bytes}
    (remains : lexer.Remains (byte :: others) tail) (pending : IsPending (byte :: others))
    (takes : Takes false (Place.blanks false lexer.place lexer.source.content) lexer after) :
    Takes false [] lexer after := by
  rw [remains.content, pending.blanks fun escape => remains.aside (congrArg some escape)] at takes
  exact takes

/-- Where a token may begin, or behind an atom, passing white space leads to what is left of the
atom or to the next one. -/
theorem Abreast.passSpace (abreast : Abreast rest tail tail' first second)
    (pending : IsPending rest) (follow : Follow tail tail')
    (success : Scan.passSpace.run first = (.ok next, firstAfter))
    (success' : Scan.passSpace.run second = (.ok next', secondAfter)) :
    next = next' ∧ firstAfter.source.IsReady ∧ secondAfter.source.IsReady ∧
      ∃ rest tail tail', next = rest.head? ∧ IsPending rest ∧ Follow tail tail' ∧
        Abreast rest tail tail' firstAfter secondAfter := by
  obtain ⟨taking, ready, shown⟩ := passSpace_takes abreast.left.honest success
  obtain ⟨taking', ready', shown'⟩ := passSpace_takes abreast.right.honest success'
  cases rest with
  | cons byte others =>
    have left := abreast.left.passNothing pending taking
    have right := abreast.right.passNothing pending taking'
    have whole : Abreast ([] ++ byte :: others) tail tail' first second := abreast
    have later := whole.takes (fun _ => List.not_mem_nil) left right
    rw [later.left.content] at shown
    rw [later.right.content] at shown'
    exact ⟨shown.symm.trans shown', ready, ready', byte :: others, _, _, shown.symm, pending,
      follow, later⟩
  | nil =>
    cases follow with
    | none =>
      have whole : Abreast ([] ++ []) [] [] first second := abreast
      rw [abreast.left.content] at taking
      rw [abreast.right.content] at taking'
      have later := whole.takes (fun _ => List.not_mem_nil) taking taking'
      rw [later.left.content] at shown
      rw [later.right.content] at shown'
      exact ⟨shown.symm.trans shown', ready, ready', [], _, _, shown.symm, pending, .none, later⟩
    | @next separator separator' atom behind behind' parts parts' isAtom follow =>
      obtain ⟨left, same⟩ := abreast.left.passSeparator parts isAtom taking
      obtain ⟨right, same'⟩ := abreast.right.passSeparator parts' isAtom taking'
      have later : Abreast atom behind behind' firstAfter secondAfter :=
        ⟨left, right, by rw [same, same', abreast.same], by
          rw [taking.scope_eq]
          exact abreast.noHeader⟩
      obtain ⟨byte, text, rfl, _⟩ := isAtom.exists_head
      rw [later.left.content] at shown
      rw [later.right.content] at shown'
      exact ⟨shown.symm.trans shown', ready, ready', byte :: text, _, _, shown.symm,
        isAtom.pending, follow, later⟩

/-! ### The next token -/

theorem inStep_finish (same : first.unplaced = second.unplaced)
    (success : Scan.finish.run first = (.ok told, firstAfter))
    (success' : Scan.finish.run second = (.ok told', secondAfter)) :
    told = told' ∧ InStep told firstAfter secondAfter := by
  cases success
  cases success'
  exact ⟨rfl, .ended rfl rfl (congrArg (fun lexer : Lexer =>
    { lexer with scope := .outside, unsettled := false }) same)⟩

theorem ne_of_isEnclosable {closing byte : UInt8}
    (enclosable : isEnclosable closing (byte :: rest) = true) : byte ≠ closing := by
  cases rest with
  | nil =>
    rw [isEnclosable, Bool.and_eq_true, bne_iff_ne] at enclosable
    exact enclosable.1
  | cons next rest =>
    rw [isEnclosable, Bool.and_eq_true, bne_iff_ne] at enclosable
    exact enclosable.1

/-- Inside braces the remark is told, or the brace that closes it. -/
theorem Abreast.quotedToken (abreast : Abreast (remark ++ [closeBrace]) tail tail' first second)
    (enclosable : remark.isEnclosable closeBrace = true) (follow : Follow tail tail')
    (success : (Scan.quotedToken closeBrace .comment .commentEnd).run first =
      (.ok told, firstAfter))
    (success' : (Scan.quotedToken closeBrace .comment .commentEnd).run second =
      (.ok told', secondAfter)) :
    told = told' ∧ InStep told firstAfter secondAfter := by
  obtain ⟨_, _, marked, onward⟩ := Scan.run_bind_ok success
  obtain ⟨_, _, marked', onward'⟩ := Scan.run_bind_ok success'
  cases marked
  cases marked'
  obtain ⟨next, middle, peeked, telling⟩ := Scan.run_bind_ok onward
  obtain ⟨next', middle', peeked', telling'⟩ := Scan.run_bind_ok onward'
  obtain ⟨taking, ready, shown⟩ := peek_takes abreast.markStart.left.honest peeked
  obtain ⟨taking', ready', shown'⟩ := peek_takes abreast.markStart.right.honest peeked'
  rw [abreast.markStart.left.content] at shown
  rw [abreast.markStart.right.content] at shown'
  have marked : Abreast ([] ++ (remark ++ [closeBrace])) tail tail' first.markStart
      second.markStart := abreast.markStart
  have later := marked.takes (fun _ => List.not_mem_nil) taking taking'
  cases remark with
  | nil =>
    subst shown shown'
    rw [List.nil_append] at later
    have last := later.take_one false (by decide) ready.showsNext ready'.showsNext
    cases telling
    cases telling'
    exact ⟨rfl, .between (by decide) (.plain rfl) follow last⟩
  | cons byte others =>
    subst shown shown'
    have onward := ne_of_isEnclosable enclosable
    simp only [List.cons_append, List.head?_cons, if_neg onward] at telling telling'
    obtain ⟨_, _, captured, ended⟩ := Scan.run_bind_ok telling
    obtain ⟨_, _, captured', ended'⟩ := Scan.run_bind_ok telling'
    cases ended
    cases ended'
    have left := captureQuoted_takes later.left.honest captured
    have right := captureQuoted_takes later.right.honest captured'
    have closed (rest : Bytes) :
        quoted closeBrace (byte :: others ++ [closeBrace] ++ rest) = byte :: others := by
      rw [List.append_assoc]
      exact quoted_of_isEnclosable enclosable rest
    rw [later.left.content, closed] at left
    rw [later.right.content, closed] at right
    have last := later.takes (fun escape => absurd (Option.some.inj escape) (by decide)) left right
    exact ⟨rfl, .between (by decide) .close follow last⟩

/-- Behind white space a token of the atom is told. -/
theorem Abreast.spacedToken (abreast : Abreast rest tail tail' first second)
    (pending : IsPending rest) (follow : Follow tail tail') (settled : first.unsettled = false)
    (movetext : first.scope ≠ .outside)
    (success : (Scan.spacedToken Scan.movetextTokenAt).run first = (.ok told, firstAfter))
    (success' : (Scan.spacedToken Scan.movetextTokenAt).run second = (.ok told', secondAfter)) :
    told = told' ∧ InStep told firstAfter secondAfter := by
  obtain ⟨next, middle, passed, telling⟩ := Scan.run_bind_ok success
  obtain ⟨next', middle', passed', telling'⟩ := Scan.run_bind_ok success'
  have skims := skims_passSpace first
  rw [show Lexer.passSpace first = _ from passed] at skims
  have flags : middle.unsettled = first.unsettled := by
    have flags := congrArg Lexer.unsettled skims
    exact flags
  have scopes : middle.scope = first.scope := by
    have scopes := congrArg Lexer.scope skims
    exact scopes
  obtain ⟨rfl, ready, ready', rest, tail, tail', shown, pending, follow, abreast⟩ :=
    abreast.passSpace pending follow passed passed'
  cases rest with
  | nil =>
    subst shown
    exact inStep_finish abreast.same telling telling'
  | cons byte others =>
    subst shown
    obtain ⟨_, _, marked, onward⟩ := Scan.run_bind_ok telling
    obtain ⟨_, _, marked', onward'⟩ := Scan.run_bind_ok telling'
    cases marked
    cases marked'
    have begun := abreast.markStart
    have inSight : middle.markStart.source.IsReady := ready
    have inSight' : middle'.markStart.source.IsReady := ready'
    rcases pending with all | enclosable | _
    · have aside : byte ≠ openBrace := by
        rintro rfl
        rw [List.all_cons, Bool.and_eq_true] at all
        exact absurd all.1 (by decide)
      obtain ⟨rfl, left, plain, later⟩ := Scan.SteadyFrom.movetextTokenAt byte begun all
        follow.ends.1 follow.ends.2 ⟨rfl, inSight⟩ ⟨rfl, inSight'⟩ onward onward'
      exact ⟨rfl, .between (Scan.leads_movetextTokenAt_aside aside _ _ _ trivial onward)
        (.plain plain) follow later⟩
    · have last := begun.take_one false (by decide) inSight.showsNext inSight'.showsNext
      cases onward
      cases onward'
      exact ⟨rfl, .enclosed rfl enclosable follow last (flags.trans settled) fun outside =>
        movetext (scopes.symm.trans outside)⟩
    · have last := begun.take_one false (by decide) inSight.showsNext inSight'.showsNext
      cases onward
      cases onward'
      exact ⟨rfl, .between (by decide) (.plain rfl) follow last⟩

theorem closeOpening_eq (kind : TokenKind) (lexer : Lexer) : ∃ unsettled opening,
    lexer.closeOpening kind = { lexer with unsettled, opening } := by
  unfold closeOpening
  repeat' split
  all_goals exact ⟨_, _, rfl⟩

theorem closeOpening_unplaced (kind : TokenKind) (lexer : Lexer) :
    (lexer.closeOpening kind).unplaced = (lexer.unplaced.closeOpening kind).unplaced := by
  unfold closeOpening
  show _ = (if lexer.opening = true then _ else _ : Lexer).unplaced
  repeat' split
  all_goals rfl

/-- Telling the kind of a token may end the opening, on both sides. -/
theorem InStep.closeOpening (inStep : InStep kind first second) :
    InStep kind (first.closeOpening kind) (second.closeOpening kind) := by
  have source (lexer : Lexer) : (lexer.closeOpening kind).source = lexer.source := by
    obtain ⟨_, _, same⟩ := closeOpening_eq kind lexer
    rw [same]
  have place (lexer : Lexer) : (lexer.closeOpening kind).place = lexer.place := by
    obtain ⟨_, _, same⟩ := closeOpening_eq kind lexer
    rw [same]
  have scope (lexer : Lexer) : (lexer.closeOpening kind).scope = lexer.scope := by
    obtain ⟨_, _, same⟩ := closeOpening_eq kind lexer
    rw [same]
  have oblivious := closeOpening_unplaced kind
  cases inStep with
  | ended last exhausted same =>
    subst last
    refine .ended rfl ?_ (by rw [oblivious, same, ← oblivious])
    unfold Lexer.closeOpening
    split <;> exact exhausted
  | between outside pending follow abreast =>
    exact .between outside pending follow (abreast.update source place oblivious
      (by rw [scope]; exact abreast.noHeader))
  | enclosed inside enclosable follow abreast settled movetext =>
    subst inside
    have keeps (lexer : Lexer) : lexer.closeOpening .commentBegin = lexer := by
      unfold Lexer.closeOpening
      split <;> rfl
    rw [keeps, keeps]
    exact .enclosed rfl enclosable follow abreast settled movetext

theorem InStep.movetextToken (inStep : InStep first.kind first second)
    (settled : first.unsettled = false) (movetext : first.scope ≠ .outside)
    (success : Scan.movetextToken.run first = (.ok told, firstAfter))
    (success' : Scan.movetextToken.run second = (.ok told', secondAfter)) :
    told = told' ∧ InStep told firstAfter secondAfter := by
  have kinds := congrArg Lexer.kind inStep.unplaced
  have same : second.kind = first.kind := kinds.symm
  unfold Scan.movetextToken at success success'
  rw [Scan.run_bind, Scan.run_look] at success success'
  dsimp only at success success'
  rw [same] at success'
  cases inStep with
  | ended last exhausted =>
    exact absurd (beq_iff_eq.mp (Bool.and_eq_true_iff.mp exhausted).1) movetext
  | between outside pending follow abreast =>
    rw [if_neg outside] at success success'
    exact abreast.spacedToken pending follow settled movetext success success'
  | enclosed inside enclosable follow abreast =>
    rw [if_pos inside] at success success'
    exact abreast.quotedToken enclosable follow success success'

/-- In a scope that is known the next token is told, or the end. -/
theorem InStep.scopedToken (inStep : InStep first.kind first second)
    (settled : first.unsettled = false)
    (success : Scan.scopedToken.run first = (.ok told, firstAfter))
    (success' : Scan.scopedToken.run second = (.ok told', secondAfter)) :
    told = told' ∧ InStep told firstAfter secondAfter := by
  have scopes := congrArg Lexer.scope inStep.unplaced
  have same : second.scope = first.scope := scopes.symm
  have movetext (inside : first.scope ≠ .outside)
      (success : (Scan.movetextToken >>= fun kind =>
        Scan.change (Lexer.closeOpening kind) >>= fun _ => pure kind).run first =
          (.ok told, firstAfter))
      (success' : (Scan.movetextToken >>= fun kind =>
        Scan.change (Lexer.closeOpening kind) >>= fun _ => pure kind).run second =
          (.ok told', secondAfter)) :
      told = told' ∧ InStep told firstAfter secondAfter := by
    obtain ⟨kind, middle, telling, closing⟩ := Scan.run_bind_ok success
    obtain ⟨kind', middle', telling', closing'⟩ := Scan.run_bind_ok success'
    obtain ⟨rfl, later⟩ := inStep.movetextToken settled inside telling telling'
    cases closing
    cases closing'
    exact ⟨rfl, later.closeOpening⟩
  unfold Scan.scopedToken at success success'
  rw [Scan.run_bind, Scan.run_look] at success success'
  dsimp only at success success'
  rw [same] at success'
  split at success
  · next outside =>
    rw [outside] at success'
    exact inStep_finish inStep.unplaced success success'
  · next header => exact absurd header inStep.noHeader
  · next inside =>
    rw [inside] at success'
    exact movetext (by rw [inside]; decide) success success'
  · next inside =>
    rw [inside] at success'
    exact movetext (by rw [inside]; decide) success success'

/-! ### The scope -/

theorem settle_unplaced (next : Option UInt8) (lexer : Lexer) :
    (lexer.settle next).unplaced = (lexer.unplaced.settle next).unplaced := by
  obtain ⟨_, _, scope, _, _, _, _, _⟩ := lexer
  cases next with
  | none => rfl
  | some byte =>
    dsimp only [settle, unplaced, relocate]
    split
    · rfl
    · split <;> rfl

/-- Only a bracket leads to a header section, and settling forgets the last token or keeps it. -/
theorem settle_of_ne (other : next ≠ some openBracket) (lexer : Lexer) :
    (lexer.settle next).scope ≠ .header ∧
      ((lexer.settle next).kind = lexer.kind ∨ (lexer.settle next).kind = .undefined) := by
  cases next with
  | none => exact ⟨nofun, .inl rfl⟩
  | some byte =>
    unfold settle
    dsimp only
    rw [if_neg fun bracket => other (congrArg some bracket)]
    split
    · exact ⟨nofun, .inr rfl⟩
    · exact ⟨nofun, .inl rfl⟩

/-- Between two tokens the scope is found alike. -/
theorem Abreast.findScope (abreast : Abreast rest tail tail' first second)
    (outside : first.kind ≠ .commentBegin) (pending : IsPending rest) (follow : Follow tail tail')
    (success : Scan.findScope.run first = (.ok (), firstAfter))
    (success' : Scan.findScope.run second = (.ok (), secondAfter)) :
    InStep firstAfter.kind firstAfter secondAfter := by
  obtain ⟨next, middle, passed, rfl⟩ := findScope_eq success
  obtain ⟨next', middle', passed', rfl⟩ := findScope_eq success'
  have begun : Abreast rest tail tail' { first with unsettled := false }
      { second with unsettled := false } :=
    @Abreast.update _ _ _ _ _ ({ · with unsettled := false }) abreast (fun _ => rfl) (fun _ => rfl)
      (fun _ => rfl) abreast.noHeader
  have kept := (passSpace_takes begun.left.honest passed).1.kind_eq
  obtain ⟨rfl, _, _, rest, tail, tail', shown, pending, follow, between⟩ :=
    begun.passSpace pending follow passed passed'
  have other : next ≠ some openBracket := by
    rintro rfl
    obtain ⟨others, rfl⟩ := List.head?_eq_some_iff.mp shown.symm
    exact pending.head.2 rfl
  obtain ⟨noHeader, kinds⟩ := settle_of_ne other middle
  have source (lexer : Lexer) : (lexer.settle next).source = lexer.source := by
    obtain ⟨_, _, _, same⟩ := Scan.settle_eq next lexer
    rw [same]
  have place (lexer : Lexer) : (lexer.settle next).place = lexer.place := by
    obtain ⟨_, _, _, same⟩ := Scan.settle_eq next lexer
    rw [same]
  refine .between ?_ pending follow
    (between.update source place (settle_unplaced next) noHeader)
  rcases kinds with same | none
  · rw [same, kept]
    exact outside
  · rw [none]
    decide

/-! ### From token to token -/

theorem InStep.nextToken (inStep : InStep first.kind first second)
    (unmarked : first.unsettled = true → first.Unmarked ∧ second.Unmarked)
    (success : Scan.nextToken.run first = (.ok told, firstAfter))
    (success' : Scan.nextToken.run second = (.ok told', secondAfter)) :
    told = told' ∧ InStep told firstAfter secondAfter := by
  have flags := congrArg Lexer.unsettled inStep.unplaced
  have flag : second.unsettled = first.unsettled := flags.symm
  cases settled : first.unsettled with
  | false =>
    exact inStep.scopedToken settled (scopedToken_of_nextToken settled success)
      (scopedToken_of_nextToken (flag.trans settled) success')
  | true =>
    obtain ⟨marked, found, marking, searching, telling⟩ := findScope_of_nextToken settled success
    obtain ⟨marked', found', marking', searching', telling'⟩ :=
      findScope_of_nextToken (flag.trans settled) success'
    cases inStep with
    | ended _ exhausted =>
      rw [Lexer.isExhausted, settled, Bool.not_true, Bool.and_false] at exhausted
      cases exhausted
    | enclosed _ _ _ _ known =>
      rw [settled] at known
      cases known
    | @between rest tail tail' outside pending follow abreast =>
      have left := (unmarked settled).1.takes abreast.left.honest marking
      have right := (unmarked settled).2.takes abreast.right.honest marking'
      have whole : Abreast ([] ++ rest) tail tail' first second := abreast
      have between := whole.takes (fun _ => List.not_mem_nil) left right
      have kinds : marked.kind ≠ .commentBegin := by
        rw [left.kind_eq]
        exact outside
      exact (between.findScope kinds pending follow searching searching').scopedToken
        (unsettled_of_findScope searching) telling telling'

theorem InStep.advance (inStep : InStep first.kind first second)
    (unmarked : first.unsettled = true → first.Unmarked ∧ second.Unmarked)
    (success : Scan.advance.run first = (.ok (), firstAfter))
    (success' : Scan.advance.run second = (.ok (), secondAfter)) :
    InStep firstAfter.kind firstAfter secondAfter := by
  have emptied : InStep first.kind { first with captured := [] } { second with captured := [] } :=
    @InStep.update _ _ _ ({ · with captured := [] }) inStep (fun _ => rfl) fun _ => rfl
  obtain ⟨kind, _, told, rfl⟩ := nextToken_of_advance success
  obtain ⟨kind', _, told', rfl⟩ := nextToken_of_advance success'
  have here : ({ first with captured := [] } : Lexer).unsettled = true →
      ({ first with captured := [] } : Lexer).Unmarked ∧
        ({ second with captured := [] } : Lexer).Unmarked := unmarked
  obtain ⟨rfl, later⟩ := emptied.nextToken here told told'
  exact @InStep.update _ _ _ ({ · with kind }) later (fun _ => rfl) fun _ => rfl

/-- Lexers in step over sources that never fail. No byte order mark is passed any more where the
scope is still to be found. -/
structure Paced (first second : Lexer) : Prop where
  inStep : InStep first.kind first second
  unmarked : first.unsettled = true → first.Unmarked ∧ second.Unmarked
  unfailingFirst : first.source.IsUnfailing
  unfailingSecond : second.source.IsUnfailing

theorem Paced.advance (paced : Paced first second) :
    ∃ firstAfter secondAfter, Scan.advance.run first = (.ok (), firstAfter) ∧
      Scan.advance.run second = (.ok (), secondAfter) ∧ Paced firstAfter secondAfter := by
  obtain ⟨firstAfter, success, unfailing⟩ := advance_of_isUnfailing paced.unfailingFirst
  obtain ⟨secondAfter, success', unfailing'⟩ := advance_of_isUnfailing paced.unfailingSecond
  have later := paced.inStep.advance paced.unmarked success success'
  refine ⟨firstAfter, secondAfter, success, success', later, fun unsettled => ?_, unfailing,
    unfailing'⟩
  have more : firstAfter.isExhausted = false := by
    rw [isExhausted, unsettled, Bool.not_true, Bool.and_false]
  have ends := congrArg Lexer.isExhausted later.unplaced
  have more' : secondAfter.isExhausted = false := ends.symm.trans more
  exact ⟨.inl (Nat.ne_zero_of_lt (offset_lt_of_advance success more)),
    .inl (Nat.ne_zero_of_lt (offset_lt_of_advance success' more'))⟩

theorem paced_close (first second : Lexer) : Paced first.close second.close where
  inStep := .ended rfl rfl rfl
  unmarked := nofun
  unfailingFirst := .close first.source
  unfailingSecond := .close second.source

/-- Lexers in step are not told apart but for positions. -/
theorem isEcho_paced : IsEcho Position.origin Paced where
  same _ _ paced := paced.inStep.unplaced
  advance _ _ paced := paced.advance
  close _ _ _ := paced_close _ _

end Lexer

/-! ### Layouts -/

section Layouts

variable {atoms : List Bytes} {text text' : Bytes} {source source' : Source}

/-- Where an atom begins the text, it is all before the lexer. -/
theorem Source.Delivers.remains {atom rest : Bytes} (delivers : source.Delivers (atom ++ rest))
    (noEscape : atom.head? ≠ some percent) : (Lexer.ofSource source).Remains atom rest :=
  ⟨delivers.honest, delivers.content, Nat.le_refl 0, fun escape => absurd escape noEscape⟩

/-- Lexers over two layouts of the same atoms begin in step. -/
theorem Bytes.LaysOut.paced (left : LaysOut atoms text) (right : LaysOut atoms text')
    (each : ∀ atom ∈ atoms, IsAtom atom) (delivers : source.Delivers text)
    (delivers' : source'.Delivers text') :
    Lexer.Paced (.ofSource source) (.ofSource source') := by
  cases atoms with
  | nil =>
    cases left
    cases right
    have abreast : Lexer.Abreast [] [] [] (.ofSource source) (.ofSource source') :=
      ⟨delivers.remains nofun, delivers'.remains nofun, rfl, nofun⟩
    refine ⟨.between nofun (.plain rfl) .none abreast, fun _ => ⟨.inr ?_, .inr ?_⟩,
      delivers.unfailing, delivers'.unfailing⟩
    · exact congrArg byteOrderMark.isPrefixOf delivers.content
    · exact congrArg byteOrderMark.isPrefixOf delivers'.content
  | cons atom atoms =>
    obtain ⟨rest, rest', rfl, rfl, follow⟩ :=
      left.follow right fun later member => each later (.tail _ member)
    have isAtom := each atom List.mem_cons_self
    have noEscape : atom.head? ≠ some percent := by
      obtain ⟨byte, others, rfl, other⟩ := isAtom.exists_head
      exact fun escape => other (Option.some.inj escape)
    have abreast : Lexer.Abreast atom rest rest' (.ofSource source) (.ofSource source') :=
      ⟨delivers.remains noEscape, delivers'.remains noEscape, rfl, nofun⟩
    refine ⟨.between nofun isAtom.pending follow abreast, fun _ => ⟨.inr ?_, .inr ?_⟩,
      delivers.unfailing, delivers'.unfailing⟩
    · exact (congrArg byteOrderMark.isPrefixOf delivers.content).trans
        (isAtom.unmarked follow.ends.1)
    · exact (congrArg byteOrderMark.isPrefixOf delivers'.content).trans
        (isAtom.unmarked follow.ends.2)

/-- The layout of a movetext does not matter: whatever separators stand between the same atoms, the
same tokens are told, and whatever the settings are, the same games are yielded and the same errors
are returned and recorded, but for positions. -/
theorem answers_of_layouts [Hashable HeaderPair] (each : ∀ atom ∈ atoms, IsAtom atom)
    (left : LaysOut atoms text) (right : LaysOut atoms text') (delivers : source.Delivers text)
    (delivers' : source'.Delivers text') :
    (∀ requests : List Lexer.Request,
      (Lexer.ofSource source).unplacedAnswers requests =
        (Lexer.ofSource source').unplacedAnswers requests) ∧
    ∀ (config : Config) (requests : List Reader.Request),
      (Reader.start config (.ofSource source)).unplacedAnswers requests =
        (Reader.start config (.ofSource source')).unplacedAnswers requests := by
  have paced := left.paced right each delivers delivers'
  refine ⟨Lexer.isEcho_paced.answers paced, fun config => ?_⟩
  have readers : Reader.Echoes Position.origin Lexer.Paced
      (.start config (.ofSource source)) (.start config (.ofSource source')) := ⟨paced, rfl, rfl⟩
  exact readers.answers Lexer.isEcho_paced

end Layouts

/-- A game of four atoms. -/
def Bytes.fourAtoms : List Bytes :=
  [.ofString "1.", .ofString "e4!", Comment.write (.ofString "a"), .ofString "1-0"]

open scoped PairHash

/-- Single spaces on one line, and an atom on each line with an escaped line between two of them. -/
theorem answers_of_layouts_fourAtoms :
    let tight := Bytes.ofString "1. e4! \x7ba\x7d 1-0"
    let wide := Bytes.ofString "1.\n%x\ne4!\n\x7ba\x7d\r\n1-0"
    (∀ atom ∈ fourAtoms, IsAtom atom) ∧ LaysOut fourAtoms tight ∧ LaysOut fourAtoms wide ∧
      (∀ requests : List Lexer.Request,
        (Lexer.ofSource (.ofBytes tight)).unplacedAnswers requests =
          (Lexer.ofSource (.ofBytes wide)).unplacedAnswers requests) ∧
      ∀ (config : Config) (requests : List Reader.Request),
        (Reader.start config (.ofSource (.ofBytes tight))).unplacedAnswers requests =
          (Reader.start config (.ofSource (.ofBytes wide))).unplacedAnswers requests := by
  intro tight wide
  have each : ∀ atom ∈ fourAtoms, IsAtom atom := by
    unfold fourAtoms
    simp only [List.forall_mem_cons]
    refine ⟨.plain ?_ ?_ ?_ ?_, .plain ?_ ?_ ?_ ?_, .comment ?_, .plain ?_ ?_ ?_ ?_, nofun⟩
    all_goals decide +kernel
  have blank : IsSeparator [space] := ⟨nofun, .space rfl .none⟩
  have feed : IsSeparator [lineFeed] := ⟨nofun, .space rfl .none⟩
  have broken : IsSeparator [carriageReturn, lineFeed] := ⟨nofun, .space rfl (.space rfl .none)⟩
  have escaped : IsSeparator [lineFeed, percent, 0x78, lineFeed] :=
    ⟨nofun, .space rfl (@IsSpacing.escape [0x78] [] (by decide) .none)⟩
  have left : LaysOut fourAtoms tight := by
    have spelled : tight = ofString "1." ++ ([space] ++ (ofString "e4!" ++ ([space] ++
        (Comment.write (ofString "a") ++ ([space] ++ ofString "1-0"))))) := by decide +kernel
    rw [spelled]
    exact .next blank (.next blank (.next blank (.last _)))
  have right : LaysOut fourAtoms wide := by
    have spelled : wide = ofString "1." ++ ([lineFeed, percent, 0x78, lineFeed] ++
        (ofString "e4!" ++ ([lineFeed] ++ (Comment.write (ofString "a") ++
          ([carriageReturn, lineFeed] ++ ofString "1-0"))))) := by decide +kernel
    rw [spelled]
    exact .next escaped (.next feed (.next broken (.last _)))
  have answers := answers_of_layouts each left right (.ofBytes tight) (.ofBytes wide)
  exact ⟨each, left, right, answers⟩

end Scoresheet
