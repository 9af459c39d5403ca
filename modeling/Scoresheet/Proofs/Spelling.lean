/-
This file says how each token is spelled: from where a lexer stands in front of the bytes of a token
it makes that token, and stands in front of the rest. White space may precede all tokens but the text
of a comment or a value and the blanks behind a header name. What follows matters only where a token
ends with a run: it has to be a byte that ends the run.
-/

import Scoresheet.Proofs.Standing

namespace Scoresheet

namespace Lexer

/-- A scan told a token of the kind with the given bytes, and stands in front of the rest. The kind
of the token before is still the current one. -/
structure Told (area : Area) (told kind : TokenKind) (span rest : Bytes) (found : TokenKind)
    (lexer : Lexer) : Prop where
  found : found = told
  stands : lexer.Stands area kind span rest

variable {area : Area} {told kind : TokenKind} {span text : Bytes} {lexer : Lexer}

/-- A token of the movetext may end the opening. -/
theorem Stands.closeOpening (stands : lexer.Stands area kind span text)
    (movetext : area = .between ∨ area = .opening ∨ area = .moves) :
    (lexer.closeOpening told).Stands (area.behind told) kind span text := by
  have holds := stands.holds
  have same : lexer.closeOpening told = { lexer with
      unsettled := (lexer.closeOpening told).unsettled
      opening := (lexer.closeOpening told).opening } := by
    unfold Lexer.closeOpening
    split
    · split <;> rfl
    · rfl
  have later : (area.behind told).Holds (lexer.closeOpening told) := by
    unfold Lexer.closeOpening Area.behind
    rcases movetext with rfl | rfl | rfl
    · simp only [Area.Holds] at holds ⊢
      split
      · split <;> first | rfl | exact holds
      · exact holds
    · obtain ⟨settled, scope, opening⟩ := holds
      rw [if_pos opening]
      cases told <;> simp [Area.Holds, settled, scope, opening]
    · obtain ⟨settled, scope, closed⟩ := holds
      rw [if_neg (by rw [closed]; exact Bool.false_ne_true)]
      exact ⟨settled, scope, closed⟩
  refine ⟨?_, ?_, later, ?_, ?_, ?_⟩
  · rw [same]
    exact stands.honest
  · rw [same]
    exact stands.content
  · rw [same]
    exact stands.kind
  · rw [same]
    exact stands.span
  · rw [same]
    exact stands.inLine

end Lexer

namespace Scan

open Lexer Ascii

variable {area last : Area} {told kind : TokenKind} {span made text run gap rest : Bytes}
  {byte : UInt8} {before first after : Lexer → Prop} {found : TokenKind → Lexer → Prop}

/-! ### From the scope to the token -/

/-- The next token begins without any bytes, and becomes the current one. -/
theorem leads_advance (fresh : ∀ lexer, before lexer → first { lexer with captured := [] })
    (token : nextToken.Leads first fun found lexer => after { lexer with kind := found }) :
    advance.Leads before fun _ => after := by
  have begins : (Scan.change ({ · with captured := [] })).Leads before fun _ => first :=
    .change fresh
  exact begins.bind fun _ => token.bind fun _ => .change fun _ holds => holds

theorem Stands.fresh {lexer : Lexer} (stands : lexer.Stands area kind span text) :
    Stands area kind [] text { lexer with captured := [] } :=
  { stands with holds := stands.holds.of_same rfl rfl rfl, span := rfl }

/-- A token that was told becomes the current one. -/
theorem leads_advance_of_told (fresh : ∀ lexer, before lexer → first { lexer with captured := [] })
    (token : nextToken.Leads first fun found lexer =>
      ∃ kind, lexer.Told last told kind made rest found) :
    advance.Leads before fun _ => Stands last told made rest := by
  refine leads_advance fresh (token.weaken (fun _ => id) ?_)
  rintro found lexer ⟨kind, rfl, stands⟩
  exact { stands with holds := stands.holds.of_same rfl rfl rfl, kind := rfl }

theorem leads_nextToken_of_settled (settled : ∀ lexer, before lexer → lexer.unsettled = false)
    (token : scopedToken.Leads before found) : nextToken.Leads before found :=
  .bind_look_of false settled token

/-- A text that does not begin like the mark has none. -/
theorem leads_passByteOrderMark (unmarked : text.head? ≠ some 0xEF) :
    passByteOrderMark.Leads (Stands area kind span text) fun _ => Stands area kind span text := by
  refine .bind_look fun offset => ?_
  split
  · refine leads_fill.bind fun _ => .change fun lexer faces => ?_
    have other : byteOrderMark.isPrefixOf lexer.source.buffer = false := by
      rw [faces.ready.isPrefixOf_buffer (by decide), faces.stands.content]
      cases text with
      | nil => rfl
      | cons byte rest =>
        have differ : (0xEF == byte) = false :=
          beq_eq_false_iff_ne.mpr fun equal => unmarked (congrArg some equal.symm)
        simp [byteOrderMark, List.isPrefixOf, differ]
    unfold Lexer.passMark
    rw [if_neg (by rw [other]; exact Bool.false_ne_true)]
    exact faces.stands
  · exact .pure fun _ stands => stands

theorem head_of_blank (blank : gap.all isSpace = true) (unmarked : text.head? ≠ some 0xEF) :
    (gap ++ text).head? ≠ some 0xEF := by
  cases gap with
  | nil => exact unmarked
  | cons first gap =>
    intro same
    have equal : first = 0xEF := Option.some.inj same
    rw [List.all_cons, equal] at blank
    exact Bool.false_ne_true blank

/-- The scope is found from the first byte behind white space, if there is one. -/
theorem leads_findScope {settled : Lexer → Prop} (blank : gap.all isSpace = true)
    (visible : rest.head?.any isSpace = false) (noEscape : rest.head? ≠ some percent)
    (settles : ∀ lexer : Lexer, lexer.Stands .entering kind [] rest →
      settled (lexer.settle rest.head?)) :
    findScope.Leads (Stands .between kind [] (gap ++ rest)) fun _ => settled := by
  have entered : (Scan.change ({ · with unsettled := false })).Leads
      (Stands .between kind [] (gap ++ rest)) fun _ => Stands .entering kind [] (gap ++ rest) :=
    .change fun _ stands => { stands with holds := rfl }
  refine entered.bind fun _ => (leads_passSpace (fun _ stands => stands) blank visible
    fun escape => absurd escape noEscape).bind fun next => .change ?_
  rintro lexer ⟨rfl, faces⟩
  exact settles lexer faces.stands

theorem settle_header {lexer : Lexer} (stands : lexer.Stands .entering kind span text) :
    (lexer.settle (some openBracket)).Stands .header kind span text :=
  { stands with holds := ⟨stands.holds, rfl⟩ }

theorem settle_movetext {lexer : Lexer} (opens : opensMovetext byte = true)
    (stands : lexer.Stands .entering kind span text) :
    (lexer.settle (some byte)).Stands .opening .undefined span text := by
  have other : byte ≠ openBracket :=
    ne_of_apply_ne opensMovetext (by rw [opens]; decide)
  unfold Lexer.settle
  dsimp only
  rw [if_neg other, if_pos (.inr opens)]
  exact { stands with holds := ⟨stands.holds, rfl, rfl⟩, kind := rfl }

/-- A byte that opens the movetext is neither white space nor a percent sign nor of a mark. -/
theorem visible_of_opensMovetext (opens : opensMovetext byte = true) :
    isSpace byte = false ∧ byte ≠ percent ∧ byte ≠ 0xEF := by
  have other (wrong : UInt8) (shuts : opensMovetext wrong = false) : byte ≠ wrong :=
    ne_of_apply_ne opensMovetext (by simp [opens, shuts])
  refine ⟨?_, other _ (by decide), other _ (by decide)⟩
  simp [isSpace, other _ (show opensMovetext space = false by decide),
    other _ (show opensMovetext tab = false by decide),
    other _ (show opensMovetext carriageReturn = false by decide),
    other _ (show opensMovetext lineFeed = false by decide)]

/-- Between the parts of an input the scope is found before the token. -/
theorem leads_nextToken_of_between {settled : Lexer → Prop} (blank : gap.all isSpace = true)
    (visible : rest.head?.any isSpace = false) (noEscape : rest.head? ≠ some percent)
    (unmarked : rest.head? ≠ some 0xEF)
    (settles : ∀ lexer : Lexer, lexer.Stands .entering kind [] rest →
      settled (lexer.settle rest.head?))
    (token : scopedToken.Leads settled found) :
    nextToken.Leads (Stands .between kind [] (gap ++ rest)) found :=
  .bind_look_of true (fun _ stands => stands.unsettled)
    ((leads_passByteOrderMark (head_of_blank blank unmarked)).bind fun _ =>
      (leads_findScope blank visible noEscape settles).bind fun _ => token)

/-- Nothing but white space is the end of the input. -/
theorem advance_end (blank : gap.all isSpace = true) :
    advance.Leads (Stands .between kind span gap) fun _ lexer => lexer.isExhausted = true := by
  have ended : scopedToken.Leads (fun lexer => lexer.scope = .outside ∧ lexer.unsettled = false)
      fun found lexer => { lexer with kind := found }.isExhausted = true := by
    refine .bind_look_of .outside (fun _ outside => outside.1) ?_
    rintro lexer later found _ success
    cases success
    rfl
  have token := @leads_nextToken_of_between kind gap [] _ _ blank rfl nofun nofun
    (fun lexer stands => ⟨rfl, stands.holds⟩) ended
  rw [List.append_nil] at token
  exact leads_advance (fun _ => Stands.fresh) token

theorem leads_delimiter : (delimiter told).Leads (Faces area kind span (byte :: rest))
    (Told area told kind span rest) :=
  leads_pass.bind fun _ => .pure fun _ passed => ⟨rfl, passed.1⟩

/-- The closing byte at once. -/
theorem leads_quotedToken_close {closing : UInt8} {other : TokenKind} :
    (quotedToken closing other told).Leads (Stands area kind span (closing :: rest))
      (Told area told kind span rest) := by
  refine leads_markStart.bind fun _ => leads_peek.bind fun next => ?_
  rintro lexer later shown ⟨rfl, faces⟩
  simp only [List.head?_cons, if_true]
  exact leads_delimiter lexer later shown faces

/-- Text in front of the closing byte. -/
theorem leads_quotedToken_text {closing : UInt8} {other : TokenKind}
    (enclosable : text.isEnclosable closing = true) (some : text ≠ []) :
    (quotedToken closing told other).Leads (Stands area kind [] (text ++ closing :: rest))
      (Told area told kind text (closing :: rest)) := by
  refine leads_markStart.bind fun _ => leads_peek.bind fun next => ?_
  obtain ⟨byte, tail, rfl⟩ := List.exists_cons_of_ne_nil some
  have onward : byte ≠ closing := by
    cases tail <;> simp_all [Bytes.isEnclosable]
  rintro lexer later shown ⟨rfl, faces⟩
  simp only [List.cons_append, List.head?_cons, if_neg onward]
  exact ((leads_captureQuoted enclosable).bind fun _ =>
    Leads.pure fun _ stands => ⟨rfl, stands⟩) lexer later shown faces.stands

/-! ### The header section -/

theorem leads_scopedToken_header (scope : ∀ lexer, before lexer → lexer.scope = .header)
    (token : headerToken.Leads before found) : scopedToken.Leads before found :=
  .bind_look_of .header scope token

theorem leads_advance_header (fresh : ∀ lexer, before lexer → first { lexer with captured := [] })
    (header : ∀ lexer, first lexer → Area.header.Holds lexer)
    (token : headerToken.Leads first fun found lexer =>
      ∃ kind, lexer.Told last told kind made rest found) :
    advance.Leads before fun _ => Stands last told made rest :=
  leads_advance_of_told fresh (leads_nextToken_of_settled (fun lexer holds => (header lexer holds).1)
    (leads_scopedToken_header (fun lexer holds => (header lexer holds).2) token))

/-- Elsewhere than behind a name or an opening quote, white space may precede the token. -/
theorem leads_headerToken (kind : TokenKind) (gap : Bytes)
    (aside : kind ≠ .valueBegin ∧ kind ≠ .headerName)
    (stands : ∀ lexer, before lexer → lexer.Stands .header kind span (gap ++ byte :: rest))
    (blank : gap.all isSpace = true) (visible : isSpace byte = false)
    (plain : byte = percent → ∀ lexer, before lexer →
      (lexer.place.pass gap).atLineStart = false)
    (each : (headerTokenAt byte).Leads (Faces .header kind span (byte :: rest)) found) :
    headerToken.Leads before found := by
  refine .bind_look_of kind (fun lexer holds => (stands lexer holds).kind) ?_
  split
  · exact absurd rfl aside.1
  · exact absurd rfl aside.2
  · exact leads_spacedToken stands blank visible plain each

/-- An opening bracket behind white space. It is not the last byte of its line. -/
theorem advance_openBracket (blank : gap.all isSpace = true)
    (aside : kind ≠ .valueBegin ∧ kind ≠ .headerName) :
    advance.Leads (Stands .between kind span (gap ++ openBracket :: rest)) fun _ lexer =>
      lexer.Stands .header .headerBegin [] rest ∧ lexer.place.atLineStart = false := by
  refine leads_advance (fun _ stands => Stands.fresh stands)
    (leads_nextToken_of_between blank rfl (fun escape => absurd (Option.some.inj escape) (by decide))
      (fun mark => absurd (Option.some.inj mark) (by decide)) (fun _ stands => settle_header stands)
      (leads_scopedToken_header (fun _ stands => stands.holds.2)
        (leads_headerToken kind [] aside (fun _ stands => stands) rfl (by decide)
          (fun escape => absurd escape (by decide)) (.bind_look fun _ => ?_))))
  refine leads_pass.bind fun _ => .pure fun lexer passed => ⟨?_, passed.2 (by decide)⟩
  exact { passed.1 with holds := passed.1.holds.of_same rfl rfl rfl, kind := rfl }

/-- A name ends before the first byte that no name holds. -/
theorem advance_name (some : text ≠ []) (all : text.all HeaderPair.isNameByte = true)
    (stopped : rest.head?.any HeaderPair.isNameByte = false) :
    advance.Leads (fun lexer => lexer.Stands .header .headerBegin span (text ++ rest) ∧
        lexer.place.atLineStart = false)
      fun _ => Stands .header .headerName text rest := by
  obtain ⟨byte, tail, rfl⟩ := List.exists_cons_of_ne_nil some
  have nameByte : HeaderPair.isNameByte byte = true := by
    rw [List.all_cons, Bool.and_eq_true] at all
    exact all.1
  simp only [HeaderPair.isNameByte, Bool.not_eq_true', Bool.or_eq_false_iff, beq_eq_false_iff_ne]
    at nameByte
  obtain ⟨⟨⟨visible, noQuote⟩, noClosing⟩, noOpening⟩ := nameByte
  have named : (headerTokenAt byte).Leads
      (Faces .header .headerBegin [] (byte :: tail ++ rest))
      fun found lexer => ∃ kind, lexer.Told .header .headerName kind (byte :: tail) rest found := by
    refine .bind_look_of .headerBegin (fun _ faces => faces.stands.kind) ?_
    rw [if_neg noOpening, if_neg noClosing, if_neg noQuote]
    have run := @leads_captureUntil .header .headerBegin [] _ _
      (fun next => isSpace next || next == quote || next == closeBracket || next == openBracket)
      all stopped
    exact (run.weaken (fun _ faces => faces.stands) fun _ _ => id).bind fun _ =>
      .pure fun _ stands => ⟨_, rfl, stands⟩
  have header : headerToken.Leads
      (fun lexer => lexer.Stands .header .headerBegin [] (byte :: tail ++ rest) ∧
        lexer.place.atLineStart = false)
      fun found lexer => ∃ kind, lexer.Told .header .headerName kind (byte :: tail) rest found :=
    leads_headerToken .headerBegin [] ⟨nofun, nofun⟩ (fun _ holds => holds.1) rfl visible
      (fun _ _ holds => holds.2) named
  exact leads_advance_header (fun _ holds => ⟨Stands.fresh holds.1, holds.2⟩)
    (fun _ holds => holds.1.holds) header

/-- The blank behind a name. -/
theorem advance_separator :
    advance.Leads (Stands .header .headerName span (space :: quote :: rest))
      fun _ => Stands .header .separator [space] (quote :: rest) := by
  have run := @leads_captureUntil .header .headerName [] [space] (quote :: rest) (!isBlank ·)
    (by decide) rfl
  have blanks : separatorToken.Leads (Stands .header .headerName [] (space :: quote :: rest))
      fun found lexer => ∃ kind, lexer.Told .header .separator kind [space] (quote :: rest) found :=
    leads_markStart.bind fun _ => run.bind fun _ => .pure fun _ stands => ⟨_, rfl, stands⟩
  refine leads_advance_header (fun _ => Stands.fresh) (fun _ stands => stands.holds)
    (.bind_look_of .headerName (fun _ stands => stands.kind) (leads_peek.bind fun next => ?_))
  rintro lexer later found ⟨rfl, faces⟩
  exact blanks lexer later found faces.stands

/-- A quote where no value was read opens one, and it closes one behind a value. -/
theorem leads_headerTokenAt_quote :
    (headerTokenAt quote).Leads (Faces .header kind span (quote :: rest))
      (Told .header (if kind = .value then .valueEnd else .valueBegin) kind span rest) :=
  .bind_look_of kind (fun _ faces => faces.stands.kind) leads_delimiter

theorem advance_quote (aside : kind ≠ .valueBegin ∧ kind ≠ .headerName) :
    advance.Leads (Stands .header kind span (quote :: rest))
      fun _ => Stands .header (if kind = .value then .valueEnd else .valueBegin) [] rest :=
  leads_advance_header (fun _ => Stands.fresh) (fun _ stands => stands.holds)
    ((leads_headerToken kind [] aside (fun _ stands => stands) rfl (by decide)
      (fun escape => absurd escape (by decide)) leads_headerTokenAt_quote).weaken (fun _ => id)
        fun _ _ told => ⟨_, told⟩)

/-- A value that is not empty. -/
theorem advance_value (enclosable : text.isEnclosable quote = true) (some : text ≠ []) :
    advance.Leads (Stands .header .valueBegin span (text ++ quote :: rest))
      fun _ => Stands .header .value text (quote :: rest) :=
  leads_advance_header (fun _ => Stands.fresh) (fun _ stands => stands.holds)
    (.bind_look_of .valueBegin (fun _ stands => stands.kind)
      ((leads_quotedToken_text enclosable some).weaken (fun _ => id) fun _ _ told => ⟨_, told⟩))

/-- The closing quote of an empty value. -/
theorem advance_closeQuote :
    advance.Leads (Stands .header .valueBegin span (quote :: rest))
      fun _ => Stands .header .valueEnd [] rest :=
  leads_advance_header (fun _ => Stands.fresh) (fun _ stands => stands.holds)
    (.bind_look_of .valueBegin (fun _ stands => stands.kind)
      (leads_quotedToken_close.weaken (fun _ => id) fun _ _ told => ⟨_, told⟩))

theorem advance_closeBracket :
    advance.Leads (Stands .header .valueEnd span (closeBracket :: rest))
      fun _ => Stands .between .headerEnd [] rest := by
  have leaves : (Scan.change ({ · with unsettled := true })).Leads
      (fun lexer => lexer.Stands .header .valueEnd [] rest ∧
        (closeBracket ≠ lineFeed → lexer.place.atLineStart = false))
      fun _ => Stands .between .valueEnd [] rest :=
    .change fun _ passed => { passed.1 with holds := rfl }
  have bracket : (headerTokenAt closeBracket).Leads
      (Faces .header .valueEnd [] (closeBracket :: rest))
      fun found lexer => ∃ kind, lexer.Told .between .headerEnd kind [] rest found :=
    .bind_look fun _ => leads_pass.bind fun _ => leaves.bind fun _ =>
      .pure fun _ stands => ⟨_, rfl, stands⟩
  exact leads_advance_header (fun _ => Stands.fresh) (fun _ stands => stands.holds)
    (leads_headerToken .valueEnd [] ⟨nofun, nofun⟩ (fun _ stands => stands) rfl (by decide)
      (fun escape => absurd escape (by decide)) bracket)

/-! ### The movetext -/

/-- Inside the movetext a token may end the opening once it is told. -/
theorem leads_scopedToken_movetext (inside : area = .opening ∨ area = .moves)
    (left : last = .between ∨ last = area)
    (token : movetextToken.Leads (Stands area kind [] text) (Told last told kind made rest)) :
    scopedToken.Leads (Stands area kind [] text) fun found lexer =>
      ∃ kind, lexer.Told (last.behind told) told kind made rest found := by
  have movetext : last = .between ∨ last = .opening ∨ last = .moves := by
    rcases left with rfl | rfl
    · exact .inl rfl
    · exact .inr inside
  refine .bind_look_of .movetext (fun _ stands => (stands.settled inside).2)
    (token.bind fun found => ?_)
  have closes : (Scan.change (Lexer.closeOpening found)).Leads
      (Told last told kind made rest found)
      fun _ lexer => lexer.Told (last.behind told) told kind made rest found :=
    .change fun _ holds => ⟨holds.found, holds.found ▸ holds.stands.closeOpening movetext⟩
  exact closes.bind fun _ => .pure fun _ holds => ⟨_, holds⟩

theorem leads_advance_inside (inside : area = .opening ∨ area = .moves)
    (left : last = .between ∨ last = area)
    (token : movetextToken.Leads (Stands area kind [] text) (Told last told kind made rest)) :
    advance.Leads (Stands area kind span text)
      fun _ => Stands (last.behind told) told made rest :=
  leads_advance_of_told (fun _ => Stands.fresh)
    (leads_nextToken_of_settled (fun _ stands => (stands.settled inside).1)
      (leads_scopedToken_movetext inside left token))

/-- Elsewhere than behind an opening brace, white space may precede the token. -/
theorem leads_movetextToken (aside : kind ≠ .commentBegin) (blank : gap.all isSpace = true)
    (visible : isSpace byte = false) (plain : byte = percent → gap = [space])
    (each : (movetextTokenAt byte).Leads (Faces area kind span (byte :: text)) found) :
    movetextToken.Leads (Stands area kind span (gap ++ byte :: text)) found := by
  refine .bind_look_of kind (fun _ stands => stands.kind) ?_
  rw [if_neg aside]
  refine leads_spacedToken (fun _ stands => stands) blank visible (fun escape lexer stands => ?_) each
  rw [plain escape]
  have within : space ≠ lineFeed := by decide
  exact Place.atLineStart_next stands.inLine within

/-- A token inside the movetext. -/
theorem advance_inside (inside : area = .opening ∨ area = .moves) (aside : kind ≠ .commentBegin)
    (blank : gap.all isSpace = true) (visible : isSpace byte = false)
    (plain : byte = percent → gap = [space]) (left : last = .between ∨ last = area)
    (each : (movetextTokenAt byte).Leads (Faces area kind [] (byte :: text))
      (Told last told kind made rest)) :
    advance.Leads (Stands area kind span (gap ++ byte :: text))
      fun _ => Stands (last.behind told) told made rest :=
  leads_advance_inside inside left (leads_movetextToken aside blank visible plain each)

/-- The first token of a movetext. -/
theorem advance_entering (opens : opensMovetext byte = true) (blank : gap.all isSpace = true)
    (left : last = .between ∨ last = .opening)
    (each : (movetextTokenAt byte).Leads (Faces .opening .undefined [] (byte :: text))
      (Told last told .undefined made rest)) :
    advance.Leads (Stands .between kind span (gap ++ byte :: text))
      fun _ => Stands (last.behind told) told made rest := by
  obtain ⟨visible, noEscape, unmarked⟩ := visible_of_opensMovetext opens
  exact leads_advance_of_told (fun _ => Stands.fresh)
    (leads_nextToken_of_between blank visible (fun escape => noEscape (Option.some.inj escape))
      (fun mark => unmarked (Option.some.inj mark)) (fun _ => settle_movetext opens)
      (leads_scopedToken_movetext (.inl rfl) left
        (@leads_movetextToken _ _ _ _ [] _ _ nofun rfl visible
          (fun escape => absurd escape noEscape) each)))

end Scan

/-- Whether the movetext begins or goes on here, behind a token of the given kind. -/
def Area.GoesOn (area : Area) (kind : TokenKind) : Prop :=
  area = .between ∨ area = .moves ∧ kind ≠ .commentBegin

namespace Scan

open Lexer Ascii

variable {area last : Area} {told kind : TokenKind} {span made text run gap rest : Bytes}
  {byte : UInt8}

/-- A token that can be the first of a movetext, or any other. -/
theorem advance_movetext (goesOn : area.GoesOn kind) (opens : opensMovetext byte = true)
    (blank : gap.all isSpace = true) (left : last = .between ∨ last = area.entered)
    (each : ∀ kind, (movetextTokenAt byte).Leads (Faces area.entered kind [] (byte :: text))
      (Told last told kind made rest)) :
    advance.Leads (Stands area kind span (gap ++ byte :: text))
      fun _ => Stands (last.behind told) told made rest := by
  obtain ⟨visible, noEscape, _⟩ := visible_of_opensMovetext opens
  rcases goesOn with rfl | ⟨rfl, aside⟩
  · exact advance_entering opens blank left (each _)
  · exact advance_inside (.inr rfl) aside blank visible (fun escape => absurd escape noEscape) left
      (each kind)

/-! ### Delimiters and comments -/

theorem leads_movetextTokenAt_delimiter (found : delimiterKind? byte = some told) :
    (movetextTokenAt byte).Leads (Faces area kind span (byte :: rest))
      (Told area told kind span rest) := by
  unfold Scan.movetextTokenAt
  rw [found]
  exact leads_delimiter

theorem advance_openBrace (goesOn : area.GoesOn kind) (blank : gap.all isSpace = true) :
    advance.Leads (Stands area kind span (gap ++ openBrace :: rest))
      fun _ => Stands (area.entered.behind .commentBegin) .commentBegin [] rest :=
  advance_movetext goesOn (by decide) blank (.inr rfl)
    fun _ => leads_movetextTokenAt_delimiter rfl

/-- The text of a comment that is not empty. -/
theorem advance_comment (inside : area = .opening ∨ area = .moves)
    (enclosable : text.isEnclosable closeBrace = true) (some : text ≠ []) :
    advance.Leads (Stands area .commentBegin span (text ++ closeBrace :: rest))
      fun _ => Stands (area.behind .comment) .comment text (closeBrace :: rest) :=
  leads_advance_inside inside (.inr rfl) (.bind_look_of .commentBegin
    (fun _ stands => stands.kind) (leads_quotedToken_text enclosable some))

/-- The closing brace, behind the text of a comment or behind the opening brace. -/
theorem advance_closeBrace (inside : area = .opening ∨ area = .moves)
    (behind : kind = .commentBegin ∨ kind = .comment) :
    advance.Leads (Stands area kind span (closeBrace :: rest))
      fun _ => Stands (area.behind .commentEnd) .commentEnd [] rest := by
  rcases behind with rfl | rfl
  · exact leads_advance_inside inside (.inr rfl)
      (.bind_look_of .commentBegin (fun _ stands => stands.kind) leads_quotedToken_close)
  · exact @advance_inside _ _ _ _ _ _ _ [] _ _ inside nofun rfl (by decide)
      (fun escape => absurd escape (by decide)) (.inr rfl) (leads_movetextTokenAt_delimiter rfl)

/-- A parenthesis. -/
theorem advance_paren (aside : kind ≠ .commentBegin) (blank : gap.all isSpace = true)
    (paren : byte = openParen ∧ told = .variationBegin ∨ byte = closeParen ∧ told = .variationEnd) :
    advance.Leads (Stands .moves kind span (gap ++ byte :: rest))
      fun _ => Stands .moves told [] rest := by
  rcases paren with ⟨rfl, rfl⟩ | ⟨rfl, rfl⟩ <;>
    exact advance_inside (.inr rfl) aside blank (by decide) (fun escape => absurd escape (by decide))
      (.inr rfl) (leads_movetextTokenAt_delimiter rfl)

/-! ### Runs -/

theorem isDelimiter_of_isDigit (digit : isDigit byte = true) : isDelimiter byte = false := by
  refine Bool.eq_false_iff.mpr fun shuts => ?_
  simp only [isDelimiter, isSpace, Bool.or_eq_true, beq_iff_eq] at shuts
  repeat' rcases shuts with shuts | shuts
  all_goals exact Bool.false_ne_true digit

/-- A byte that can stand inside a run and begins no annotation begins a digit token or a move. -/
theorem movetextTokenAt_inside (inside : isDelimiter byte = false)
    (noGlyph : ¬ (byte = exclamation ∨ byte = question)) :
    movetextTokenAt byte = if isDigit byte then digitToken else moveToken := by
  have other {wrong : UInt8} (shuts : isDelimiter wrong = true) : byte ≠ wrong :=
    ne_of_apply_ne isDelimiter (by simp [inside, shuts])
  have noDelimiter : delimiterKind? byte = none := by
    unfold delimiterKind?
    rw [if_neg (other (by decide)), if_neg (other (by decide)), if_neg (other (by decide)),
      if_neg (other (by decide))]
  unfold Scan.movetextTokenAt
  rw [noDelimiter]
  dsimp only
  rw [if_neg (other (by decide)), if_neg (other (by decide)), if_neg noGlyph,
    if_neg (other (by decide)), if_neg (other (by decide)),
    if_neg (not_or.mpr ⟨other (by decide), not_or.mpr ⟨other (by decide), other (by decide)⟩⟩)]

/-- A digit begins a number or a marker. -/
theorem movetextTokenAt_digit (digit : isDigit byte = true) :
    movetextTokenAt byte = digitToken := by
  rw [movetextTokenAt_inside (isDelimiter_of_isDigit digit), if_pos digit]
  rintro (rfl | rfl)
  · exact Bool.false_ne_true digit
  · exact Bool.false_ne_true digit

/-- What may follow the digits of a move number: a dot, or white space in front of one. -/
def endsNumber (byte : UInt8) : Bool := byte == dot || isSpace byte

theorem ne_of_endsNumber {byte wrong : UInt8} (ends : endsNumber byte = true)
    (other : endsNumber wrong = false) : byte ≠ wrong :=
  ne_of_apply_ne endsNumber (by simp [ends, other])

/-- A byte behind a number can stand in none of the tokens that begin like one. -/
theorem endsNumber_spec {byte : UInt8} (ends : endsNumber byte = true) :
    isDigit byte = false ∧ ¬ (byte = minus ∨ isLetter byte = true) := by
  simp only [endsNumber, isSpace, Bool.or_eq_true, beq_iff_eq] at ends
  rcases ends with rfl | (((rfl | rfl) | rfl) | rfl) <;> decide

/-- Digits in front of a dot or of white space begin like no marker. -/
theorem find?_numericMarkers_of_digits {digits : Bytes} (all : digits.all isDigit = true)
    (some : digits ≠ []) (ends : endsNumber byte = true) :
    numericMarkers.find? (·.isPrefixOf (digits ++ byte :: rest)) = none := by
  have other {wrong : UInt8} (letter : isDigit wrong = false) {byte : UInt8}
      (digit : isDigit byte = true) : (wrong == byte) = false :=
    beq_eq_false_iff_ne.mpr (ne_of_apply_ne isDigit (by simp [letter, digit]))
  match digits, some with
  | [first], _ =>
    have noSlash : slash ≠ byte := (ne_of_endsNumber ends (by decide)).symm
    have noMinus : minus ≠ byte := (ne_of_endsNumber ends (by decide)).symm
    simp [numericMarkers, Outcome.marker, noSlash, noMinus]
  | first :: second :: more, _ =>
    simp only [List.all_cons, Bool.and_eq_true] at all
    obtain ⟨_, digit, _⟩ := all
    simp [numericMarkers, Outcome.marker, List.isPrefixOf,
      other (show isDigit slash = false by decide) digit,
      other (show isDigit minus = false by decide) digit]

theorem find?_numericMarkers_of_marker (outcome : Outcome) (numeric : outcome ≠ .unknown) :
    numericMarkers.find? (·.isPrefixOf (outcome.marker ++ rest)) = some outcome.marker := by
  cases outcome with
  | unknown => exact absurd rfl numeric
  | _ => rfl

/-- The markers are looked for in what is in sight. -/
theorem leads_look_marker {marker : Option Bytes}
    (next : numericMarkers.find? (·.isPrefixOf text) = marker) :
    (Scan.look (·.source.buffer)).Leads (Faces area kind span text) fun buffer lexer =>
      numericMarkers.find? (·.isPrefixOf buffer) = marker ∧
        lexer.Faces area kind span text := by
  refine .look fun lexer faces => ⟨?_, faces⟩
  have each (outcome : Outcome) :
      outcome.marker.isPrefixOf lexer.source.buffer = outcome.marker.isPrefixOf text := by
    rw [faces.ready.isPrefixOf_buffer (by cases outcome <;> decide), faces.stands.content]
  rw [← next]
  simp only [numericMarkers, List.find?, each]

/-- The bytes that go on behind digits, with more of them or with a move. -/
def continuesNumber (byte : UInt8) : Bool := isDigit byte || (byte == minus || isLetter byte)

theorem leads_digitToken_number {digits : Bytes} (all : digits.all isDigit = true)
    (unmarked : numericMarkers.find? (·.isPrefixOf (digits ++ rest)) = none)
    (stopped : rest.head?.any continuesNumber = false) :
    digitToken.Leads (Faces area kind [] (digits ++ rest))
      (Told area .moveNumber kind digits rest) := by
  have noDigit : rest.head?.any isDigit = false := by
    cases rest <;> simp_all [continuesNumber]
  refine (leads_look_marker unmarked).bind fun buffer => ?_
  rintro lexer later found ⟨none, faces⟩
  rw [none]
  have run := @leads_captureUntil area kind [] digits rest (!isDigit ·)
    (by simpa using all) (by simpa using noDigit)
  refine (run.bind fun _ => leads_peek.bind fun next => ?_) lexer later found faces.stands
  rintro lexer later found ⟨rfl, faces⟩ success
  have told : behindDigits rest.head? = (return .moveNumber) := by
    unfold Scan.behindDigits
    cases rest with
    | nil => rfl
    | cons byte rest =>
      have noMove : ¬ (byte = minus ∨ isLetter byte = true) := by
        simp_all [continuesNumber]
      exact if_neg noMove
  rw [told] at success
  cases success
  exact ⟨rfl, faces.stands⟩

/-- Digits are a number if no marker is written with them and nothing goes on behind them. -/
theorem advance_digits {digits : Bytes} (goesOn : area.GoesOn kind)
    (blank : gap.all isSpace = true) (all : digits.all isDigit = true) (some : digits ≠ [])
    (unmarked : numericMarkers.find? (·.isPrefixOf (digits ++ rest)) = none)
    (stopped : rest.head?.any continuesNumber = false) :
    advance.Leads (Stands area kind span (gap ++ (digits ++ rest)))
      fun _ => Stands .moves .moveNumber digits rest := by
  obtain ⟨first, tail, rfl⟩ := List.exists_cons_of_ne_nil some
  have digit : isDigit first = true := by
    rw [List.all_cons, Bool.and_eq_true] at all
    exact all.1
  have behind : area.entered.behind .moveNumber = .moves := by
    rcases goesOn with rfl | ⟨rfl, _⟩ <;> rfl
  rw [← behind]
  refine advance_movetext goesOn ?_ blank (.inr rfl) fun _ => ?_
  · rw [opensMovetext, digit]
    rfl
  · rw [movetextTokenAt_digit digit]
    exact leads_digitToken_number all unmarked stopped

theorem advance_number {digits : Bytes} (goesOn : area.GoesOn kind)
    (blank : gap.all isSpace = true) (all : digits.all isDigit = true) (some : digits ≠ [])
    (ends : endsNumber byte = true) :
    advance.Leads (Stands area kind span (gap ++ (digits ++ byte :: rest)))
      fun _ => Stands .moves .moveNumber digits (byte :: rest) := by
  obtain ⟨noDigit, noMove⟩ := endsNumber_spec ends
  refine advance_digits goesOn blank all some (find?_numericMarkers_of_digits all some ends) ?_
  simpa [continuesNumber, noDigit] using noMove

/-- The dots behind a number. -/
theorem advance_dots (some : run ≠ []) (all : run.all (· == dot) = true)
    (stopped : rest.head?.any (· == dot) = false) (aside : kind ≠ .commentBegin)
    (blank : gap.all isSpace = true) :
    advance.Leads (Stands .moves kind span (gap ++ (run ++ rest)))
      fun _ => Stands .moves (if run = [dot] then .dot else .ellipsis) run rest := by
  have kept := @leads_captureUntil .moves kind [] run rest (· != dot)
    (by simpa [bne] using all) (by simpa [bne] using stopped)
  have dots : (movetextTokenAt dot).Leads (Faces .moves kind [] (run ++ rest))
      (Told .moves (if run = [dot] then .dot else .ellipsis) kind run rest) := by
    refine (kept.weaken (fun _ faces => faces.stands) fun _ _ => id).bind fun _ =>
      .bind_look_of run.reverse (fun lexer stands => ?_) (.pure fun lexer stands => ⟨?_, stands⟩)
    · rw [← List.reverse_reverse lexer.captured]
      exact congrArg List.reverse stands.span
    · simp [List.reverse_eq_iff]
  obtain ⟨byte, tail, rfl⟩ := List.exists_cons_of_ne_nil some
  have equal : byte = dot := by
    rw [List.all_cons, Bool.and_eq_true, beq_iff_eq] at all
    exact all.1
  subst equal
  exact advance_inside (.inr rfl) aside blank (by decide)
    (fun escape => absurd escape (by decide)) (.inr rfl) dots

/-- What a move can begin with begins a move, if it can stand in one. -/
theorem movetextTokenAt_move (first : Move.isFirstByte byte = true)
    (inside : isDelimiter byte = false) : movetextTokenAt byte = moveToken := by
  simp only [Move.isFirstByte, Bool.not_eq_true', Bool.or_eq_false_iff, beq_eq_false_iff_ne]
    at first
  obtain ⟨⟨noDigit, noExclamation⟩, noQuestion⟩ := first
  rw [movetextTokenAt_inside inside (not_or.mpr ⟨noExclamation, noQuestion⟩),
    if_neg (Bool.eq_false_iff.mp noDigit)]

/-- The text of a move is one by the token before it. -/
theorem advance_move (isMove : Move.isMoveText text = true)
    (stopped : rest.head?.any (!isDelimiter ·) = false) (aside : kind ≠ .commentBegin)
    (blank : gap.all isSpace = true) (plain : text.head? = some percent → gap = [space]) :
    advance.Leads (Stands .moves kind span (gap ++ (text ++ rest)))
      fun _ => Stands .moves kind.moveKindAfter text rest := by
  simp only [Move.isMoveText, Bool.and_eq_true, Bool.not_eq_true'] at isMove
  obtain ⟨⟨begins, all⟩, noGlyph⟩ := isMove
  have kept := @leads_captureUntil .moves kind [] text rest isDelimiter all stopped
  have move : moveToken.Leads (Faces .moves kind [] (text ++ rest))
      (Told .moves kind.moveKindAfter kind text rest) := by
    refine (kept.weaken (fun _ faces => faces.stands) fun _ _ => id).bind fun _ =>
      .bind_look_of text (fun _ stands => stands.span) ?_
    rw [if_neg (Bool.eq_false_iff.mp noGlyph)]
    exact .look fun _ stands => ⟨congrArg TokenKind.moveKindAfter stands.kind, stands⟩
  obtain ⟨byte, tail, rfl⟩ : ∃ byte tail, text = byte :: tail := by
    cases text with
    | nil => cases begins
    | cons byte tail => exact ⟨byte, tail, rfl⟩
  have inside : isDelimiter byte = false := by simp_all
  have visible : isSpace byte = false := by
    simp only [isDelimiter, Bool.or_eq_false_iff] at inside
    simp [inside]
  rw [← movetextTokenAt_move begins inside] at move
  exact advance_inside (.inr rfl) aside blank visible
    (fun escape => plain (congrArg some escape)) (.inr rfl) move

/-- A code behind a dollar sign. -/
theorem advance_nag {code : Bytes} (all : code.all (!isDelimiter ·) = true)
    (stopped : rest.head?.any (!isDelimiter ·) = false) (aside : kind ≠ .commentBegin)
    (blank : gap.all isSpace = true) :
    advance.Leads (Stands .moves kind span (gap ++ (dollar :: code ++ rest)))
      fun _ => Stands .moves .nag (dollar :: code) rest := by
  have sign := @leads_capture .moves kind [] [dollar] (code ++ rest) (by decide)
  have kept := @leads_captureUntil .moves kind [dollar] code rest isDelimiter all stopped
  have nag : (movetextTokenAt dollar).Leads (Faces .moves kind [] (dollar :: code ++ rest))
      (Told .moves .nag kind (dollar :: code) rest) :=
    sign.bind fun _ => kept.bind fun _ => .pure fun _ stands => ⟨rfl, stands⟩
  exact advance_inside (.inr rfl) aside blank (by decide)
    (fun escape => absurd escape (by decide)) (.inr rfl) nag

/-- The bytes that marks are made of. -/
def isMark (byte : UInt8) : Bool := byte == exclamation || byte == question

/-- Marks up to the first other byte. -/
theorem advance_marks (some : run ≠ []) (all : run.all isMark = true)
    (stopped : rest.head?.any isMark = false) (aside : kind ≠ .commentBegin)
    (blank : gap.all isSpace = true) :
    advance.Leads (Stands .moves kind span (gap ++ (run ++ rest)))
      fun _ => Stands .moves .nag run rest := by
  obtain ⟨byte, tail, rfl⟩ := List.exists_cons_of_ne_nil some
  have mark : byte = exclamation ∨ byte = question := by
    simp only [List.all_cons, Bool.and_eq_true, isMark, Bool.or_eq_true, beq_iff_eq] at all
    exact all.1
  have kept := @leads_captureUntil .moves kind [] (byte :: tail) rest
    (fun next => !(next == exclamation || next == question)) (by simpa [isMark] using all)
    (by rw [← stopped]; cases rest <;> simp [isMark])
  have marks : (movetextTokenAt byte).Leads (Faces .moves kind [] (byte :: tail ++ rest))
      (Told .moves .nag kind (byte :: tail) rest) := by
    have begins : movetextTokenAt byte = (do
        captureUntil fun next => !(next == exclamation || next == question)
        return .nag) := by
      rcases mark with rfl | rfl <;> rfl
    rw [begins]
    exact (kept.weaken (fun _ faces => faces.stands) fun _ _ => id).bind fun _ =>
      .pure fun _ stands => ⟨rfl, stands⟩
  exact advance_inside (.inr rfl) aside blank (by rcases mark with rfl | rfl <;> rfl)
    (by rcases mark with rfl | rfl <;> exact fun escape => absurd escape (by decide)) (.inr rfl)
    marks

/-- A glyph that stands alone. -/
theorem advance_glyph (standalone : text ∈ standaloneGlyphs)
    (stopped : rest.head?.any (!isDelimiter ·) = false) (aside : kind ≠ .commentBegin)
    (blank : gap.all isSpace = true) :
    advance.Leads (Stands .moves kind span (gap ++ (text ++ rest)))
      fun _ => Stands .moves .nag text rest := by
  have written : ∀ glyph ∈ standaloneGlyphs,
      glyph.head?.all (fun byte => Move.isFirstByte byte && byte != percent) = true := by decide
  have each : ∀ glyph ∈ standaloneGlyphs, glyph ≠ [] ∧ glyph.all (!isDelimiter ·) = true := by
    decide
  obtain ⟨some, all⟩ := each text standalone
  obtain ⟨byte, tail, rfl⟩ := List.exists_cons_of_ne_nil some
  obtain ⟨begins, plain⟩ := Bool.and_eq_true_iff.mp (written _ standalone)
  have inside : isDelimiter byte = false := by simp_all
  have visible : isSpace byte = false := by
    simp only [isDelimiter, Bool.or_eq_false_iff] at inside
    simp [inside]
  have kept := @leads_captureUntil .moves kind [] (byte :: tail) rest isDelimiter all stopped
  have glyph : (movetextTokenAt byte).Leads (Faces .moves kind [] (byte :: tail ++ rest))
      (Told .moves .nag kind (byte :: tail) rest) := by
    rw [movetextTokenAt_move begins inside]
    refine (kept.weaken (fun _ faces => faces.stands) fun _ _ => id).bind fun _ =>
      .bind_look_of (byte :: tail) (fun _ stands => stands.span) ?_
    rw [if_pos (List.contains_iff_mem.mpr standalone)]
    exact .pure fun _ stands => ⟨rfl, stands⟩
  exact advance_inside (.inr rfl) aside blank visible
    (fun escape => absurd escape (bne_iff_ne.mp plain)) (.inr rfl) glyph

/-- The rest of a line behind a semicolon, without its line break. -/
theorem advance_lineComment {ending : Bytes} (noFeed : text.all (· != lineFeed) = true)
    (returned : ending = [carriageReturn] ∨ ending = [] ∧ text.getLast? ≠ some carriageReturn)
    (aside : kind ≠ .commentBegin) (blank : gap.all isSpace = true) :
    advance.Leads
      (Stands .moves kind span (gap ++ semicolon :: (text ++ ending ++ lineFeed :: rest)))
      fun _ => Stands .moves .lineComment text (lineFeed :: rest) := by
  have noReturnFeed : (text ++ ending).all (!· == lineFeed) = true := by
    have noReturn : carriageReturn ≠ lineFeed := by decide
    rcases returned with rfl | ⟨rfl, _⟩ <;> simpa [bne, noReturn] using noFeed
  have kept := @leads_captureUntil .moves kind [] (text ++ ending) (lineFeed :: rest)
    (· == lineFeed) noReturnFeed rfl
  have dropped : (Scan.change Lexer.dropReturn).Leads
      (Stands .moves kind (text ++ ending) (lineFeed :: rest))
      fun _ => Stands .moves kind text (lineFeed :: rest) := by
    refine .change fun lexer stands => ?_
    have captured : lexer.captured = (text ++ ending).reverse :=
      List.reverse_eq_iff.mp stands.span
    have same : lexer.dropReturn = { lexer with captured := text.reverse } := by
      unfold Lexer.dropReturn
      rcases returned with rfl | ⟨rfl, other⟩
      · rw [captured, List.reverse_append]
        rfl
      · split
        · next tail shown =>
          rw [captured, List.append_nil] at shown
          exact absurd (by rw [List.getLast?_eq_head?_reverse, shown]; rfl) other
        · rw [List.append_nil] at captured
          rw [← captured]
    rw [same]
    exact { stands with
      holds := stands.holds.of_same rfl rfl rfl
      span := List.reverse_reverse text }
  have line : (movetextTokenAt semicolon).Leads
      (Faces .moves kind [] (semicolon :: (text ++ ending ++ lineFeed :: rest)))
      (Told .moves .lineComment kind text (lineFeed :: rest)) :=
    (leads_pass.weaken (fun _ => id) fun _ _ => And.left).bind fun _ =>
      (kept.bind fun _ => dropped).bind fun _ => .pure fun _ stands => ⟨rfl, stands⟩
  exact advance_inside (.inr rfl) aside blank (by decide)
    (fun escape => absurd escape (by decide)) (.inr rfl) line

theorem leads_terminate : terminate.Leads (Stands area kind span text)
    (Told .between .termination kind span text) :=
  have leaves : (Scan.change Lexer.terminate).Leads (Stands area kind span text)
      fun _ => Stands .between kind span text :=
    .change fun _ stands => { stands with holds := rfl }
  leaves.bind fun _ => .pure fun _ stands => ⟨rfl, stands⟩

/-- A marker ends what is being read, wherever in the movetext it stands. -/
theorem advance_marker (outcome : Outcome) (goesOn : area.GoesOn kind)
    (blank : gap.all isSpace = true) :
    advance.Leads (Stands area kind span (gap ++ (outcome.marker ++ rest)))
      fun _ => Stands .between .termination outcome.marker rest := by
  have kept (kind : TokenKind) :
      (do
        Scan.capture outcome.marker.length
        terminate : Scan TokenKind).Leads
          (Faces area.entered kind [] (outcome.marker ++ rest))
          (Told .between .termination kind outcome.marker rest) :=
    (leads_capture (by cases outcome <;> decide)).bind fun _ => leads_terminate
  have numeric (digits : outcome ≠ .unknown) (kind : TokenKind) :
      digitToken.Leads (Faces area.entered kind [] (outcome.marker ++ rest))
        (Told .between .termination kind outcome.marker rest) := by
    refine (leads_look_marker (find?_numericMarkers_of_marker outcome digits)).bind fun buffer => ?_
    rintro lexer later found ⟨marked, faces⟩
    rw [marked]
    exact kept kind lexer later found faces
  cases outcome with
  | unknown => exact advance_movetext goesOn (by decide) blank (.inl rfl) kept
  | _ =>
    refine advance_movetext goesOn (by decide) blank (.inl rfl) fun kind => ?_
    rw [movetextTokenAt_digit (by decide)]
    exact numeric nofun kind

end Scan

end Scoresheet
