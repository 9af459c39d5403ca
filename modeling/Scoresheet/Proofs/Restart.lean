/-
This file shows that a lexer starts anew behind a termination marker. The scope is to be found
again there, and once it is found, nothing depends on what was read before: a bracket opens a
header section and the movetext starts fresh. So the lexer goes on like one that has not read
anything yet, only further along. White space and escaped lines between the two make no difference
if they end with their line, because no line is left open then.
-/

import Scoresheet.Proofs.Tracking

namespace Scoresheet

/-! ### Blanks in front of a text -/

namespace Place

/-- Behind a line feed a line begins. -/
theorem lineStart_pass {text : Bytes} (place : Place)
    (ends : text.getLast? = some Ascii.lineFeed) :
    (place.pass text).lineStart = (place.pass text).offset := by
  obtain ⟨inner, rfl⟩ := List.getLast?_eq_some_iff.mp ends
  rw [pass_append]
  rfl

/-- Where a text begins that follows another one. -/
theorem pass_eq_shift {place : Place} {text : Bytes} {shift : Shift}
    (ends : text.getLast? = some Ascii.lineFeed) (offset : place.offset + text.length = shift.bytes)
    (line : place.line + text.count Ascii.lineFeed = shift.lines + 1) :
    place.pass text = Place.start.shift shift := by
  have offsets := place.offset_pass text
  have lines := place.line_pass text
  have starts := place.lineStart_pass ends
  cases passed : place.pass text with
  | mk last count begin_ =>
    rw [passed] at offsets lines starts
    dsimp only at offsets lines starts
    rw [starts, offsets, lines, offset, line, Nat.add_comm shift.lines, Place.shift, Place.start,
      Nat.zero_add]

/-- What is left of a line that ends with a line feed: more that ends with it, or nothing. -/
theorem ends_of_cons {byte : UInt8} {others : Bytes}
    (ends : (byte :: others).getLast? = some Ascii.lineFeed) :
    others.getLast? = some Ascii.lineFeed ∨ others = [] ∧ byte = Ascii.lineFeed := by
  cases others with
  | nil => exact .inr ⟨rfl, Option.some.inj ends⟩
  | cons next rest => exact .inl ends

/-- Blanks that end with their line are followed by the blanks of the text behind them. -/
theorem blanks_append_of_eq {inLine : Bool} {place : Place} {text : Bytes} (rest : Bytes)
    (blank : blanks inLine place text = text)
    (ends : text.getLast? = some Ascii.lineFeed ∨ text = [] ∧ inLine = false) :
    blanks inLine place (text ++ rest) = text ++ blanks false (place.pass text) rest := by
  fun_induction blanks inLine place text with
  | case1 inLine place =>
    have line := (ends.resolve_left fun found => by cases found).2
    rw [line]
    rfl
  | case2 place byte others inductionHypothesis =>
    have line := ends_of_cons (ends.resolve_right fun none => by cases none.1)
    rw [List.cons_append, blanks, inductionHypothesis (List.cons.inj blank).2
      (line.imp_right fun last => ⟨last.1, by rw [last.2]; rfl⟩)]
    rfl
  | case3 place byte others space inductionHypothesis =>
    have line := ends_of_cons (ends.resolve_right fun none => by cases none.1)
    rw [List.cons_append, blanks_space space, inductionHypothesis (List.cons.inj blank).2
      (line.imp_right fun last => ⟨last.1, rfl⟩)]
    rfl
  | case4 place byte others significant escape inductionHypothesis =>
    have line := ends_of_cons (ends.resolve_right fun none => by cases none.1)
    have line := line.resolve_right fun last => by
      rw [escape.1] at last
      cases last.2
    rw [List.cons_append, blanks, if_neg significant, if_pos escape,
      inductionHypothesis (List.cons.inj blank).2 (.inl line)]
    rfl
  | case5 place byte others significant plain => cases blank

end Place

namespace Lexer

variable {rest : Bytes} {shift : Shift} {first second lexer after firstAfter secondAfter : Lexer}
  {keep : Bool} {run : Bytes} {kind kind' : TokenKind}

/-! ### Forgetting the token before -/

/-- The same lexer as if it had told no token yet. -/
def afresh (lexer : Lexer) : Lexer :=
  { lexer with kind := .undefined, start := lexer.place.position }

theorem Tracks.takes_afresh (tracks : Tracks rest shift first.afresh second.afresh)
    (left : Takes keep run first firstAfter) (right : Takes keep run second secondAfter) :
    Tracks rest shift firstAfter.afresh secondAfter.afresh := by
  have forgets {before after : Lexer} (takes : Takes keep run before after) :
      Takes keep run before.afresh
        { after with kind := .undefined, start := before.place.position } :=
    ⟨takes.honest, takes.content, congrArg
      (fun lexer : Lexer =>
        { lexer with kind := .undefined, start := before.place.position }) takes.state⟩
  exact (tracks.takes (forgets left) (forgets right)).update markStart_shift

/-- White space ends in front of the same byte. -/
theorem Tracks.passSpace_afresh {next next' : Option UInt8}
    (tracks : Tracks [] shift first.afresh second.afresh)
    (success : Scan.passSpace.run first = (.ok next, firstAfter))
    (success' : Scan.passSpace.run second = (.ok next', secondAfter)) :
    next = next' ∧ Tracks [] shift firstAfter.afresh secondAfter.afresh ∧
      firstAfter.source.IsReady ∧ secondAfter.source.IsReady := by
  have honest : first.source.IsHonest := tracks.honestFirst
  have honest' : second.source.IsHonest := tracks.honestSecond
  obtain ⟨taking, ready, shown⟩ := passSpace_takes honest success
  obtain ⟨taking', ready', shown'⟩ := passSpace_takes honest' success'
  have content : second.source.content = first.source.content :=
    tracks.content.trans (List.append_nil _)
  have place : second.place = first.place.shift shift := tracks.place
  rw [content, place, Place.blanks_shift] at taking'
  have later := tracks.takes_afresh taking taking'
  have rest : secondAfter.source.content = firstAfter.source.content :=
    later.content.trans (List.append_nil _)
  exact ⟨shown.symm.trans (rest ▸ shown'), later, ready, ready'⟩

/-- Behind white space the start of the token before is forgotten. -/
theorem Tracks.spacedToken_afresh {token : UInt8 → Scan TokenKind}
    (each : ∀ byte, (token byte).LocalFrom Source.IsReady)
    (tracks : Tracks [] shift first.afresh second.afresh) (kindless : first.kind = .undefined)
    (kindless' : second.kind = .undefined)
    (success : (Scan.spacedToken token).run first = (.ok kind, firstAfter))
    (success' : (Scan.spacedToken token).run second = (.ok kind', secondAfter)) :
    kind = kind' ∧ Tracks [] shift firstAfter secondAfter := by
  obtain ⟨next, middle, passed, told⟩ := Scan.run_bind_ok success
  obtain ⟨next', middle', passed', told'⟩ := Scan.run_bind_ok success'
  obtain ⟨rfl, later, ready, ready'⟩ := tracks.passSpace_afresh passed passed'
  have marked {lexer middle : Lexer} {next : Option UInt8} (honest : lexer.source.IsHonest)
      (kindless : lexer.kind = .undefined)
      (passed : Scan.passSpace.run lexer = (.ok next, middle)) :
      middle.afresh = middle.markStart := by
    have kind := (passSpace_takes honest passed).1.kind_eq.trans kindless
    rw [afresh, ← kind]
    rfl
  have honest : first.source.IsHonest := tracks.honestFirst
  have honest' : second.source.IsHonest := tracks.honestSecond
  rw [marked honest kindless passed, marked honest' kindless' passed'] at later
  cases next with
  | none => exact Scan.LocalFrom.finish.tracks later trivial trivial told told' (.inl rfl)
  | some byte => exact (each byte).tracks later ready ready' told told' (.inl rfl)

/-! ### The first token behind blanks -/

/-- At a bracket a header pair begins, if the lexer was not within one. -/
theorem scopedToken_header (honest : lexer.source.IsHonest) (header : lexer.scope = .header)
    (outside : lexer.kind = .undefined ∨ lexer.kind = .termination)
    (bracket : lexer.source.content.head? = some Ascii.openBracket)
    (success : Scan.scopedToken.run lexer = (.ok kind, after)) :
    ∃ middle, Scan.passSpace.run lexer = (.ok (some Ascii.openBracket), middle) ∧
      kind = .headerBegin ∧ after = middle.markStart.pass 1 := by
  have spaced : (Scan.spacedToken Scan.headerTokenAt).run lexer = (.ok kind, after) := by
    obtain ⟨_, _, _, _, _, _, _, _⟩ := lexer
    cases header
    rcases outside with undefined | termination
    · cases undefined
      exact success
    · cases termination
      exact success
  obtain ⟨next, middle, passed, told⟩ := Scan.run_bind_ok spaced
  obtain ⟨taking, ready, shown⟩ := passSpace_takes honest passed
  obtain ⟨rest, begins⟩ := List.head?_eq_some_iff.mp bracket
  have nothing : Place.blanks false lexer.place lexer.source.content = [] := by
    rw [begins]
    exact Place.blanks_significant (by decide) (fun escape => by cases escape.1)
  have content := taking.content
  rw [nothing, List.nil_append] at content
  rw [← content, bracket] at shown
  subst shown
  cases told
  exact ⟨middle, passed, rfl, rfl⟩

/-- A token of movetext that starts fresh. -/
theorem scopedToken_movetext (movetext : lexer.scope = .movetext)
    (kindless : lexer.kind = .undefined)
    (success : Scan.scopedToken.run lexer = (.ok kind, after)) :
    ∃ told, (Scan.spacedToken Scan.movetextTokenAt).run lexer = (.ok kind, told) ∧
      after = told.closeOpening kind := by
  have within : (Scan.movetextToken >>= fun kind =>
      Scan.change (closeOpening kind) >>= fun _ => pure kind).run lexer = (.ok kind, after) := by
    obtain ⟨_, _, _, _, _, _, _, _⟩ := lexer
    cases movetext
    exact success
  obtain ⟨kind, told, token, closed⟩ := Scan.run_bind_ok within
  cases closed
  obtain ⟨_, _, _, _, _, _, _, _⟩ := lexer
  cases kindless
  exact ⟨told, token, rfl⟩

/-- The first token behind blanks is the same, wherever the scope was found from. -/
theorem Tracks.scopedToken_settle {next : Option UInt8}
    (tracks : Tracks [] shift { first.afresh with scope := .outside }
      { second.afresh with scope := .outside })
    (shown : first.source.content.head? = next)
    (outside : first.scope ≠ .movetext ∧ (first.kind = .undefined ∨ first.kind = .termination))
    (outside' : second.scope ≠ .movetext ∧ (second.kind = .undefined ∨ second.kind = .termination))
    (success : Scan.scopedToken.run (first.settle next) = (.ok kind, firstAfter))
    (success' : Scan.scopedToken.run (second.settle next) = (.ok kind', secondAfter)) :
    Tracks [] shift { firstAfter with kind } { secondAfter with kind := kind' } := by
  have ended {firstAfter secondAfter : Lexer} {kind kind' : TokenKind}
      (success : Scan.scopedToken.run { first with scope := .outside } = (.ok kind, firstAfter))
      (success' : Scan.scopedToken.run { second with scope := .outside } =
        (.ok kind', secondAfter)) :
      Tracks [] shift { firstAfter with kind } { secondAfter with kind := kind' } := by
    cases success
    cases success'
    exact @Tracks.update _ _ _ _ ({ · with unsettled := false }) tracks fun _ _ _ => rfl
  have content : second.source.content = first.source.content :=
    tracks.content.trans (List.append_nil _)
  cases next with
  | none => exact ended success success'
  | some byte =>
    by_cases bracket : byte = Ascii.openBracket
    · have header {lexer : Lexer} : lexer.settle (some byte) = { lexer with scope := .header } :=
        if_pos bracket
      rw [header] at success success'
      rw [bracket] at shown
      have honest : ({ first with scope := .header } : Lexer).source.IsHonest := tracks.honestFirst
      have honest' : ({ second with scope := .header } : Lexer).source.IsHonest :=
        tracks.honestSecond
      obtain ⟨middle, passed, rfl, rfl⟩ := scopedToken_header honest rfl outside.2 shown success
      obtain ⟨middle', passed', rfl, rfl⟩ :=
        scopedToken_header honest' rfl outside'.2 ((congrArg List.head? content).trans shown)
          success'
      have within := @Tracks.update _ _ _ _ ({ · with scope := .header }) tracks fun _ _ _ => rfl
      obtain ⟨_, later, ready, ready'⟩ := Tracks.passSpace_afresh within passed passed'
      have taken := later.take_one false ready.showsNext ready'.showsNext (.inl rfl)
      have told := @Tracks.update _ _ _ _ ({ · with kind := .headerBegin }) taken fun _ _ _ => rfl
      exact told
    · by_cases opens : opensMovetext byte = true
      · have movetext {lexer : Lexer} : lexer.settle (some byte) =
            { lexer with scope := .movetext, kind := .undefined, opening := true } :=
          (if_neg bracket).trans (if_pos (.inr opens))
        rw [movetext] at success success'
        obtain ⟨told, token, rfl⟩ := scopedToken_movetext rfl rfl success
        obtain ⟨told', token', rfl⟩ := scopedToken_movetext rfl rfl success'
        have within := @Tracks.update _ _ _ _ ({ · with scope := .movetext, opening := true })
          tracks fun _ _ _ => rfl
        obtain ⟨rfl, later⟩ :=
          Tracks.spacedToken_afresh Scan.LocalFrom.movetextTokenAt within rfl rfl token token'
        have closed := ((Scan.LocalFrom.closeOpening kind).tracks later trivial trivial rfl rfl
          (.inl rfl)).2
        exact @Tracks.update _ _ _ _ ({ · with kind }) closed fun _ _ _ => rfl
      · have nothing {lexer : Lexer} (outside : lexer.scope ≠ .movetext) :
            lexer.settle (some byte) = { lexer with scope := .outside } :=
          (if_neg bracket).trans (if_neg (not_or.mpr ⟨outside, opens⟩))
        rw [nothing outside.1] at success
        rw [nothing outside'.1] at success'
        exact ended success success'

/-! ### Behind a marker -/

/-- The scope is to be found from the next byte that matters, and nothing is left of what was read
before. -/
structure IsReset (lexer : Lexer) : Prop where
  honest : lexer.source.IsHonest
  unsettled : lexer.unsettled = true
  opening : lexer.opening = false
  outside : lexer.scope ≠ .movetext ∧ (lexer.kind = .undefined ∨ lexer.kind = .termination)
  unmarked : lexer.Unmarked

theorem IsReset.emptied (reset : lexer.IsReset) : IsReset { lexer with captured := [] } :=
  ⟨reset.honest, reset.unsettled, reset.opening, reset.outside, reset.unmarked⟩

/-- Finding the scope passes the blanks that come next. -/
theorem IsReset.scopedToken (reset : lexer.IsReset)
    (success : Scan.nextToken.run lexer = (.ok kind, after)) :
    ∃ next middle, Scan.scopedToken.run (middle.settle next) = (.ok kind, after) ∧
      Takes false (Place.blanks false lexer.place lexer.source.content)
        { lexer with unsettled := false } middle ∧ middle.source.content.head? = next := by
  unfold Scan.nextToken at success
  rw [Scan.run_bind, Scan.run_look] at success
  dsimp only at success
  rw [if_pos reset.unsettled] at success
  obtain ⟨_, unmarked, early, late⟩ := Scan.run_bind_ok success
  obtain ⟨_, settled, found, token⟩ := Scan.run_bind_ok late
  obtain ⟨_, _, begun, onward⟩ := Scan.run_bind_ok found
  cases begun
  obtain ⟨next, middle, passed, ended⟩ := Scan.run_bind_ok onward
  cases ended
  have start := reset.unmarked.takes reset.honest early
  have honest : ({ unmarked with unsettled := false } : Lexer).source.IsHonest := start.honest
  obtain ⟨taking, _, shown⟩ := passSpace_takes honest passed
  have still : Takes false [] { lexer with unsettled := false }
      { unmarked with unsettled := false } :=
    ⟨start.honest, start.content, congrArg ({ · with unsettled := false }) start.state⟩
  have whole := still.trans taking
  dsimp only at whole
  rw [start.place, ← List.nil_append unmarked.source.content, ← start.content] at whole
  exact ⟨next, middle, token, whole, shown⟩

/-- Where both have passed the blanks, the lexers differ only in what is forgotten. -/
theorem IsReset.tracks_bare {run blank : Bytes} (reset : first.IsReset) (reset' : second.IsReset)
    (content : second.source.content = blank ++ first.source.content)
    (place : second.place.pass blank = first.place.shift shift)
    (left : Takes false run { first with captured := [], unsettled := false } firstAfter)
    (right : Takes false (blank ++ run) { second with captured := [], unsettled := false }
      secondAfter) :
    Tracks [] shift { firstAfter.afresh with scope := .outside }
      { secondAfter.afresh with scope := .outside } := by
  have places : secondAfter.place = firstAfter.place.shift shift := by
    rw [right.place, left.place, Place.pass_append, place, Place.pass_shift]
  refine ⟨left.honest, right.honest, ?_, ?_⟩
  · have early := left.content
    have late := right.content
    dsimp only at early late
    rw [content, early, List.append_assoc] at late
    rw [List.append_nil]
    exact (List.append_cancel_left (List.append_cancel_left late)).symm
  · have early := left.state
    have late := right.state
    have shut := reset.opening
    have shut' := reset'.opening
    obtain ⟨source, kind, scope, unsettled, opening, captured, start, place⟩ := firstAfter
    obtain ⟨source', kind', scope', unsettled', opening', captured', start', place'⟩ := secondAfter
    simp only [mk.injEq] at early late
    obtain ⟨_, _, _, rfl, rfl, rfl, _, _⟩ := early
    obtain ⟨_, _, _, rfl, rfl, rfl, _, _⟩ := late
    dsimp only at places
    simp only [afresh, Lexer.shift, places, Place.position_shift, shut, shut']
    rfl

/-- Lexers that look for their scopes anew, one of them further along and with blanks to pass that
end with their line, tell the same token next. -/
theorem IsReset.tracks {blank : Bytes} (reset : first.IsReset) (reset' : second.IsReset)
    (content : second.source.content = blank ++ first.source.content)
    (place : second.place.pass blank = first.place.shift shift)
    (blanks : Place.blanks false second.place blank = blank)
    (ends : blank.getLast? = some Ascii.lineFeed)
    (success : Scan.advance.run first = (.ok (), firstAfter))
    (success' : Scan.advance.run second = (.ok (), secondAfter)) :
    Tracks [] shift firstAfter secondAfter := by
  obtain ⟨kind, told, token, rfl⟩ := nextToken_of_advance success
  obtain ⟨kind', told', token', rfl⟩ := nextToken_of_advance success'
  obtain ⟨next, middle, found, left, shown⟩ := reset.emptied.scopedToken token
  obtain ⟨next', middle', found', right, shown'⟩ := reset'.emptied.scopedToken token'
  dsimp only at left right
  rw [content, Place.blanks_append_of_eq _ blanks (.inl ends), place, Place.blanks_shift] at right
  have bare := reset.tracks_bare reset' content place left right
  have rest : middle'.source.content = middle.source.content :=
    bare.content.trans (List.append_nil _)
  rw [rest, shown] at shown'
  subst shown'
  have outside := reset.outside
  have outside' := reset'.outside
  have scope : middle.scope = first.scope := left.scope_eq
  have scope' : middle'.scope = second.scope := right.scope_eq
  have kinds : middle.kind = first.kind := left.kind_eq
  have kinds' : middle'.kind = second.kind := right.kind_eq
  rw [← scope, ← kinds] at outside
  rw [← scope', ← kinds'] at outside'
  exact bare.scopedToken_settle shown outside outside' found found'

end Lexer

end Scoresheet
