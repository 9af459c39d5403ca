/-
This file says what becomes of a lexer whose source fails while it looks for the next token, and
when the token can be asked for again. As long as the failing calls have passed nothing but a mark
and gaps between tokens, asking again gives what an unfailing source would have given, except where
the scope was being looked for: the lexer forgets that it was, and goes on in the scope it was in,
or takes the input for exhausted.
-/

import Mathlib.Logic.Relation
import Scoresheet.Proofs.Gaps
import Scoresheet.Proofs.Reliable
import Scoresheet.Proofs.Requests
import Scoresheet.Proofs.Searching
import Scoresheet.Proofs.Setbacks

namespace Scoresheet

namespace Lexer

/-! ### How a token fails to come -/

/-- The source fails while the scope is being looked for. -/
def LosesScope (lexer : Lexer) : Prop :=
  lexer.unsettled = true ∧ ∃ marked failure after,
    Scan.passByteOrderMark.run { lexer with captured := [] } = (.ok (), marked) ∧
      passSpace { marked with unsettled := false } = (.error failure, after)

/-- Where the source can fail before the next token is told. -/
inductive Misses (lexer after : Lexer) : Prop where
  /-- At the beginning of the input. -/
  | atMark {failure : Failure} (unsettled : lexer.unsettled = true)
      (marking : Scan.passByteOrderMark.run { lexer with captured := [] } =
        (.error failure, after)) : Misses lexer after
  /-- While the scope is being looked for. -/
  | inSearch {marked : Lexer} {failure : Failure} (unsettled : lexer.unsettled = true)
      (marking : Scan.passByteOrderMark.run { lexer with captured := [] } = (.ok (), marked))
      (searching : passSpace { marked with unsettled := false } = (.error failure, after)) :
      Misses lexer after
  /-- In the scope that was found. -/
  | found {marked settled : Lexer} {failure : Failure} (unsettled : lexer.unsettled = true)
      (marking : Scan.passByteOrderMark.run { lexer with captured := [] } = (.ok (), marked))
      (searching : Scan.findScope.run marked = (.ok (), settled))
      (telling : Scan.scopedToken.run settled = (.error failure, after)) : Misses lexer after
  /-- In the scope that was known. -/
  | known {failure : Failure} (settled : lexer.unsettled = false)
      (telling : Scan.scopedToken.run { lexer with captured := [] } = (.error failure, after)) :
      Misses lexer after

variable {lexer after : Lexer} {failure : Failure}

theorem misses_of_advance (failed : Scan.advance.run lexer = (.error failure, after)) :
    lexer.Misses after := by
  have told : Scan.nextToken.run { lexer with captured := [] } = (.error failure, after) := by
    rcases Scan.run_bind_error failed with none | ⟨_, _, emptied, late⟩
    · cases none
    · cases emptied
      rcases Scan.run_bind_error late with found | ⟨_, _, _, none⟩
      · exact found
      · cases none
  unfold Scan.nextToken at told
  rw [Scan.run_bind, Scan.run_look] at told
  dsimp only at told
  split at told
  · next unsettled =>
    rcases Scan.run_bind_error told with marking | ⟨_, marked, marking, late⟩
    · exact .atMark unsettled marking
    · rcases Scan.run_bind_error late with searching | ⟨_, settled, searching, telling⟩
      · rcases Scan.run_bind_error searching with none | ⟨_, _, begun, onward⟩
        · cases none
        · cases begun
          rcases Scan.run_bind_error onward with cut | ⟨_, _, _, none⟩
          · exact .inSearch unsettled marking cut
          · cases none
      · exact .found unsettled marking searching telling
  · next settled => exact .known (Bool.eq_false_iff.mpr settled) told

/-- A mark changes nothing that decides about the next token. -/
theorem keeps_passByteOrderMark (lexer : Lexer) :
    (Scan.passByteOrderMark.run lexer).2.scope = lexer.scope ∧
      (Scan.passByteOrderMark.run lexer).2.unsettled = lexer.unsettled ∧
      (Scan.passByteOrderMark.run lexer).2.captured = lexer.captured ∧
      (lexer.source.IsHonest → (Scan.passByteOrderMark.run lexer).2.source.IsHonest) := by
  have passMark (filled : Lexer) : filled.passMark.scope = filled.scope ∧
      filled.passMark.unsettled = filled.unsettled ∧ filled.passMark.captured = filled.captured ∧
      (filled.source.IsHonest → filled.passMark.source.IsHonest) := by
    unfold Lexer.passMark
    split
    · exact ⟨rfl, rfl, rfl, fun honest => honest.advance _⟩
    · exact ⟨rfl, rfl, rfl, id⟩
  unfold Scan.passByteOrderMark
  rw [Scan.run_bind, Scan.run_look]
  dsimp only
  split
  · rw [Scan.run_bind]
    split
    · next filled found =>
      have same : filled = (Scan.fill.run lexer).2 := congrArg Prod.snd found.symm
      obtain ⟨scope, unsettled, captured, honest⟩ := passMark (Scan.fill.run lexer).2
      rw [same]
      exact ⟨scope, unsettled, captured, fun start => honest start.fill⟩
    · next filled found =>
      have same : filled = (Scan.fill.run lexer).2 := congrArg Prod.snd found.symm
      rw [same]
      exact ⟨rfl, rfl, rfl, .fill⟩
  · exact ⟨rfl, rfl, rfl, id⟩

/-- At the beginning of the input a failing source leaves the lexer where it is. -/
theorem passByteOrderMark_failed
    (failed : Scan.passByteOrderMark.run lexer = (.error failure, after)) :
    after = { lexer with source := lexer.source.fill.2 } := by
  unfold Scan.passByteOrderMark at failed
  rw [Scan.run_bind, Scan.run_look] at failed
  dsimp only at failed
  split at failed
  · rcases Scan.run_bind_error failed with filling | ⟨_, _, _, none⟩
    · exact (congrArg Prod.snd filling).symm
    · cases none
  · cases failed

theorem isExhausted_eq_true_iff :
    lexer.isExhausted = true ↔ lexer.scope = .outside ∧ lexer.unsettled = false := by
  unfold isExhausted
  rw [Bool.and_eq_true, beq_iff_eq, Bool.not_eq_true']

/-- The end of the input cannot fail to come. -/
theorem inside_of_scopedToken (telling : Scan.scopedToken.run lexer = (.error failure, after)) :
    lexer.scope ≠ .outside := by
  intro outside
  unfold Scan.scopedToken at telling
  rw [Scan.run_bind, Scan.run_look] at telling
  dsimp only at telling
  rw [outside] at telling
  cases telling

/-- A failing source is taken for an exhausted one exactly if the scope was being looked for from
outside any. -/
theorem isExhausted_of_misses (misses : lexer.Misses after) :
    after.isExhausted = true ↔ lexer.LosesScope ∧ lexer.scope = .outside := by
  rw [isExhausted_eq_true_iff]
  have marks := keeps_passByteOrderMark { lexer with captured := [] }
  cases misses with
  | atMark unsettled marking =>
    rw [marking] at marks
    refine iff_of_false ?_ ?_
    · rw [marks.2.1]
      simp [unsettled]
    · rintro ⟨⟨_, marked, _, _, marking', _⟩, _⟩
      rw [marking] at marking'
      cases marking'
  | @inSearch marked failure unsettled marking searching =>
    rw [marking] at marks
    have kept := Scan.Still.passSpace.cutShort searching
    rw [kept.scope, kept.unsettled]
    show marked.scope = .outside ∧ false = false ↔ _
    rw [marks.1]
    exact ⟨fun outside => ⟨⟨unsettled, marked, failure, after, marking, searching⟩, outside.1⟩,
      fun lost => ⟨lost.2, rfl⟩⟩
  | found unsettled marking searching telling =>
    have kept := Scan.StillCutShort.scopedToken telling
    have inside := inside_of_scopedToken telling
    refine iff_of_false (fun ended => inside (kept.scope ▸ ended.1)) ?_
    rintro ⟨⟨_, marked', _, _, marking', searching'⟩, _⟩
    rw [marking] at marking'
    cases marking'
    obtain ⟨_, _, passed, _⟩ := findScope_eq searching
    rw [passed] at searching'
    cases searching'
  | known settled telling =>
    have kept := Scan.StillCutShort.scopedToken telling
    have inside := inside_of_scopedToken telling
    refine iff_of_false (fun ended => inside (kept.scope ▸ ended.1)) ?_
    rintro ⟨⟨unsettled, _⟩, _⟩
    rw [settled] at unsettled
    cases unsettled

/-! ### Going on behind a gap -/

/-- The second lexer is where the first one comes to when it passes a gap. Where its last token
started does not matter. -/
structure Resumes (gap : Bytes) (first second : Lexer) : Prop where
  honestFirst : first.source.IsHonest
  honestSecond : second.source.IsHonest
  content : first.source.content = gap ++ second.source.content
  isGap : Place.isGap false first.place gap = true
  state : { second with source := first.source, start := first.start } =
    { first with place := first.place.pass gap }

/-- A gap that comes next is passed and is no part of a token. -/
def isSpaced (lexer : Lexer) : Bool :=
  match lexer.scope with
  | .outside => false
  | .header => lexer.kind ≠ .valueBegin ∧
      (lexer.kind = .headerName → lexer.source.content.head?.any Ascii.isBlank = false)
  | .movetext | .termination => lexer.kind ≠ .commentBegin

variable {gap run : Bytes} {first second firstAfter secondAfter : Lexer}
  {told told' : TokenKind}

theorem Resumes.place (resumes : Resumes gap first second) :
    second.place = first.place.pass gap := by
  have places := congrArg Lexer.place resumes.state
  exact places

/-- What is known of the last token and of the scope is the same. -/
theorem Resumes.same (resumes : Resumes gap first second) :
    second.kind = first.kind ∧ second.scope = first.scope ∧
      second.unsettled = first.unsettled := by
  have kinds := congrArg Lexer.kind resumes.state
  have scopes := congrArg Lexer.scope resumes.state
  have flags := congrArg Lexer.unsettled resumes.state
  exact ⟨kinds, scopes, flags⟩

/-- Passing the same behind the gap leads to the same place. -/
theorem Resumes.takes (resumes : Resumes gap first second)
    (left : Takes false (gap ++ run) first firstAfter)
    (right : Takes false run second secondAfter) :
    firstAfter.markStart.Alike secondAfter.markStart := by
  have content := resumes.content
  rw [left.content, right.content, List.append_assoc] at content
  refine ⟨left.honest, right.honest,
    List.append_cancel_left (List.append_cancel_left content), ?_⟩
  have early := left.state
  have late := right.state
  have start := resumes.state
  obtain ⟨source, kind, scope, unsettled, opening, captured, position, place⟩ := second
  obtain ⟨source', kind', scope', unsettled', opening', captured', position', place'⟩ := first
  obtain ⟨source, kind, scope, unsettled, opening, captured, position, place⟩ := secondAfter
  obtain ⟨source', kind', scope', unsettled', opening', captured', position', place'⟩ := firstAfter
  simp only [markStart, mk.injEq, Place.pass_append] at start early late ⊢
  obtain ⟨_, rfl, rfl, rfl, rfl, rfl, rfl, rfl⟩ := early
  obtain ⟨_, rfl, rfl, rfl, rfl, rfl, rfl, rfl⟩ := late
  obtain ⟨_, rfl, rfl, rfl, rfl, rfl, _, rfl⟩ := start
  exact ⟨trivial, rfl, rfl, rfl, rfl, rfl, rfl, rfl⟩

theorem Resumes.passSpace {next next' : Option UInt8} (resumes : Resumes gap first second)
    (success : Scan.passSpace.run first = (.ok next, firstAfter))
    (success' : Scan.passSpace.run second = (.ok next', secondAfter)) :
    next = next' ∧ firstAfter.markStart.Alike secondAfter.markStart ∧
      firstAfter.source.IsReady ∧ secondAfter.source.IsReady := by
  obtain ⟨taking, ready, shown⟩ := passSpace_takes resumes.honestFirst success
  obtain ⟨taking', ready', shown'⟩ := passSpace_takes resumes.honestSecond success'
  rw [resumes.content, Place.blanks_gap resumes.isGap, ← resumes.place] at taking
  have later := resumes.takes taking taking'
  have rest : firstAfter.source.content = secondAfter.source.content := later.content
  exact ⟨shown.symm.trans (rest ▸ shown'), later, ready, ready'⟩

theorem Alike.local {Value : Type} {scan : Scan Value} {ready : Source → Prop}
    {value value' : Value} (isLocal : scan.LocalFrom ready) (alike : first.Alike second)
    (shown : ready first.source) (shown' : ready second.source)
    (success : scan.run first = (.ok value, firstAfter))
    (success' : scan.run second = (.ok value', secondAfter)) :
    value = value' ∧ firstAfter.Alike secondAfter := by
  obtain ⟨same, later⟩ := isLocal.tracks (alike_iff_tracks.mp alike) shown shown' success success'
    (.inl rfl)
  exact ⟨same, alike_iff_tracks.mpr later⟩

theorem Resumes.spacedToken {token : UInt8 → Scan TokenKind}
    (each : ∀ byte, (token byte).LocalFrom Source.IsReady) (resumes : Resumes gap first second)
    (success : (Scan.spacedToken token).run first = (.ok told, firstAfter))
    (success' : (Scan.spacedToken token).run second = (.ok told', secondAfter)) :
    told = told' ∧ firstAfter.Alike secondAfter := by
  obtain ⟨next, middle, passed, telling⟩ := Scan.run_bind_ok success
  obtain ⟨next', middle', passed', telling'⟩ := Scan.run_bind_ok success'
  obtain ⟨rfl, alike, ready, ready'⟩ := resumes.passSpace passed passed'
  cases next with
  | none => exact alike.local Scan.LocalFrom.finish trivial trivial telling telling'
  | some byte => exact alike.local (each byte) ready ready' telling telling'

/-- Without a gap the lexers differ in nothing but where the last token started. -/
theorem Resumes.alike (resumes : Resumes [] first second) :
    first.markStart.Alike second.markStart :=
  resumes.takes (.refl resumes.honestFirst) (.refl resumes.honestSecond)

theorem Resumes.quotedToken {closing : UInt8} {text close : TokenKind}
    (resumes : Resumes [] first second)
    (success : (Scan.quotedToken closing text close).run first = (.ok told, firstAfter))
    (success' : (Scan.quotedToken closing text close).run second = (.ok told', secondAfter)) :
    told = told' ∧ firstAfter.Alike secondAfter :=
  resumes.alike.local (.quotedToken closing text close) trivial trivial success success'

/-- Filling the buffers on both sides changes nothing. -/
theorem Resumes.of_takes (resumes : Resumes gap first second)
    (left : Takes false [] first firstAfter) (right : Takes false [] second secondAfter) :
    Resumes gap firstAfter secondAfter := by
  have early := left.state
  have late := right.state
  have start := resumes.state
  have content := resumes.content
  rw [left.content, right.content] at content
  refine ⟨left.honest, right.honest, content, ?_, ?_⟩
  · rw [left.place]
    exact resumes.isGap
  · obtain ⟨source, kind, scope, unsettled, opening, captured, position, place⟩ := second
    obtain ⟨source', kind', scope', unsettled', opening', captured', position', place'⟩ := first
    obtain ⟨source, kind, scope, unsettled, opening, captured, position, place⟩ := secondAfter
    obtain ⟨source', kind', scope', unsettled', opening', captured', position', place'⟩ :=
      firstAfter
    simp only [mk.injEq, Place.pass_nil] at start early late ⊢
    obtain ⟨_, rfl, rfl, rfl, rfl, rfl, rfl, rfl⟩ := early
    obtain ⟨_, rfl, rfl, rfl, rfl, rfl, rfl, rfl⟩ := late
    obtain ⟨_, rfl, rfl, rfl, rfl, rfl, _, rfl⟩ := start
    exact ⟨trivial, rfl, rfl, rfl, rfl, rfl, trivial, rfl⟩

/-- Behind a header name blanks are a token of their own. -/
theorem headerToken_named (honest : first.source.IsHonest) (named : first.kind = .headerName)
    (success : Scan.headerToken.run first = (.ok told, firstAfter)) :
    ∃ filled, Takes false [] first filled ∧
      (if first.source.content.head?.any Ascii.isBlank = true then Scan.separatorToken
        else Scan.spacedToken Scan.headerTokenAt).run filled = (.ok told, firstAfter) := by
  unfold Scan.headerToken at success
  rw [Scan.run_bind, Scan.run_look] at success
  dsimp only at success
  rw [named] at success
  obtain ⟨next, filled, peeked, onward⟩ := Scan.run_bind_ok success
  obtain ⟨taking, _, shown⟩ := peek_takes honest peeked
  rw [← shown]
  refine ⟨filled, taking, ?_⟩
  cases next <;> exact onward

theorem Resumes.separatorToken (resumes : Resumes [] first second)
    (success : Scan.separatorToken.run first = (.ok told, firstAfter))
    (success' : Scan.separatorToken.run second = (.ok told', secondAfter)) :
    told = told' ∧ firstAfter.Alike secondAfter := by
  have captured : (Scan.captureUntil (!Ascii.isBlank ·) >>= fun _ =>
      (pure .separator : Scan TokenKind)).Local :=
    (Scan.LocalFrom.captureUntil _).bind fun _ => .pure _
  exact resumes.alike.local captured trivial trivial success success'

theorem Resumes.headerToken (resumes : Resumes gap first second) (header : first.scope = .header)
    (apart : gap = [] ∨ first.isSpaced = true ∧ second.isSpaced = true)
    (success : Scan.headerToken.run first = (.ok told, firstAfter))
    (success' : Scan.headerToken.run second = (.ok told', secondAfter)) :
    told = told' ∧ firstAfter.Alike secondAfter := by
  obtain ⟨kind, scope, _⟩ := resumes.same
  have spaced (lexer : Lexer) (isSpaced : lexer.isSpaced = true) (header : lexer.scope = .header) :
      lexer.kind ≠ .valueBegin ∧
        (lexer.kind = .headerName → lexer.source.content.head?.any Ascii.isBlank = false) := by
    unfold Lexer.isSpaced at isSpaced
    rw [header] at isSpaced
    exact of_decide_eq_true isSpaced
  by_cases named : first.kind = .headerName
  · obtain ⟨filled, taking, onward⟩ := headerToken_named resumes.honestFirst named success
    obtain ⟨filled', taking', onward'⟩ :=
      headerToken_named resumes.honestSecond (kind.trans named) success'
    have later := resumes.of_takes taking taking'
    rcases apart with rfl | ⟨left, right⟩
    · rw [resumes.content, List.nil_append] at onward
      split at onward
      · next blank =>
        rw [if_pos blank] at onward'
        exact later.separatorToken onward onward'
      · next significant =>
        rw [if_neg significant] at onward'
        exact later.spacedToken .headerTokenAt onward onward'
    · rw [if_neg (Bool.eq_false_iff.mp ((spaced first left header).2 named))] at onward
      rw [if_neg (Bool.eq_false_iff.mp
        ((spaced second right (scope.trans header)).2 (kind.trans named)))] at onward'
      exact later.spacedToken .headerTokenAt onward onward'
  · unfold Scan.headerToken at success success'
    rw [Scan.run_bind, Scan.run_look] at success success'
    dsimp only at success success'
    rw [kind] at success'
    split at success
    · next begun =>
      rw [begun] at success'
      obtain rfl := apart.resolve_right fun both => (spaced first both.1 header).1 begun
      exact resumes.quotedToken success success'
    · next name => exact absurd name named
    · next begun _ =>
      split at success'
      · next other => exact absurd other begun
      · next other => exact absurd other named
      · exact resumes.spacedToken .headerTokenAt success success'

theorem Resumes.movetextToken (resumes : Resumes gap first second)
    (apart : gap = [] ∨ first.kind ≠ .commentBegin)
    (success : Scan.movetextToken.run first = (.ok told, firstAfter))
    (success' : Scan.movetextToken.run second = (.ok told', secondAfter)) :
    told = told' ∧ firstAfter.Alike secondAfter := by
  unfold Scan.movetextToken at success success'
  rw [Scan.run_bind, Scan.run_look] at success success'
  dsimp only at success success'
  rw [resumes.same.1] at success'
  split at success
  · next comment =>
    rw [if_pos comment] at success'
    obtain rfl := apart.resolve_right (not_not_intro comment)
    exact resumes.quotedToken success success'
  · next outside =>
    rw [if_neg outside] at success'
    exact resumes.spacedToken .movetextTokenAt success success'

theorem Resumes.scopedToken (resumes : Resumes gap first second)
    (apart : gap = [] ∨ first.isSpaced = true ∧ second.isSpaced = true)
    (success : Scan.scopedToken.run first = (.ok told, firstAfter))
    (success' : Scan.scopedToken.run second = (.ok told', secondAfter)) :
    told = told' ∧ firstAfter.Alike secondAfter := by
  obtain ⟨kind, scope, _⟩ := resumes.same
  have movetext (outside : gap = [] ∨ first.kind ≠ .commentBegin)
      (success : (Scan.movetextToken >>= fun kind =>
        Scan.change (closeOpening kind) >>= fun _ => pure kind).run first = (.ok told, firstAfter))
      (success' : (Scan.movetextToken >>= fun kind =>
        Scan.change (closeOpening kind) >>= fun _ => pure kind).run second =
          (.ok told', secondAfter)) :
      told = told' ∧ firstAfter.Alike secondAfter := by
    obtain ⟨kind, middle, telling, closing⟩ := Scan.run_bind_ok success
    obtain ⟨kind', middle', telling', closing'⟩ := Scan.run_bind_ok success'
    obtain ⟨rfl, alike⟩ := resumes.movetextToken outside telling telling'
    exact alike.local ((Scan.LocalFrom.closeOpening kind).bind fun _ => .pure kind) trivial trivial
      closing closing'
  have spaced (inside : first.scope = .movetext ∨ first.scope = .termination) :
      gap = [] ∨ first.kind ≠ .commentBegin := by
    refine apart.imp_right fun both => ?_
    have isSpaced := both.1
    unfold Lexer.isSpaced at isSpaced
    rcases inside with inside | inside <;> rw [inside] at isSpaced <;>
      exact of_decide_eq_true isSpaced
  unfold Scan.scopedToken at success success'
  rw [Scan.run_bind, Scan.run_look] at success success'
  dsimp only at success success'
  rw [scope] at success'
  split at success
  · next outside =>
    rw [outside] at success'
    have none : gap = [] := by
      refine apart.resolve_right fun both => ?_
      have isSpaced := both.1
      unfold Lexer.isSpaced at isSpaced
      rw [outside] at isSpaced
      cases isSpaced
    subst none
    exact resumes.alike.local Scan.LocalFrom.finish trivial trivial success success'
  · next header =>
    rw [header] at success'
    exact resumes.headerToken header apart success success'
  · next inside =>
    rw [inside] at success'
    exact movetext (spaced (.inl inside)) success success'
  · next inside =>
    rw [inside] at success'
    exact movetext (spaced (.inr inside)) success success'

/-! ### Asking again -/

/-- Behind the byte order mark the first line is counted. -/
def behindMark (place : Place) : Place :=
  { place.pass byteOrderMark with lineStart := byteOrderMark.length }

/-- Nothing is passed on the way to the second lexer but what may stand between two tokens: a gap,
and at the beginning of the input a byte order mark before it. -/
inductive PassesGap (before after : Lexer) : Prop where
  | plain (gap : Bytes) (content : before.source.content = gap ++ after.source.content)
      (isGap : Place.isGap false before.place gap = true)
      (apart : before.unsettled = true ∨ gap = [] ∨
        before.isSpaced = true ∧ after.isSpaced = true) : PassesGap before after
  | marked (gap : Bytes) (unsettled : before.unsettled = true) (start : before.place.offset = 0)
      (content : before.source.content = byteOrderMark ++ (gap ++ after.source.content))
      (isGap : Place.isGap false (behindMark before.place) gap = true) : PassesGap before after

/-- A call that fails without having passed more than what may stand between two tokens, and not
while the scope was being looked for. -/
structure FailsBetween (before after : Lexer) : Prop where
  failed : ∃ failure, Scan.advance.run before = (.error failure, after)
  gap : PassesGap before after
  found : ¬ before.LosesScope

/-- What was passed is a gap, if no mark was. -/
theorem PassesGap.known (passes : PassesGap lexer after) (settled : lexer.unsettled = false) :
    ∃ gap, lexer.source.content = gap ++ after.source.content ∧
      Place.isGap false lexer.place gap = true ∧
      (gap = [] ∨ lexer.isSpaced = true ∧ after.isSpaced = true) := by
  cases passes with
  | plain gap content isGap apart =>
    exact ⟨gap, content, isGap, apart.resolve_left (Bool.eq_false_iff.mp settled)⟩
  | marked gap unsettled start content isGap =>
    rw [settled] at unsettled
    cases unsettled

/-- A gap that is followed by something else takes in all blanks. -/
theorem eaten_eq_nil {place : Place} {text rest eaten : Bytes}
    (isGap : Place.isGap false place gap = true) (content : text = gap ++ rest)
    (passed : text = Place.blanks false place text ++ (eaten ++ rest)) : eaten = [] := by
  have short := (Place.gap_prefix_blanks isGap content).length_le
  have length := congrArg List.length (content.symm.trans passed)
  rw [List.length_append, List.length_append, List.length_append] at length
  exact List.length_eq_zero_iff.mp (by omega)

/-- Where the scope was found, a gap has been passed whole. -/
theorem PassesGap.found {marked spaced : Lexer} {next : Option UInt8} {eaten : Bytes}
    (passes : PassesGap lexer after) (honest : lexer.source.IsHonest)
    (marking : Scan.passByteOrderMark.run { lexer with captured := [] } = (.ok (), marked))
    (passed : passSpace { marked with unsettled := false } = (.ok next, spaced))
    (content : spaced.source.content = eaten ++ after.source.content) : eaten = [] := by
  have there : ({ lexer with captured := [] } : Lexer).source.IsHonest := honest
  by_cases unmarked : lexer.Unmarked
  · have takes := @Unmarked.takes { lexer with captured := [] } _ unmarked there marking
    have begun : ({ marked with unsettled := false } : Lexer).source.IsHonest := takes.honest
    have taking := (passSpace_takes begun passed).1.content
    have same : lexer.source.content = marked.source.content := takes.content
    have unmoved : marked.place = lexer.place := takes.place
    dsimp only at taking
    rw [← same, unmoved, content] at taking
    cases passes with
    | plain gap whole isGap apart => exact eaten_eq_nil isGap whole taking
    | marked gap unsettled start whole isGap =>
      refine absurd unmarked (not_or.mpr ⟨not_not_intro start, ?_⟩)
      rw [whole, List.isPrefixOf_iff_prefix.mpr (List.prefix_append _ _)]
      exact nofun
  · obtain ⟨start, begins⟩ := not_or.mp unmarked
    obtain ⟨honest, _, _, whole, place⟩ := Scan.passes_byteOrderMark there
      (Decidable.not_not.mp start) (Bool.not_eq_false _ ▸ begins) marking
    have begun : ({ marked with unsettled := false } : Lexer).source.IsHonest := honest
    have taking := (passSpace_takes begun passed).1.content
    dsimp only at taking whole place
    rw [content] at taking
    cases passes with
    | plain gap plain isGap apart =>
      rw [plain, taking] at whole
      cases gap with
      | nil =>
        have length := congrArg List.length whole
        simp [byteOrderMark] at length
        omega
      | cons byte gap =>
        have mark : byte = 0xEF := (List.cons.inj whole).1
        rcases Place.head_gap isGap with space | escape
        · rw [mark] at space
          cases space
        · rw [mark] at escape
          cases escape
    | marked gap unsettled start behind isGap =>
      rw [behind] at whole
      have rest := List.append_cancel_left whole
      rw [place] at taking
      exact eaten_eq_nil isGap rest.symm taking

/-- What was passed within a scope was a gap. The search for the next token goes on behind it. -/
theorem Resumes.of_keeps (kept : lexer.Keeps after) (alike : first.Alike lexer)
    (alike' : second.Alike { after with captured := [] }) (empty : first.captured = [])
    (content : lexer.source.content = gap ++ after.source.content)
    (isGap : Place.isGap false lexer.place gap = true) : Resumes gap first second := by
  obtain ⟨eaten, passed, place⟩ := kept.reads
  obtain rfl : eaten = gap := List.append_cancel_right (passed.symm.trans content)
  have places : first.place = lexer.place := alike.view fun _ _ => rfl
  have whole : second.source.content = after.source.content := alike'.content
  refine ⟨alike.honestFirst, alike'.honestFirst, ?_, by rw [places]; exact isGap, ?_⟩
  · rw [alike.content, whole, content]
  · have left := alike.state
    have right := alike'.state
    obtain ⟨_, kind, scope, unsettled, opening, _⟩ := kept
    obtain ⟨_, _, _, _, _, _, _, _⟩ := lexer
    obtain ⟨_, _, _, _, _, _, _, _⟩ := after
    obtain ⟨_, _, _, _, _, _, _, _⟩ := first
    obtain ⟨_, _, _, _, _, _, _, _⟩ := second
    simp only [mk.injEq] at left right kind scope unsettled opening place empty ⊢
    obtain ⟨_, rfl, rfl, rfl, rfl, _, _, rfl⟩ := left
    obtain ⟨_, rfl, rfl, rfl, rfl, rfl, _, rfl⟩ := right
    exact ⟨trivial, kind, scope, unsettled, opening, empty.symm, trivial, place⟩

theorem Alike.update {update : Lexer → Lexer} (alike : first.Alike second)
    (oblivious : ∀ (lexer : Lexer) (source : Source) (shift : Shift),
      update { lexer.shift shift with source } = { (update lexer).shift shift with source }) :
    (update first).Alike (update second) :=
  alike_iff_tracks.mpr ((alike_iff_tracks.mp alike).update oblivious)

theorem Alike.isSpaced (alike : first.Alike second) : first.isSpaced = second.isSpaced := by
  have scope : first.scope = second.scope := alike.view fun _ _ => rfl
  have kind : first.kind = second.kind := alike.view fun _ _ => rfl
  unfold Lexer.isSpaced
  rw [scope, kind, alike.content]

/-- Nothing is captured on the way to the scope. -/
theorem captured_of_passSpace {marked spaced : Lexer} {next : Option UInt8}
    (honest : marked.source.IsHonest)
    (marking : Scan.passByteOrderMark.run { lexer with captured := [] } = (.ok (), marked))
    (passed : passSpace { marked with unsettled := false } = (.ok next, spaced)) :
    (spaced.settle next).captured = [] := by
  have begun : ({ marked with unsettled := false } : Lexer).source.IsHonest := honest
  have blanks := congrArg Lexer.captured (passSpace_takes begun passed).1.state
  have marks := (keeps_passByteOrderMark { lexer with captured := [] }).2.2.1
  rw [marking] at marks
  obtain ⟨_, _, _, same⟩ := Scan.settle_eq next spaced
  rw [same]
  exact blanks.trans marks

/-- Behind a search for the next token that failed between two tokens, the next token is the one
that would have been told. -/
theorem Misses.resumes (misses : lexer.Misses after) (passes : PassesGap lexer after)
    (found : ¬ lexer.LosesScope) (alike : first.Alike { lexer with captured := [] })
    (alike' : second.Alike { after with captured := [] })
    (success : Scan.nextToken.run first = (.ok told, firstAfter))
    (success' : Scan.nextToken.run second = (.ok told', secondAfter)) :
    told = told' ∧ firstAfter.Alike secondAfter := by
  have flag : first.unsettled = lexer.unsettled := alike.view fun _ _ => rfl
  have flag' : second.unsettled = after.unsettled := alike'.view fun _ _ => rfl
  have empty : first.captured = [] := alike.view fun _ _ => rfl
  cases misses with
  | atMark unsettled marking =>
    obtain rfl := passByteOrderMark_failed marking
    have same : first.Alike second := by
      refine ⟨alike.honestFirst, alike'.honestFirst, ?_, ?_⟩
      · rw [alike.content, alike'.content]
        exact (Source.content_fill lexer.source).symm
      · have left := alike.state
        have right := alike'.state
        rw [← left]
        exact (congrArg ({ · with source := first.source }) right).symm
    obtain ⟨told, later⟩ :=
      (alike_iff_tracks.mp same).nextToken (.inl rfl) success success' (.inl rfl)
    exact ⟨told, alike_iff_tracks.mpr later⟩
  | inSearch unsettled marking searching =>
    exact absurd ⟨unsettled, _, _, _, marking, searching⟩ found
  | @found marked settled _ unsettled marking searching missing =>
    have kept := Scan.StillCutShort.scopedToken missing
    have known : second.unsettled = false :=
      flag'.trans (kept.unsettled.trans (unsettled_of_findScope searching))
    have onward' := scopedToken_of_nextToken known success'
    obtain ⟨marked', settled', marking', searching', onward⟩ :=
      findScope_of_nextToken (flag.trans unsettled) success
    have between := (alike_iff_tracks.mp alike).passByteOrderMark (.inl rfl) marking' marking
      (.inl rfl)
    have there := ((alike_iff_tracks.mpr between).local Scan.LocalFrom.findScope trivial trivial
      searching' searching).2
    obtain ⟨next, spaced, passed, rfl⟩ := findScope_eq searching
    obtain ⟨eaten, content, _⟩ := kept.reads
    obtain ⟨scope, kind, opening, same⟩ := Scan.settle_eq next spaced
    have captured : settled'.captured = (spaced.settle next).captured := there.view fun _ _ => rfl
    have empty := captured.trans (captured_of_passSpace between.honestSecond marking passed)
    rw [same] at content
    obtain rfl := passes.found alike.honestSecond marking passed content
    rw [← same] at content
    have resumes := Resumes.of_keeps kept there alike' empty content rfl
    exact resumes.scopedToken (.inl rfl) onward onward'
  | known settled missing =>
    have kept := Scan.StillCutShort.scopedToken missing
    have onward := scopedToken_of_nextToken (flag.trans settled) success
    have onward' := scopedToken_of_nextToken (flag'.trans (kept.unsettled.trans settled)) success'
    obtain ⟨gap, content, isGap, apart⟩ := passes.known settled
    have resumes := Resumes.of_keeps kept alike alike' empty content isGap
    refine resumes.scopedToken ?_ onward onward'
    rw [alike.isSpaced, alike'.isSpaced]
    exact apart

/-- Behind a call that failed between two tokens the next token is the one that would have come. -/
theorem FailsBetween.resumes {before after : Lexer} (fails : FailsBetween before after)
    (alike : first.Alike before) (alike' : second.Alike after)
    (success : Scan.advance.run first = (.ok (), firstAfter))
    (success' : Scan.advance.run second = (.ok (), secondAfter)) :
    firstAfter.Alike secondAfter := by
  obtain ⟨kind, told, telling, rfl⟩ := nextToken_of_advance success
  obtain ⟨kind', told', telling', rfl⟩ := nextToken_of_advance success'
  obtain ⟨failure, failed⟩ := fails.failed
  have emptied := @Alike.update _ _ ({ · with captured := [] }) alike fun _ _ _ => rfl
  have emptied' := @Alike.update _ _ ({ · with captured := [] }) alike' fun _ _ _ => rfl
  obtain ⟨rfl, later⟩ := (misses_of_advance failed).resumes fails.gap fails.found emptied emptied'
    telling telling'
  exact @Alike.update _ _ ({ · with kind }) later fun _ _ _ => rfl

/-- The lexer with all that is still to come in memory, where nothing fails. -/
def inMemory (lexer : Lexer) : Lexer := { lexer with source := .ofBytes lexer.source.content }

theorem alike_inMemory (honest : lexer.source.IsHonest) : lexer.inMemory.Alike lexer where
  honestFirst := trivial
  honestSecond := honest
  content := List.append_nil _
  state := rfl

theorem Alike.trans (left : first.Alike second) (right : second.Alike lexer) :
    first.Alike lexer where
  honestFirst := left.honestFirst
  honestSecond := right.honestSecond
  content := left.content.trans right.content
  state := by
    have start := right.state
    have later := left.state
    rw [← later, ← start]

theorem Misses.honest (misses : lexer.Misses after) (honest : lexer.source.IsHonest) :
    after.source.IsHonest := by
  have marks := (keeps_passByteOrderMark { lexer with captured := [] }).2.2.2 honest
  cases misses with
  | atMark unsettled marking =>
    rw [marking] at marks
    exact marks
  | inSearch unsettled marking searching =>
    rw [marking] at marks
    exact (Scan.Still.passSpace.cutShort searching).honest marks
  | @found marked _ _ unsettled marking searching telling =>
    rw [marking] at marks
    obtain ⟨next, spaced, passed, rfl⟩ := findScope_eq searching
    have begun : ({ marked with unsettled := false } : Lexer).source.IsHonest := marks
    have there := (passSpace_takes begun passed).1.honest
    obtain ⟨scope, kind, opening, same⟩ := Scan.settle_eq next spaced
    have kept := Scan.StillCutShort.scopedToken telling
    rw [same] at kept
    exact kept.honest there
  | known settled telling => exact (Scan.StillCutShort.scopedToken telling).honest honest

/-- A source that fails is taken for an exhausted one exactly if the scope was being looked for from
outside any. Otherwise the next token can be asked for again between tokens: as long as the calls
that fail pass nothing but a byte order mark and gaps, and none of them fails while the scope is
being looked for, the first call that succeeds tells the token that would have been told if no call
had failed, and leaves the lexer in the same state. -/
theorem failed_advance_resumes (lexer : Lexer) (honest : lexer.source.IsHonest) :
    (∀ failure after, Scan.advance.run lexer = (.error failure, after) →
      (after.isExhausted = true ↔ lexer.LosesScope ∧ lexer.scope = .outside)) ∧
    ∀ last result, Relation.ReflTransGen FailsBetween lexer last →
      Scan.advance.run last = (.ok (), result) →
      ∃ whole, Scan.advance.run lexer.inMemory = (.ok (), whole) ∧ whole.Alike result ∧
        whole.view = result.view := by
  refine ⟨fun failure after failed => isExhausted_of_misses (misses_of_advance failed), ?_⟩
  intro last result chain success
  suffices resumes : ∃ whole, Scan.advance.run lexer.inMemory = (.ok (), whole) ∧
      whole.Alike result by
    obtain ⟨whole, told, alike⟩ := resumes
    exact ⟨whole, told, alike, alike.view fun _ _ => rfl⟩
  revert honest
  induction chain using Relation.ReflTransGen.head_induction_on with
  | refl =>
    intro honest
    obtain ⟨whole, told, _⟩ := @advance_of_isUnfailing last.inMemory trivial
    exact ⟨whole, told, (alike_inMemory honest).advance told success⟩
  | @head before after fails _ inductionHypothesis =>
    intro honest
    obtain ⟨failure, failed⟩ := fails.failed
    have honestAfter := (misses_of_advance failed).honest honest
    obtain ⟨whole', told', alike⟩ := inductionHypothesis honestAfter
    obtain ⟨whole, told, _⟩ := @advance_of_isUnfailing before.inMemory trivial
    have same := fails.resumes (alike_inMemory honest) (alike_inMemory honestAfter) told told'
    exact ⟨whole, told, same.trans alike⟩

/-- Whether a search for the next token fails can be computed. -/
theorem advance_eq_of_isOk (success : (Scan.advance.run lexer).1.isOk = true) :
    Scan.advance.run lexer = (.ok (), (Scan.advance.run lexer).2) := by
  rcases found : Scan.advance.run lexer with ⟨result | none, after⟩
  · rw [found] at success
    cases success
  · rfl

theorem advance_eq_of_not_isOk (failed : (Scan.advance.run lexer).1.isOk = false) :
    ∃ failure, Scan.advance.run lexer = (.error failure, (Scan.advance.run lexer).2) := by
  rcases found : Scan.advance.run lexer with ⟨failure | none, after⟩
  · exact ⟨failure, rfl⟩
  · rw [found] at failed
    cases failed

/-- The device fails once it has delivered a move number and the white space behind it. -/
def interrupted : Lexer :=
  .ofSource (.ofDevice ⟨Bytes.ofString "1        . e4 *", [.deliver 9, .fail ⟨"busy"⟩], .deliverAll⟩)

/-- Behind the move number. -/
def paused : Lexer := (Scan.advance.run interrupted).2

/-- The call that fails has passed the white space, and the next one tells the dot behind it. -/
theorem failed_advance_resumes_paused :
    let last := (Scan.advance.run paused).2
    let result := (Scan.advance.run last).2
    paused.source.IsHonest ∧ Relation.ReflTransGen FailsBetween paused last ∧
      Scan.advance.run last = (.ok (), result) ∧ last.place.offset = 9 ∧
      (∃ whole, Scan.advance.run paused.inMemory = (.ok (), whole) ∧ whole.Alike result ∧
        whole.view = result.view) ∧
      result.token = ⟨.dot, [Ascii.dot], ⟨1, 9, 9⟩⟩ := by
  intro last result
  have honest : paused.source.IsHonest := by
    have begun : interrupted.source.IsHonest := .ofDevice (by unfold Device.IsHonest; decide)
    exact ((alike_inMemory begun).advance (advance_eq_of_isOk (by decide +kernel))
      (advance_eq_of_isOk (by decide +kernel))).honestSecond
  have fails : FailsBetween paused last := by
    refine ⟨advance_eq_of_not_isOk (by decide +kernel), ?_, ?_⟩
    · exact .plain (Bytes.ofString "        ") (by decide +kernel) (by decide +kernel)
        (.inr (.inr (by decide +kernel)))
    · exact fun loses => absurd loses.1 (by decide +kernel)
  have success : Scan.advance.run last = (.ok (), result) :=
    advance_eq_of_isOk (by decide +kernel)
  exact ⟨honest, .single fails, success, by decide +kernel,
    (failed_advance_resumes paused honest).2 last result (.single fails) success,
    by decide +kernel⟩

/-- The device fails once it has delivered the white space in front of a game. -/
def delayed : Lexer :=
  .ofSource (.ofDevice ⟨Bytes.ofString "        1. e4 *", [.deliver 8, .fail ⟨"busy"⟩], .deliverAll⟩)

/-- A source that fails in front of the first game is taken for an exhausted one, although nothing
but white space was passed, and then the game is not read any more. -/
theorem isExhausted_delayed :
    let after := (Scan.advance.run delayed).2
    delayed.source.IsHonest ∧ delayed.isExhausted = false ∧
      (∃ failure, Scan.advance.run delayed = (.error failure, after)) ∧
      delayed.source.content = Bytes.ofString "        " ++ after.source.content ∧
      after.isExhausted = true ∧
      (∃ result, Scan.advance.run after = (.ok (), result) ∧ result.token.kind = .undefined) ∧
      ∃ whole, Scan.advance.run delayed.inMemory = (.ok (), whole) ∧
        whole.token.kind = .moveNumber := by
  intro after
  exact ⟨.ofDevice (by unfold Device.IsHonest; decide), by decide +kernel,
    advance_eq_of_not_isOk (by decide +kernel), by decide +kernel, by decide +kernel,
    ⟨_, advance_eq_of_isOk (by decide +kernel), by decide +kernel⟩,
    ⟨_, advance_eq_of_isOk (by decide +kernel), by decide +kernel⟩⟩

end Lexer

end Scoresheet
