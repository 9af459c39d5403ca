/-
This file shows that inputs that follow each other make their events one after the other. The first
input has to end with a marker, except for white space and escaped lines behind it, and with a line
feed. Up to the marker, the lexer of both inputs tracks the one of the first input; behind it, the
lexer starts anew and tracks the one of the second input. So the games are those of the two inputs,
and so are the errors, but for where they tell that they are.
-/

import Scoresheet.Cache.PairHash
import Scoresheet.Proofs.History
import Scoresheet.Proofs.Restart

namespace Scoresheet

/-! ### Events of a text that is moved on -/

/-- A game is the same wherever it stands, and an error tells where it stands. -/
def Event.shift (shift : Shift) : Event → Event
  | game found => .game found
  | recorded error => .recorded (error.shift shift)
  | skipped => .skipped

theorem Event.shift_zero (event : Event) : event.shift ⟨0, 0⟩ = event := by
  cases event with
  | game game => rfl
  | recorded error => cases error <;> rfl
  | skipped => rfl

theorem Draft.conclude_shift (config : Config) (draft : Draft) (position : Position)
    (shift : Shift) :
    draft.conclude config (position.shift shift) =
      (draft.conclude config position).mapError (ReadError.shift shift) := by
  unfold conclude
  split <;> rfl

theorem Verdict.reading_shift (config : Config) (position : Position) (verdict : Verdict)
    (shift : Shift) :
    (verdict.shift shift).reading config (position.shift shift) =
      (verdict.reading config position).mapError (ReadError.shift shift) := by
  cases verdict with
  | unfinished draft =>
    show (draft.conclude config (position.shift shift)).map _ = _
    rw [Draft.conclude_shift]
    show _ = ((draft.conclude config position).map _).mapError _
    cases draft.conclude config position <;> rfl
  | refused error => rfl
  | finished game => rfl

namespace Lexer

variable {rest : Bytes} {shift : Shift} {first second lexer after : Lexer} {config : Config}

theorem Tracks.token (tracks : Tracks rest shift first second) :
    second.token = first.token.shift shift := by
  rw [tracks.eq]
  rfl

theorem Tracks.start (tracks : Tracks rest shift first second) :
    second.start = first.start.shift shift := by
  rw [tracks.eq]
  rfl

theorem Tracks.isExhausted (tracks : Tracks rest shift first second) :
    second.isExhausted = first.isExhausted := tracks.view fun _ _ _ => rfl

/-- From the next token on the second lexer tracks the first one. -/
structure Pursues (rest : Bytes) (shift : Shift) (first second : Lexer) : Prop where
  unfailingFirst : first.source.IsUnfailing
  unfailingSecond : second.source.IsUnfailing
  tracks : ∀ ⦃firstAfter secondAfter : Lexer⦄, Scan.advance.run first = (.ok (), firstAfter) →
    Scan.advance.run second = (.ok (), secondAfter) → firstAfter.Separate rest →
    Tracks rest shift firstAfter secondAfter

theorem Tracks.pursues (tracks : Tracks rest shift first second)
    (unmoved : shift.bytes = 0 ∨ first.Unmarked) (unfailing : first.source.IsUnfailing)
    (unfailing' : second.source.IsUnfailing) : Pursues rest shift first second where
  unfailingFirst := unfailing
  unfailingSecond := unfailing'
  tracks _ _ success success' apart := tracks.advance unmoved success success' apart

/-- The segment has the same tokens, moved on. -/
theorem Pursues.segment (pursues : Pursues rest shift first second)
    (apart : first.segment.2.Separate rest) :
    second.segment.1 = first.segment.1.map (Token.shift shift) ∧
      Tracks rest shift first.segment.2 second.segment.2 := by
  induction first using segment_induction generalizing second with
  | failed lexer after failure failed =>
    exact absurd failed (advance_ne_error pursues.unfailingFirst)
  | last lexer after success last =>
    obtain ⟨after', success', _⟩ := advance_of_isUnfailing pursues.unfailingSecond
    rw [segment_of_last success last] at apart ⊢
    have later := pursues.tracks success success' apart
    rw [segment_of_last success' (later.isExhausted.trans last)]
    exact ⟨rfl, later⟩
  | marker lexer after success more marker =>
    obtain ⟨after', success', _⟩ := advance_of_isUnfailing pursues.unfailingSecond
    rw [segment_of_marker success more marker] at apart ⊢
    have later := pursues.tracks success success' apart
    have marker' : after'.kind = .termination := (later.view fun _ _ _ => rfl).trans marker
    rw [segment_of_marker success' (later.isExhausted.trans more) marker', later.token]
    exact ⟨rfl, later⟩
  | inside lexer after success more within inductionHypothesis =>
    obtain ⟨after', success', unfailing'⟩ := advance_of_isUnfailing pursues.unfailingSecond
    rw [segment_of_inside success more within] at apart ⊢
    have later := pursues.tracks success success' (apart.before (consumes_segment after))
    have within' : after'.kind ≠ .termination := by
      rwa [show after'.kind = after.kind from later.view fun _ _ _ => rfl]
    have taken := offset_lt_of_advance success more
    have onward := later.pursues (.inr (.inl (Nat.ne_zero_of_lt taken)))
      (isUnfailing_of_advance pursues.unfailingFirst success) unfailing'
    obtain ⟨tokens, last⟩ := inductionHypothesis onward apart
    rw [segment_of_inside success' (later.isExhausted.trans more) within', later.token, tokens]
    exact ⟨rfl, last⟩

theorem Pursues.event? (pursues : Pursues rest shift first second)
    (apart : first.segment.2.Separate rest) :
    second.event? config = (first.event? config).map (Event.shift shift) := by
  obtain ⟨tokens, last⟩ := pursues.segment apart
  unfold Lexer.event?
  rw [tokens, last.start, Draft.judge_shift, Verdict.reading_shift]
  cases (Draft.start.judge config first.segment.1).reading config first.segment.2.start with
  | error error => rfl
  | ok game => cases game <;> rfl

/-- With nothing behind the first text, all that happens is the same, moved on. -/
theorem Pursues.history (pursues : Pursues [] shift first second) :
    second.history config = (first.history config).map (Event.shift shift) := by
  induction size : first.source.content.length using Nat.strongRecOn generalizing first second with
  | ind size inductionHypothesis =>
    obtain ⟨_, last⟩ := pursues.segment (.inl rfl)
    have later : second.segment.2.history config =
        (first.segment.2.history config).map (Event.shift shift) := by
      cases more : first.segment.2.isExhausted with
      | true =>
        rw [history_of_isExhausted more, history_of_isExhausted (last.isExhausted.trans more)]
        rfl
      | false =>
        have taken := offset_lt_segment pursues.unfailingFirst more
        have shorter := (consumes_segment first).content_lt taken
        have onward := last.pursues (.inr (.inl (Nat.ne_zero_of_lt taken)))
          (ends_of_isUnfailing pursues.unfailingFirst).2
          (ends_of_isUnfailing pursues.unfailingSecond).2
        exact inductionHypothesis _ (size ▸ shorter) onward rfl
    rw [history_eq pursues.unfailingSecond, history_eq pursues.unfailingFirst,
      pursues.event? (.inl rfl), later, List.map_append, Option.toList_map]

/-- As long as the first lexer stays before the last line feed of its text, the same happens. -/
theorem Tracks.history_afterSegments (tracks : Tracks rest ⟨0, 0⟩ first second)
    (unfailing : first.source.IsUnfailing) (unfailing' : second.source.IsUnfailing) {count : Nat}
    (apart : (first.afterSegments count).Separate rest) :
    ∃ events,
      first.history config = events ++ (first.afterSegments count).history config ∧
      second.history config = events ++ (second.afterSegments count).history config ∧
      Tracks rest ⟨0, 0⟩ (first.afterSegments count) (second.afterSegments count) ∧
      (first.afterSegments count).source.IsUnfailing ∧
      (second.afterSegments count).source.IsUnfailing := by
  induction count with
  | zero => exact ⟨[], rfl, rfl, tracks, unfailing, unfailing'⟩
  | succ count inductionHypothesis =>
    obtain ⟨events, early, early', between, reliable, reliable'⟩ :=
      inductionHypothesis (apart.before (consumes_segment _))
    have pursues := between.pursues (.inl rfl) reliable reliable'
    have event := @Pursues.event? _ _ _ _ config pursues apart
    rw [funext Event.shift_zero, Option.map_id_fun'] at event
    refine ⟨events ++ ((first.afterSegments count).event? config).toList, ?_, ?_,
      (pursues.segment apart).2, (ends_of_isUnfailing reliable).2,
      (ends_of_isUnfailing reliable').2⟩
    · rw [early, history_eq reliable, List.append_assoc]
      rfl
    · rw [early', history_eq reliable', event, List.append_assoc]
      rfl

/-! ### The last marker -/

/-- The current token is a termination marker, and behind it there are only white space and escaped
lines. -/
structure IsAtLastMarker (lexer : Lexer) : Prop where
  marker : lexer.kind = .termination
  blank : Place.blanks false lexer.place lexer.source.content = lexer.source.content

/-- A marker takes something. -/
theorem offset_ne_zero_of_marker (success : Scan.advance.run lexer = (.ok (), after))
    (marker : after.kind = .termination) : after.place.offset ≠ 0 :=
  Nat.ne_zero_of_lt (offset_lt_of_advance success (isExhausted_of_marker success marker))

theorem reset_of_marker (success : Scan.advance.run lexer = (.ok (), after))
    (marker : after.kind = .termination) (honest : after.source.IsHonest) : after.IsReset := by
  have fits := fits_of_advance success
  rw [marker] at fits
  exact {
    honest := honest
    unsettled := fits.unsettled
    opening := opening_of_advance success marker
    outside := ⟨by rw [fits.scope]; decide, .inr marker⟩
    unmarked := .inl (offset_ne_zero_of_marker success marker) }

/-- A marker does not end with a line feed, so a line feed at the end of the text is behind it. -/
theorem getLast?_of_marker {text : Bytes} (success : Scan.advance.run lexer = (.ok (), after))
    (marker : after.kind = .termination) (within : lexer.source.content <:+ text)
    (ends : text.getLast? = some Ascii.lineFeed) :
    after.source.content.getLast? = some Ascii.lineFeed := by
  have fits := fits_of_advance success
  rw [marker] at fits
  obtain ⟨outcome, _, passed, content⟩ := fits.taken
  obtain ⟨before, rfl⟩ := within
  rw [content, List.getLast?_append, List.getLast?_append, List.getLast?_append] at ends
  cases last : after.source.content.getLast? with
  | some byte =>
    rw [last] at ends
    exact ends
  | none =>
    rw [last] at ends
    cases outcome <;> cases ends

theorem event?_of_last (success : Scan.advance.run lexer = (.ok (), after))
    (last : after.isExhausted = true) : lexer.event? config = none := by
  unfold Lexer.event?
  rw [segment_of_last success last]
  rfl

/-- With nothing but blanks to come, the next token is the last. -/
theorem IsReset.isExhausted (reset : lexer.IsReset)
    (blank : Place.blanks false lexer.place lexer.source.content = lexer.source.content)
    (success : Scan.advance.run lexer = (.ok (), after)) : after.isExhausted = true := by
  obtain ⟨kind, told, token, rfl⟩ := nextToken_of_advance success
  obtain ⟨next, middle, found, taking, shown⟩ := reset.emptied.scopedToken token
  have content := taking.content
  dsimp only at content
  rw [blank, List.self_eq_append_right] at content
  rw [content] at shown
  subst shown
  cases found
  rfl

/-- Nothing happens behind the last marker. -/
theorem IsReset.history_of_blank (reset : lexer.IsReset) (unfailing : lexer.source.IsUnfailing)
    (blank : Place.blanks false lexer.place lexer.source.content = lexer.source.content) :
    lexer.history config = [] := by
  obtain ⟨after, success, _⟩ := advance_of_isUnfailing unfailing
  have last := reset.isExhausted blank success
  rw [history_eq unfailing, event?_of_last success last, segment_of_last success last,
    history_of_isExhausted last]
  rfl

/-- No marker comes behind the last token. -/
theorem ahead_of_last (success : Scan.advance.run lexer = (.ok (), after))
    (last : after.isExhausted = true) (count : Nat) : (after.ahead count).kind ≠ .termination := by
  induction count generalizing lexer after with
  | zero =>
    intro marker
    rw [isExhausted_of_marker success marker] at last
    cases last
  | succ count inductionHypothesis =>
    obtain ⟨next, success', last'⟩ := advance_of_isExhausted last
    rw [ahead, success']
    exact inductionHypothesis success' last'

/-- At every marker a segment ends. -/
theorem exists_afterSegments {count : Nat} (unfailing : lexer.source.IsUnfailing)
    (marker : (lexer.ahead count).kind = .termination) :
    ∃ segments, lexer.ahead count = lexer.afterSegments segments := by
  induction count generalizing lexer with
  | zero => exact ⟨0, rfl⟩
  | succ count inductionHypothesis =>
    obtain ⟨after, success, later⟩ := advance_of_isUnfailing unfailing
    rw [ahead, success] at marker ⊢
    obtain ⟨segments, same⟩ := inductionHypothesis later marker
    rw [same]
    cases last : after.isExhausted with
    | true => exact absurd marker (ahead_of_last success last count)
    | false =>
      by_cases ended : after.kind = .termination
      · refine ⟨segments + 1, ?_⟩
        rw [← afterSegments_segment, segment_of_marker success last ended]
      · cases segments with
        | zero =>
          rw [same] at marker
          exact absurd marker ended
        | succ segments =>
          refine ⟨segments + 1, ?_⟩
          rw [← afterSegments_segment, ← afterSegments_segment,
            segment_of_inside success last ended]

theorem isUnfailing_ahead (unfailing : lexer.source.IsUnfailing) (count : Nat) :
    (lexer.ahead count).source.IsUnfailing := by
  induction count generalizing lexer with
  | zero => exact unfailing
  | succ count inductionHypothesis =>
    obtain ⟨after, success, later⟩ := advance_of_isUnfailing unfailing
    rw [ahead, success]
    exact inductionHypothesis later

theorem Tracks.isReset (tracks : Tracks rest shift first second) (reset : first.IsReset)
    (taken : first.place.offset ≠ 0) : second.IsReset where
  honest := tracks.honestSecond
  unsettled := (tracks.view fun _ _ _ => rfl).trans reset.unsettled
  opening := (tracks.view fun _ _ _ => rfl).trans reset.opening
  outside := by
    rw [show second.scope = first.scope from tracks.view fun _ _ _ => rfl,
      show second.kind = first.kind from tracks.view fun _ _ _ => rfl]
    exact reset.outside
  unmarked := .inl (by
    rw [tracks.place]
    exact fun none => taken (Nat.eq_zero_of_add_eq_zero_right none))

end Lexer

/-- The last token of the text is a termination marker, behind which there are only white space and
escaped lines, and the text ends with a line feed. -/
structure Bytes.IsClosed (text : Bytes) : Prop where
  marked : ∃ count, ((Lexer.ofSource (.ofBytes text)).ahead count).IsAtLastMarker
  ends : text.getLast? = some Ascii.lineFeed

/-- The source gives all of the text, in whatever pieces. -/
structure Source.Delivers (text : Bytes) (source : Source) : Prop where
  honest : source.IsHonest
  unfailing : source.IsUnfailing
  content : source.content = text

section Concatenation

variable {config : Config} {early late : Bytes} {first second whole : Source}

theorem Source.Delivers.ofBytes (text : Bytes) : (Source.ofBytes text).Delivers text :=
  ⟨trivial, trivial, List.append_nil text⟩

theorem Source.Delivers.isReset (delivers : second.Delivers late)
    (unmarked : ¬ byteOrderMark <+: late) : (Lexer.ofSource second).IsReset where
  honest := delivers.honest
  unsettled := rfl
  opening := rfl
  outside := ⟨nofun, .inl rfl⟩
  unmarked := .inr (by
    show byteOrderMark.isPrefixOf second.content = false
    rw [delivers.content, Bool.eq_false_iff]
    exact mt List.isPrefixOf_iff_prefix.mp unmarked)

/-- What happens depends on the text and not on its source. -/
theorem Source.Delivers.history (delivers : first.Delivers early)
    (delivers' : second.Delivers early) :
    (Lexer.ofSource first).history config = (Lexer.ofSource second).history config := by
  have content : first.content = second.content ++ [] := by
    rw [delivers.content, delivers'.content, List.append_nil]
  have tracks : Lexer.Tracks [] ⟨0, 0⟩ (.ofSource second) (.ofSource first) :=
    ⟨delivers'.honest, delivers.honest, content, rfl⟩
  rw [(tracks.pursues (.inl rfl) delivers'.unfailing delivers.unfailing).history,
    funext Event.shift_zero, List.map_id_fun', id_eq]

/-- The last marker of a text that is closed, and what is behind it. -/
theorem Bytes.IsClosed.exists_last (closed : early.IsClosed) :
    ∃ segments before last, Scan.advance.run before = (.ok (), last) ∧ last.IsAtLastMarker ∧
      (Lexer.ofSource (.ofBytes early)).afterSegments segments = last ∧
      (Lexer.ofSource (.ofBytes early)).Consumes last ∧
      last.source.content.getLast? = some Ascii.lineFeed := by
  obtain ⟨⟨count, atMarker⟩, ends⟩ := closed
  have start : (Lexer.ofSource (.ofBytes early)).source.content = early := List.append_nil early
  have begin_ : (Lexer.ofSource (.ofBytes early)).source.IsUnfailing := trivial
  obtain ⟨segments, same⟩ := Lexer.exists_afterSegments begin_ atMarker.marker
  cases count with
  | zero => cases atMarker.marker
  | succ count =>
    obtain ⟨last, success, _⟩ :=
      Lexer.advance_of_isUnfailing (Lexer.isUnfailing_ahead begin_ count)
    have reached : (Lexer.ofSource (.ofBytes early)).ahead (count + 1) = last := by
      rw [Lexer.ahead_add, Lexer.ahead, success]
      rfl
    have within := Lexer.consumes_ahead count (.ofSource (.ofBytes early))
    have consumes := Lexer.consumes_ahead (count + 1) (.ofSource (.ofBytes early))
    rw [reached] at same consumes atMarker
    obtain ⟨eaten, content, _⟩ := within
    rw [start] at content
    exact ⟨segments, _, last, success, atMarker, same.symm, consumes,
      Lexer.getLast?_of_marker success atMarker.marker ⟨eaten, content.symm⟩ ends⟩

/-- Behind a text that is closed all that happens in another text happens, moved on. -/
theorem history_append (closed : early.IsClosed) (unmarked : ¬ byteOrderMark <+: late)
    (delivers : second.Delivers late) (delivers' : whole.Delivers (early ++ late)) :
    (Lexer.ofSource whole).history config =
      (Lexer.ofSource (.ofBytes early)).history config ++
        ((Lexer.ofSource second).history config).map
          (Event.shift ⟨early.length, early.count Ascii.lineFeed⟩) := by
  have start : (Lexer.ofSource (.ofBytes early)).source.content = early := List.append_nil early
  obtain ⟨segments, before, last, success, atMarker, reached, consumes, ends⟩ := closed.exists_last
  have tracks : Lexer.Tracks late ⟨0, 0⟩ (.ofSource (.ofBytes early)) (.ofSource whole) :=
    ⟨trivial, delivers'.honest, by rw [start]; exact delivers'.content, rfl⟩
  obtain ⟨events, first, both, between, unfailing, unfailing'⟩ :=
    @Lexer.Tracks.history_afterSegments _ _ _ config tracks trivial delivers'.unfailing segments
      (.inr (reached ▸ ends))
  rw [reached] at first between unfailing
  generalize (Lexer.ofSource whole).afterSegments segments = behind at both between unfailing'
  have reset := Lexer.reset_of_marker success atMarker.marker between.honestFirst
  have reset' := between.isReset reset (Lexer.offset_ne_zero_of_marker success atMarker.marker)
  have place : behind.place = last.place := between.place
  have next : last.place.pass last.source.content =
      Place.start.shift ⟨early.length, early.count Ascii.lineFeed⟩ := by
    obtain ⟨eaten, whole, offset, line⟩ := consumes
    have begins : (Lexer.ofSource (.ofBytes early)).place = Place.start := rfl
    rw [start] at whole
    rw [begins, Place.start] at offset line
    have lengths := congrArg List.length whole
    have counts := congrArg (List.count Ascii.lineFeed) whole
    rw [List.length_append] at lengths
    rw [List.count_append] at counts
    exact Place.pass_eq_shift ends (by dsimp only at offset ⊢; omega)
      (by dsimp only at line ⊢; omega)
  have restart : Lexer.Pursues [] ⟨early.length, early.count Ascii.lineFeed⟩ (.ofSource second)
      behind := by
    refine ⟨delivers.unfailing, unfailing', fun firstAfter secondAfter ahead ahead' _ => ?_⟩
    refine (delivers.isReset unmarked).tracks reset' ?_ ?_ ?_ ends ahead ahead'
    · rw [between.content]
      exact congrArg (last.source.content ++ ·) delivers.content.symm
    · rw [place]
      exact next
    · rw [place]
      exact atMarker.blank
  rw [both, restart.history, first, reset.history_of_blank unfailing atMarker.blank,
    List.append_nil]

variable [Hashable HeaderPair]

/-- A reader over a text that recovers from errors and has no limit, if it is asked for the next
game often enough, comes to its end and makes the history of the text. -/
theorem Source.Delivers.run_next (delivers : first.Delivers early)
    (recovering : config.stopOnError = false) (unlimited : config.gameLimit = none) {calls : Nat}
    (enough : early.length + 2 ≤ calls) :
    ((Reader.start config (.ofSource first)).run (List.replicate calls .next)).2.isDone = true ∧
      ((Reader.start config (.ofSource first)).run (List.replicate calls .next)).1 =
        (Lexer.ofSource first).history config := by
  have content : (Reader.start config (.ofSource first)).lexer.source.content = early :=
    delivers.content
  refine ⟨?_, Reader.run_next_eq_history recovering unlimited delivers.unfailing
    (by rw [content]; exact enough)⟩
  rw [Reader.run_next]
  exact (Reader.endsWithin_content _).isDone (by rw [content]; exact enough)

/-- Inputs that follow each other yield the games and the errors of the first one, and then those of
the second one. The games are the same, and the errors tell that they are further along, by the
bytes and the lines of the first input. -/
theorem Reader.run_append (recovering : config.stopOnError = false)
    (unlimited : config.gameLimit = none) (closed : early.IsClosed)
    (unmarked : ¬ byteOrderMark <+: late) (deliversFirst : first.Delivers early)
    (deliversSecond : second.Delivers late) (deliversWhole : whole.Delivers (early ++ late))
    {calls : Nat} (enough : (early ++ late).length + 2 ≤ calls) :
    (∀ source ∈ [first, second, whole],
      ((start config (.ofSource source)).run (List.replicate calls .next)).2.isDone = true) ∧
    ((start config (.ofSource whole)).run (List.replicate calls .next)).1 =
      ((start config (.ofSource first)).run (List.replicate calls .next)).1 ++
        ((start config (.ofSource second)).run (List.replicate calls .next)).1.map
          (Event.shift ⟨early.length, early.count Ascii.lineFeed⟩) := by
  have lengths : (early ++ late).length = early.length + late.length := List.length_append
  obtain ⟨doneFirst, runFirst⟩ :=
    deliversFirst.run_next recovering unlimited (Nat.le_trans (by omega) enough)
  obtain ⟨doneSecond, runSecond⟩ :=
    deliversSecond.run_next recovering unlimited (Nat.le_trans (by omega) enough)
  obtain ⟨doneWhole, runWhole⟩ := deliversWhole.run_next recovering unlimited enough
  refine ⟨fun source member => ?_, ?_⟩
  · simp only [List.mem_cons, List.not_mem_nil, or_false] at member
    rcases member with rfl | rfl | rfl
    · exact doneFirst
    · exact doneSecond
    · exact doneWhole
  · rw [runWhole, runFirst, runSecond, deliversFirst.history (.ofBytes early)]
    exact history_append closed unmarked deliversSecond deliversWhole

end Concatenation

/-- A game, and an escaped line behind it. -/
def Bytes.closedGame : Bytes := Bytes.ofString "1. e4 *\n% note\n"

/-- A game that is refused. -/
def Bytes.refusedGame : Bytes := Bytes.ofString "1. d4 ] 1-0\n"

/-- The standard settings, but for going on behind an error. -/
def Config.forgiving : Config := { Config.standard with stopOnError := false }

open scoped PairHash

theorem Reader.run_append_closedGame :
    Bytes.closedGame.IsClosed ∧ ¬ byteOrderMark <+: Bytes.refusedGame ∧
      ((start .forgiving (.ofSource (.ofBytes (Bytes.closedGame ++ Bytes.refusedGame)))).run
          (List.replicate 30 .next)).1 =
        ((start .forgiving (.ofSource (.ofBytes Bytes.closedGame))).run
            (List.replicate 30 .next)).1 ++
          ((start .forgiving (.ofSource (.ofBytes Bytes.refusedGame))).run
            (List.replicate 30 .next)).1.map (Event.shift ⟨15, 2⟩) := by
  have closed : Bytes.closedGame.IsClosed :=
    ⟨⟨4, by decide +kernel, by decide +kernel⟩, by decide +kernel⟩
  have unmarked : ¬ byteOrderMark <+: Bytes.refusedGame := by decide +kernel
  have enough : (Bytes.closedGame ++ Bytes.refusedGame).length + 2 ≤ 30 := by decide +kernel
  have bytes : Bytes.closedGame.length = 15 := by decide +kernel
  have lines : Bytes.closedGame.count Ascii.lineFeed = 2 := by decide +kernel
  have events := (@run_append .forgiving _ _ _ _ _ _ rfl rfl closed unmarked (.ofBytes _)
    (.ofBytes _) (.ofBytes _) _ enough).2
  rw [bytes, lines] at events
  exact ⟨closed, unmarked, events⟩

end Scoresheet
