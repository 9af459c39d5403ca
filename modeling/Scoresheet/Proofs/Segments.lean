/-
This file divides the tokens of an input into segments, each of which ends with a termination
marker; behind the last marker there may be a tail without one. Reading a game takes in its segment
or the first part of it, so discarding the rest leads to where passing the segment over leads.
-/

import Scoresheet.Proofs.Reliable
import Scoresheet.Proofs.Tokens
import Scoresheet.Proofs.Verdicts
import Scoresheet.Reader

namespace Scoresheet

namespace Lexer

/-- The tokens up to the next termination marker and the lexer that is at the marker, or the tokens
of the tail and the lexer at its end. -/
def segment (lexer : Lexer) : List Token × Lexer :=
  match _ : Scan.advance.run lexer with
  | (.error _, after) => ([], after)
  | (.ok (), after) =>
    if _ : after.isExhausted then ([], after)
    else if after.kind = .termination then ([after.token], after)
    else
      let rest := segment after
      (after.token :: rest.1, rest.2)
termination_by lexer.source.content.length
decreasing_by
  exact content_lt_of_advance ‹_› (Bool.eq_false_iff.mpr ‹_›)

/-- The lexer behind the given number of segments. -/
def afterSegments (lexer : Lexer) : Nat → Lexer
  | 0 => lexer
  | count + 1 => (lexer.afterSegments count).segment.2

variable {lexer after : Lexer}

theorem afterSegments_segment (lexer : Lexer) (count : Nat) :
    lexer.segment.2.afterSegments count = lexer.afterSegments (count + 1) := by
  induction count with
  | zero => rfl
  | succ count inductionHypothesis =>
    show (lexer.segment.2.afterSegments count).segment.2 = _
    rw [inductionHypothesis]
    rfl

/-! ### One token of a segment -/

theorem segment_of_advance (success : Scan.advance.run lexer = (.ok (), after)) :
    lexer.segment =
      if after.isExhausted then ([], after)
      else if after.kind = .termination then ([after.token], after)
      else (after.token :: after.segment.1, after.segment.2) := by
  conv => lhs; rw [segment]
  split
  · next failed =>
    rw [success] at failed
    cases failed
  · next found again =>
    rw [success] at again
    cases again
    rfl

theorem segment_of_failed {failure : Failure}
    (failed : Scan.advance.run lexer = (.error failure, after)) : lexer.segment = ([], after) := by
  rw [segment]
  split
  · next again =>
    rw [failed] at again
    cases again
    rfl
  · next success =>
    rw [failed] at success
    cases success

theorem segment_of_last (success : Scan.advance.run lexer = (.ok (), after))
    (last : after.isExhausted = true) : lexer.segment = ([], after) := by
  rw [segment_of_advance success, if_pos last]

theorem segment_of_marker (success : Scan.advance.run lexer = (.ok (), after))
    (more : after.isExhausted = false) (marker : after.kind = .termination) :
    lexer.segment = ([after.token], after) := by
  rw [segment_of_advance success, if_neg (Bool.eq_false_iff.mp more), if_pos marker]

theorem segment_of_inside (success : Scan.advance.run lexer = (.ok (), after))
    (more : after.isExhausted = false) (inside : after.kind ≠ .termination) :
    lexer.segment = (after.token :: after.segment.1, after.segment.2) := by
  rw [segment_of_advance success, if_neg (Bool.eq_false_iff.mp more), if_neg inside]

/-- Induction along a segment: the next token cannot be read, or it is behind the last one of the
input, or it is the marker, or the segment goes on behind it. -/
theorem segment_induction {motive : Lexer → Prop}
    (failed : ∀ lexer after failure, Scan.advance.run lexer = (.error failure, after) →
      motive lexer)
    (last : ∀ lexer after, Scan.advance.run lexer = (.ok (), after) →
      after.isExhausted = true → motive lexer)
    (marker : ∀ lexer after, Scan.advance.run lexer = (.ok (), after) →
      after.isExhausted = false → after.kind = .termination → motive lexer)
    (inside : ∀ lexer after, Scan.advance.run lexer = (.ok (), after) →
      after.isExhausted = false → after.kind ≠ .termination → motive after → motive lexer)
    (lexer : Lexer) : motive lexer := by
  induction size : lexer.source.content.length using Nat.strongRecOn generalizing lexer with
  | ind size inductionHypothesis =>
    cases advanced : Scan.advance.run lexer with
    | mk result after =>
      cases result with
      | error failure => exact failed lexer after failure advanced
      | ok _ =>
        by_cases ended : after.isExhausted = true
        · exact last lexer after advanced ended
        · have more := Bool.eq_false_iff.mpr ended
          by_cases ends : after.kind = .termination
          · exact marker lexer after advanced more ends
          · have shorter := content_lt_of_advance advanced more
            exact inside lexer after advanced more ends
              (inductionHypothesis _ (size ▸ shorter) after rfl)

/-- The tokens of a segment, whatever its source does: the move numbers are written with digits, and
only the last token can be a marker. -/
theorem tokens_of_segment (lexer : Lexer) :
    (∀ token ∈ lexer.segment.1, token.kind = .moveNumber →
        token.text ≠ [] ∧ token.text.all Ascii.isDigit = true) ∧
      ∀ token ∈ lexer.segment.1.dropLast, token.kind ≠ .termination := by
  have nothing : (∀ token ∈ ([] : List Token), token.kind = .moveNumber →
      token.text ≠ [] ∧ token.text.all Ascii.isDigit = true) ∧
      ∀ token ∈ ([] : List Token).dropLast, token.kind ≠ .termination :=
    ⟨fun _ member => absurd member List.not_mem_nil,
      fun _ member => absurd member List.not_mem_nil⟩
  have own {lexer after : Lexer} (advanced : Scan.advance.run lexer = (.ok (), after))
      (number : after.token.kind = .moveNumber) :
      after.token.text ≠ [] ∧ after.token.text.all Ascii.isDigit = true := by
    have fits := fits_of_advance advanced
    rw [show after.kind = .moveNumber from number] at fits
    exact fits
  induction lexer using segment_induction with
  | failed lexer after failure failed =>
    rw [segment_of_failed failed]
    exact nothing
  | last lexer after advanced last =>
    rw [segment_of_last advanced last]
    exact nothing
  | marker lexer after advanced more marker =>
    rw [segment_of_marker advanced more marker]
    refine ⟨fun token member => ?_, fun _ member => by cases member⟩
    rw [List.mem_singleton.mp member]
    exact own advanced
  | inside lexer after advanced more within inductionHypothesis =>
    rw [segment_of_inside advanced more within]
    obtain ⟨written, inside⟩ := inductionHypothesis
    refine ⟨fun token member => ?_, fun token member => ?_⟩
    · rcases List.mem_cons.mp member with rfl | later
      · exact own advanced
      · exact written token later
    · cases rest : after.segment.1 with
      | nil =>
        rw [rest] at member
        cases member
      | cons next others =>
        rw [rest] at inside member
        rcases List.mem_cons.mp member with rfl | later
        · exact within
        · exact inside token later

/-! ### The end of a segment -/

/-- Behind the segment the lexer is at a marker. -/
def EndsMarked (lexer : Lexer) : Prop := lexer.segment.2.kind = .termination

/-- At a marker the lexer is not exhausted. -/
theorem isExhausted_of_marker (success : Scan.advance.run lexer = (.ok (), after))
    (marker : after.kind = .termination) : after.isExhausted = false := by
  have fits := fits_of_advance success
  rw [marker] at fits
  rw [isExhausted, fits.scope]
  rfl

theorem scopedToken_of_outside (outside : lexer.scope = .outside) :
    Scan.scopedToken.run lexer = (.ok .undefined, lexer.finish) := by
  unfold Scan.scopedToken
  rw [Scan.run_bind, Scan.run_look]
  dsimp only
  rw [outside]
  rfl

/-- The lexer with an undefined token that is empty and starts where the lexer is. -/
def spent (lexer : Lexer) : Lexer :=
  { lexer with kind := .undefined, captured := [], start := lexer.place.position }

/-- An exhausted lexer reads nothing for the next token, which is undefined. -/
theorem advance_eq_spent (exhausted : lexer.isExhausted = true) :
    Scan.advance.run lexer = (.ok (), lexer.spent) := by
  obtain ⟨outside, settled⟩ := Bool.and_eq_true_iff.mp exhausted
  have scope : lexer.scope = .outside := beq_iff_eq.mp outside
  have unsettled : lexer.unsettled = false := by simpa using settled
  have told : Scan.nextToken.run { lexer with captured := [] } =
      (.ok .undefined, Lexer.finish { lexer with captured := [] }) := by
    unfold Scan.nextToken
    rw [Scan.run_bind, Scan.run_look]
    dsimp only
    rw [unsettled, if_neg Bool.false_ne_true]
    exact scopedToken_of_outside scope
  have last : ({ Lexer.finish { lexer with captured := [] } with kind := .undefined } : Lexer) =
      lexer.spent := by
    unfold Lexer.finish spent
    rw [scope, unsettled]
  unfold Scan.advance
  rw [Scan.run_bind, Scan.run_change]
  dsimp only
  rw [Scan.run_bind, told]
  exact congrArg (Prod.mk (Except.ok ())) last

/-- An exhausted lexer stays exhausted, whatever its source does. -/
theorem advance_of_isExhausted (exhausted : lexer.isExhausted = true) :
    ∃ after, Scan.advance.run lexer = (.ok (), after) ∧ after.isExhausted = true :=
  ⟨lexer.spent, advance_eq_spent exhausted, exhausted⟩

theorem segment_of_isExhausted (exhausted : lexer.isExhausted = true) :
    lexer.segment.1 = [] ∧ lexer.segment.2.isExhausted = true ∧ ¬ lexer.EndsMarked := by
  obtain ⟨after, success, last⟩ := advance_of_isExhausted exhausted
  rw [EndsMarked, segment_of_last success last]
  refine ⟨rfl, last, fun marker => ?_⟩
  rw [isExhausted_of_marker success marker] at last
  cases last

/-- How the segment of a lexer ends: with its only marker, which is the current token then, or
without any marker at the end of the input. -/
inductive Ends (lexer : Lexer) : Prop where
  | marked (inner : List Token) (split : lexer.segment.1 = inner ++ [lexer.segment.2.token])
      (inside : ∀ token ∈ inner, token.kind ≠ .termination) (marker : lexer.EndsMarked)
      (more : lexer.segment.2.isExhausted = false)
  | unmarked (inside : ∀ token ∈ lexer.segment.1, token.kind ≠ .termination)
      (noMarker : ¬ lexer.EndsMarked) (last : lexer.segment.2.isExhausted = true)

/-- Every segment of an unfailing source comes to an end, and the source is unfailing there. -/
theorem ends_of_isUnfailing (unfailing : lexer.source.IsUnfailing) :
    lexer.Ends ∧ lexer.segment.2.source.IsUnfailing := by
  induction lexer using segment_induction with
  | failed lexer after failure failed => exact absurd failed (advance_ne_error unfailing)
  | last lexer after advanced last =>
    have segment := segment_of_last advanced last
    have noMarker : ¬ lexer.EndsMarked := by
      intro marker
      rw [EndsMarked, segment] at marker
      rw [isExhausted_of_marker advanced marker] at last
      cases last
    refine ⟨.unmarked ?_ noMarker ?_, ?_⟩
    · rw [segment]
      intro token member
      cases member
    · rwa [segment]
    · rw [segment]
      exact isUnfailing_of_advance unfailing advanced
  | marker lexer after advanced more marker =>
    have segment := segment_of_marker advanced more marker
    refine ⟨.marked [] (by rw [segment]; rfl) ?_ (by rwa [EndsMarked, segment])
      (by rwa [segment]), ?_⟩
    · intro token member
      cases member
    · rw [segment]
      exact isUnfailing_of_advance unfailing advanced
  | inside lexer after advanced more within inductionHypothesis =>
    have segment := segment_of_inside advanced more within
    have among {tokens : List Token} (rest : ∀ token ∈ tokens, token.kind ≠ .termination) :
        ∀ token ∈ after.token :: tokens, token.kind ≠ .termination := by
      intro token member
      rcases List.mem_cons.mp member with rfl | inside
      · exact within
      · exact rest token inside
    obtain ⟨ends, later⟩ := inductionHypothesis (isUnfailing_of_advance unfailing advanced)
    refine ⟨?_, by rwa [segment]⟩
    cases ends with
    | marked inner split inside ended more =>
      exact .marked (after.token :: inner) (by rw [segment, split, List.cons_append])
        (among inside) (by rwa [EndsMarked, segment]) (by rwa [segment])
    | unmarked inside noMarker ended =>
      exact .unmarked (by rw [segment]; exact among inside) (by rwa [EndsMarked, segment])
        (by rwa [segment])

/-- Discarding tokens up to a marker leads to the end of the segment. -/
theorem skipUntil_eq_segment (unfailing : lexer.source.IsUnfailing)
    (inside : ¬ (lexer.kind = .termination ∨ lexer.isExhausted = true)) :
    lexer.skipUntil .termination = (.ok (), lexer.segment.2) := by
  induction lexer using segment_induction with
  | failed lexer after failure failed => exact absurd failed (advance_ne_error unfailing)
  | last lexer after advanced last =>
    rw [skipUntil_of_advance inside advanced, skipUntil_of_stopped (.inr last),
      segment_of_last advanced last]
  | marker lexer after advanced more marker =>
    rw [skipUntil_of_advance inside advanced, skipUntil_of_stopped (.inl marker),
      segment_of_marker advanced more marker]
  | inside lexer after advanced more within inductionHypothesis =>
    rw [skipUntil_of_advance inside advanced, segment_of_inside advanced more within]
    exact inductionHypothesis (isUnfailing_of_advance unfailing advanced)
      (not_or.mpr ⟨within, Bool.eq_false_iff.mp more⟩)

/-! ### Segments with a marker -/

/-- The segment was read up to its marker. The source may fail behind it. -/
def HasMarker (lexer : Lexer) : Prop := ∃ marker ∈ lexer.segment.1, marker.kind = .termination

theorem not_hasMarker_of_failed {failure : Failure}
    (failed : Scan.advance.run lexer = (.error failure, after)) : ¬ lexer.HasMarker := by
  rw [HasMarker, segment_of_failed failed]
  exact fun ⟨_, member, _⟩ => List.not_mem_nil member

theorem not_hasMarker_of_last (success : Scan.advance.run lexer = (.ok (), after))
    (last : after.isExhausted = true) : ¬ lexer.HasMarker := by
  rw [HasMarker, segment_of_last success last]
  exact fun ⟨_, member, _⟩ => List.not_mem_nil member

theorem hasMarker_of_marker (success : Scan.advance.run lexer = (.ok (), after))
    (more : after.isExhausted = false) (marker : after.kind = .termination) :
    lexer.HasMarker := by
  rw [HasMarker, segment_of_marker success more marker]
  exact ⟨after.token, List.mem_cons_self, marker⟩

theorem hasMarker_of_inside (success : Scan.advance.run lexer = (.ok (), after))
    (more : after.isExhausted = false) (inside : after.kind ≠ .termination)
    (marker : after.HasMarker) : lexer.HasMarker := by
  obtain ⟨token, member, kind⟩ := marker
  rw [HasMarker, segment_of_inside success more inside]
  exact ⟨token, List.mem_cons_of_mem _ member, kind⟩

theorem HasMarker.behind (marker : lexer.HasMarker)
    (success : Scan.advance.run lexer = (.ok (), after)) (more : after.isExhausted = false)
    (inside : after.kind ≠ .termination) : after.HasMarker := by
  obtain ⟨token, member, kind⟩ := marker
  rw [segment_of_inside success more inside] at member
  rcases List.mem_cons.mp member with rfl | later
  · exact absurd kind inside
  · exact ⟨token, later, kind⟩

/-- Discarding tokens leads to the marker of the segment, if it has one. -/
theorem HasMarker.skipUntil (marker : lexer.HasMarker)
    (inside : ¬ (lexer.kind = .termination ∨ lexer.isExhausted = true)) :
    lexer.skipUntil .termination = (.ok (), lexer.segment.2) := by
  induction lexer using segment_induction with
  | failed lexer after failure failed => exact absurd marker (not_hasMarker_of_failed failed)
  | last lexer after advanced last => exact absurd marker (not_hasMarker_of_last advanced last)
  | marker lexer after advanced more ends =>
    rw [skipUntil_of_advance inside advanced, skipUntil_of_stopped (.inl ends),
      segment_of_marker advanced more ends]
  | inside lexer after advanced more within inductionHypothesis =>
    rw [skipUntil_of_advance inside advanced, segment_of_inside advanced more within]
    exact inductionHypothesis (marker.behind advanced more within)
      (not_or.mpr ⟨within, Bool.eq_false_iff.mp more⟩)

/-- If tokens can be discarded, a marker was found, or nothing is left to read. -/
theorem hasMarker_or_isExhausted
    (inside : ¬ (lexer.kind = .termination ∨ lexer.isExhausted = true))
    (skipped : lexer.skipUntil .termination = (.ok (), after)) :
    lexer.HasMarker ∨ after.isExhausted = true := by
  induction lexer using segment_induction with
  | failed lexer cut failure failed =>
    rw [Lexer.skipUntil, if_neg inside] at skipped
    split at skipped
    · cases skipped
    · next success =>
      rw [failed] at success
      cases success
  | last lexer final advanced last =>
    rw [skipUntil_of_advance inside advanced, skipUntil_of_stopped (.inr last)] at skipped
    cases skipped
    exact .inr last
  | marker lexer final advanced more ends => exact .inl (hasMarker_of_marker advanced more ends)
  | inside lexer next advanced more within inductionHypothesis =>
    rw [skipUntil_of_advance inside advanced] at skipped
    exact (inductionHypothesis (not_or.mpr ⟨within, Bool.eq_false_iff.mp more⟩) skipped).imp_left
      (hasMarker_of_inside advanced more within)

end Lexer

/-! ### Reading a segment -/

namespace Verdict

/-- What reading a game comes to whose tokens were judged, if the input ends behind them unless the
game was finished or refused. -/
def reading (config : Config) (position : Position) : Verdict → Except ReadError (Option Game)
  | unfinished draft => (draft.conclude config position).map (Option.map Entry.game)
  | refused error => .error error
  | finished game => .ok (some game)

end Verdict

namespace Draft

variable {lexer : Lexer}

/-- The tokens of a segment with a marker do not leave a draft unfinished. -/
theorem not_unfinished_of_marker {draft later : Draft} (config : Config) (ends : lexer.Ends)
    (marker : lexer.EndsMarked) : draft.judge config lexer.segment.1 ≠ .unfinished later := by
  intro unfinished
  cases ends with
  | marked inner split inside marker more =>
    rw [split] at unfinished
    exact not_termination_of_unfinished unfinished _
      (List.mem_append_right inner List.mem_cons_self) marker
  | unmarked inside noMarker last => exact noMarker marker

/-- A game is read from a segment with a marker only, and has the outcome the marker names. -/
theorem marker_of_reading {draft : Draft} {config : Config} {position : Position} {game : Game}
    (ends : lexer.Ends)
    (read : (draft.judge config lexer.segment.1).reading config position = .ok (some game)) :
    lexer.EndsMarked ∧ game.outcome.marker = lexer.segment.2.span := by
  cases verdict : draft.judge config lexer.segment.1 with
  | unfinished later =>
    rw [verdict] at read
    rcases later.conclude_eq config position with nothing | early
    · rw [Verdict.reading, nothing] at read
      cases read
    · rw [Verdict.reading, early] at read
      cases read
  | refused error =>
    rw [verdict] at read
    cases read
  | finished found =>
    rw [verdict] at read
    cases read
    obtain ⟨token, among, kind, named⟩ := marker_of_finished verdict
    cases ends with
    | marked inner split inside marker more =>
      rw [split] at among
      rcases List.mem_append.mp among with early | last
      · exact absurd kind (inside token early)
      · rw [List.mem_singleton.mp last] at named
        exact ⟨marker, named⟩
    | unmarked inside noMarker last => exact absurd kind (inside token among)

/-- Where no game is read and nothing can be recovered from, there is no marker. -/
theorem not_endsMarked_of_reading {draft : Draft} {config : Config} {position : Position}
    (ends : lexer.Ends)
    (read : (draft.judge config lexer.segment.1).reading config position = .ok none ∨
      ∃ error, (draft.judge config lexer.segment.1).reading config position = .error error ∧
        error.isFatal = true) : ¬ lexer.EndsMarked := by
  intro marker
  cases verdict : draft.judge config lexer.segment.1 with
  | unfinished later => exact not_unfinished_of_marker config ends marker verdict
  | refused error =>
    rw [verdict] at read
    rcases read with nothing | ⟨found, refused, fatal⟩
    · cases nothing
    · cases refused
      rw [recoverable_of_refused verdict] at fatal
      cases fatal
  | finished game =>
    rw [verdict] at read
    rcases read with nothing | ⟨found, refused, fatal⟩
    · cases nothing
    · cases refused

/-- The source has no part in an error that a judgement comes to. -/
theorem cause?_of_reading {draft : Draft} {config : Config} {position : Position}
    {tokens : List Token} {error : ReadError}
    (read : (draft.judge config tokens).reading config position = .error error) :
    error.cause? = none := by
  cases verdict : draft.judge config tokens with
  | unfinished later =>
    rw [verdict] at read
    rcases later.conclude_eq config position with nothing | early
    · rw [Verdict.reading, nothing] at read
      cases read
    · rw [Verdict.reading, early] at read
      cases read
      rfl
  | refused refusal =>
    rw [verdict] at read
    cases read
    exact ReadError.cause?_of_recoverable (recoverable_of_refused verdict)
  | finished game =>
    rw [verdict] at read
    cases read

variable [Hashable HeaderPair]

/-- Reading on comes to the judgement of the tokens of the segment. It leads to the end of the
segment, unless it ends with an error that can be recovered from; discarding what is left of the
segment leads there in any case. -/
theorem readOn_eq_judge (unfailing : lexer.source.IsUnfailing) (config : Config) (draft : Draft)
    (allocations : List Nat) (interner : Interner) :
    (draft.readOn config allocations interner lexer).1.map (Option.map Entry.game) =
        (draft.judge config lexer.segment.1).reading config lexer.segment.2.start ∧
      ((∃ error, (draft.readOn config allocations interner lexer).1 = .error error ∧
          error.isFatal = false) ∨
        (draft.readOn config allocations interner lexer).2.2 = lexer.segment.2) ∧
      (draft.readOn config allocations interner lexer).2.2.skipUntil .termination =
        (.ok (), lexer.segment.2) := by
  induction lexer using Lexer.segment_induction generalizing draft allocations interner with
  | failed lexer after failure failed => exact absurd failed (Lexer.advance_ne_error unfailing)
  | last lexer after advanced last =>
    rw [readOn_of_last advanced last, Lexer.segment_of_last advanced last]
    exact ⟨rfl, .inr rfl, Lexer.skipUntil_of_stopped (.inr last)⟩
  | marker lexer after advanced more marker =>
    have stays := @Lexer.skipUntil_of_stopped .termination after (.inl marker)
    have orderly := accept_orderly config draft after.token
    rw [readOn_of_token advanced more, Lexer.segment_of_marker advanced more marker]
    dsimp only
    split
    · next refused =>
      rw [judge_cons_of_error refused]
      exact ⟨rfl, .inr rfl, stays⟩
    · next finished =>
      rw [judge_cons_of_finished finished]
      exact ⟨rfl, .inr rfl, stays⟩
    · next onward =>
      rw [onward] at orderly
      exact absurd marker orderly
  | inside lexer after advanced more within inductionHypothesis =>
    have later := Lexer.isUnfailing_of_advance unfailing advanced
    have skips := Lexer.skipUntil_eq_segment later
      (not_or.mpr ⟨within, Bool.eq_false_iff.mp more⟩)
    have orderly := accept_orderly config draft after.token
    rw [readOn_of_token advanced more, Lexer.segment_of_inside advanced more within]
    dsimp only
    split
    · next error refused =>
      rw [refused] at orderly
      rw [judge_cons_of_error refused]
      exact ⟨rfl, .inl ⟨error, rfl, orderly⟩, skips⟩
    · next finished =>
      rw [finished] at orderly
      exact absurd orderly.1 within
    · next onward =>
      rw [judge_cons_of_onward onward]
      exact inductionHypothesis later _ _ _

/-- Whatever the source does behind the marker of a segment, reading finishes the game that the
tokens of the segment finish and leads to the marker, or refuses what they refuse and leads to a
place from which discarding tokens leads to the marker. -/
theorem readOn_of_hasMarker (marker : lexer.HasMarker) (config : Config) (draft : Draft)
    (allocations : List Nat) (interner : Interner) :
    (∃ entry, (draft.readOn config allocations interner lexer).1 = .ok (some entry) ∧
        draft.judge config lexer.segment.1 = .finished entry.game ∧
        (draft.readOn config allocations interner lexer).2.2 = lexer.segment.2) ∨
      ∃ error, (draft.readOn config allocations interner lexer).1 = .error error ∧
        draft.judge config lexer.segment.1 = .refused error ∧
        (draft.readOn config allocations interner lexer).2.2.skipUntil .termination =
          (.ok (), lexer.segment.2) := by
  induction lexer using Lexer.segment_induction generalizing draft allocations interner with
  | failed lexer after failure failed => exact absurd marker (Lexer.not_hasMarker_of_failed failed)
  | last lexer after advanced last =>
    exact absurd marker (Lexer.not_hasMarker_of_last advanced last)
  | marker lexer after advanced more ends =>
    have orderly := accept_orderly config draft after.token
    rw [readOn_of_token advanced more, Lexer.segment_of_marker advanced more ends]
    dsimp only
    split
    · next error refused =>
      exact .inr ⟨error, rfl, judge_cons_of_error refused, Lexer.skipUntil_of_stopped (.inl ends)⟩
    · next finished => exact .inl ⟨_, rfl, judge_cons_of_finished finished, rfl⟩
    · next onward =>
      rw [onward] at orderly
      exact absurd ends orderly
  | inside lexer after advanced more within inductionHypothesis =>
    have later := marker.behind advanced more within
    have orderly := accept_orderly config draft after.token
    rw [readOn_of_token advanced more, Lexer.segment_of_inside advanced more within]
    dsimp only
    split
    · next error refused =>
      exact .inr ⟨error, rfl, judge_cons_of_error refused,
        later.skipUntil (not_or.mpr ⟨within, Bool.eq_false_iff.mp more⟩)⟩
    · next finished =>
      rw [finished] at orderly
      exact absurd orderly.1 within
    · next onward =>
      rw [judge_cons_of_onward onward]
      exact inductionHypothesis later _ _ _

/-- A game is read from a segment with a marker only. -/
theorem hasMarker_of_readOn {config : Config} {draft : Draft} {allocations : List Nat}
    {interner : Interner} {entry : Entry}
    (read : (draft.readOn config allocations interner lexer).1 = .ok (some entry)) :
    lexer.HasMarker := by
  induction lexer using Lexer.segment_induction generalizing draft allocations interner with
  | failed lexer after failure failed =>
    rw [readOn_of_failed failed] at read
    cases read
  | last lexer after advanced last =>
    rw [readOn_of_last advanced last] at read
    rcases draft.conclude_eq config after.start with nothing | early
    · rw [nothing] at read
      cases read
    · rw [early] at read
      cases read
  | marker lexer after advanced more ends => exact Lexer.hasMarker_of_marker advanced more ends
  | inside lexer after advanced more within inductionHypothesis =>
    have orderly := accept_orderly config draft after.token
    rw [readOn_of_token advanced more] at read
    dsimp only at read
    split at read
    · cases read
    · next finished =>
      rw [finished] at orderly
      exact absurd orderly.1 within
    · exact Lexer.hasMarker_of_inside advanced more within (inductionHypothesis read)

/-- Where reading is refused and what is left of the segment can be discarded, the segment has a
marker, or nothing is left to read. -/
theorem hasMarker_of_skipUntil {config : Config} {draft : Draft} {allocations : List Nat}
    {interner : Interner} {error : ReadError} {last : Lexer}
    (refused : (draft.readOn config allocations interner lexer).1 = .error error)
    (recoverable : error.isFatal = false)
    (skipped : (draft.readOn config allocations interner lexer).2.2.skipUntil .termination =
      (.ok (), last)) : lexer.HasMarker ∨ last.isExhausted = true := by
  induction lexer using Lexer.segment_induction generalizing draft allocations interner with
  | failed lexer after failure failed =>
    rw [readOn_of_failed failed] at refused
    cases refused
    cases recoverable
  | last lexer after advanced last =>
    rw [readOn_of_last advanced last] at refused
    rw [conclude_fatal refused] at recoverable
    cases recoverable
  | marker lexer after advanced more ends =>
    exact .inl (Lexer.hasMarker_of_marker advanced more ends)
  | inside lexer after advanced more within inductionHypothesis =>
    have orderly := accept_orderly config draft after.token
    have grow := Or.imp_left (c := last.isExhausted = true)
      (Lexer.hasMarker_of_inside advanced more within)
    rw [readOn_of_token advanced more] at refused skipped
    dsimp only at refused skipped
    split at refused
    · next rejected =>
      rw [rejected] at skipped
      exact grow (Lexer.hasMarker_or_isExhausted
        (not_or.mpr ⟨within, Bool.eq_false_iff.mp more⟩) skipped)
    · cases refused
    · next onward =>
      rw [onward] at skipped
      exact grow (inductionHypothesis refused skipped)

end Draft

end Scoresheet
