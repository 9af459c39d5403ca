/-
This file follows a reader that recovers from errors through an input whose source never fails. Each
segment of the input makes at most one event: its game is yielded, the error that refused it is
recorded, or it is skipped. Whichever requests are made, the events come in the order of the
segments, none is left out, and a tail without a marker makes at most one error, which is the last
event.
-/

import Scoresheet.Cache.PairHash
import Scoresheet.Proofs.Passes
import Scoresheet.Proofs.Requests
import Scoresheet.Proofs.Segments

namespace Scoresheet

/-- What a segment of the input becomes in a reader. -/
inductive Event where
  | game (game : Game)
  | recorded (error : ReadError)
  | skipped

/-- The event that reading the next segment makes, if it makes one. -/
def Lexer.event? (config : Config) (lexer : Lexer) : Option Event :=
  match (Draft.start.judge config lexer.segment.1).reading config lexer.segment.2.start with
  | .ok none => none
  | .ok (some game) => some (.game game)
  | .error error => some (.recorded error)

/-- The segment can make the event: if it has a marker it can be skipped, and otherwise the event is
the one its tokens make. -/
def Lexer.Makes (config : Config) (event : Event) (lexer : Lexer) : Prop :=
  (event = .skipped ∧ lexer.EndsMarked) ∨ lexer.event? config = some event

/-- A yielded game has the outcome that the marker of its segment names. -/
theorem Lexer.outcome_of_event? {config : Config} {lexer : Lexer} {game : Game}
    (ends : lexer.Ends) (made : lexer.event? config = some (.game game)) :
    lexer.EndsMarked ∧ game.outcome.marker = lexer.segment.2.span := by
  unfold event? at made
  split at made
  · cases made
  · next read =>
    cases made
    exact Draft.marker_of_reading ends read
  · cases made

theorem Lexer.event?_of_isExhausted {lexer : Lexer} (exhausted : lexer.isExhausted = true)
    (config : Config) : lexer.event? config = none := by
  unfold event?
  rw [(segment_of_isExhausted exhausted).1]
  rfl

namespace Reader

/-- The event a request returns. -/
def Reply.events : Reply → List Event
  | .game (some (.ok entry)) => [.game entry.game]
  | .skipped (.ok true) => [.skipped]
  | _ => []

/-- The events of a request: the errors it records, and what it returns. -/
def events [Hashable HeaderPair] (request : Request) (reader : Reader) : List Event :=
  let answer := reader.answer request
  (answer.2.errors.drop reader.errors.length).map .recorded ++ answer.1.events

/-- The events of requests made one after the other, and the reader behind them. -/
def run [Hashable HeaderPair] : List Request → Reader → List Event × Reader
  | [], reader => ([], reader)
  | request :: rest, reader =>
    let later := run rest (reader.answer request).2
    (reader.events request ++ later.1, later.2)

/-! ### One pass -/

/-- What one pass does with the next segment and the event it makes. -/
inductive Outcome (reader : Reader) :
    Option (Option (Except ReadError Entry)) × Reader → Option Event → Prop where
  | game (entry : Entry) (interner : Interner) (marker : reader.lexer.EndsMarked) :
      Outcome reader (some (some (.ok entry)), { reader with
        lexer := reader.lexer.segment.2, interner, gamesRead := reader.gamesRead + 1 })
        (some (.game entry.game))
  | recovered (error : ReadError) (interner : Interner) :
      Outcome reader (none, { reader with
        lexer := reader.lexer.segment.2, interner, errors := reader.errors ++ [error] })
        (some (.recorded error))
  | cut (error : ReadError) (interner : Interner) (noMarker : ¬ reader.lexer.EndsMarked) :
      Outcome reader (some none, { reader with
        lexer := reader.lexer.segment.2, interner, errors := reader.errors ++ [error],
        isDone := true }) (some (.recorded error))
  | nothing (interner : Interner) (noMarker : ¬ reader.lexer.EndsMarked) :
      Outcome reader (some none, { reader with
        lexer := reader.lexer.segment.2, interner, isDone := true }) none

variable {reader : Reader}

theorem pass_outcome [Hashable HeaderPair] (recovering : reader.config.stopOnError = false)
    (unfailing : reader.lexer.source.IsUnfailing) :
    Outcome reader reader.pass (reader.lexer.event? reader.config) := by
  obtain ⟨ends, _⟩ := Lexer.ends_of_isUnfailing unfailing
  obtain ⟨reading, stops, skips⟩ :=
    Draft.readOn_eq_judge unfailing reader.config .start [] reader.interner
  unfold pass Draft.read settle Lexer.event?
  rw [← reading]
  dsimp only
  rw [recovering]
  cases answer : (Draft.start.readOn reader.config [] reader.interner reader.lexer).1 with
  | ok found =>
    rw [answer] at reading stops
    have stopped : (Draft.start.readOn reader.config [] reader.interner reader.lexer).2.2 =
        reader.lexer.segment.2 :=
      stops.resolve_left fun ⟨_, refused, _⟩ => by cases refused
    rw [stopped]
    cases found with
    | none => exact .nothing _ (Draft.not_endsMarked_of_reading ends (.inl reading.symm))
    | some entry => exact .game entry _ (Draft.marker_of_reading ends reading.symm).1
  | error error =>
    rw [answer] at reading stops
    have ownFault := Draft.cause?_of_reading reading.symm
    dsimp only
    rw [ownFault]
    by_cases fatal : error.isFatal = true
    · have stopped : (Draft.start.readOn reader.config [] reader.interner reader.lexer).2.2 =
          reader.lexer.segment.2 := by
        refine stops.resolve_left fun ⟨found, refused, recoverable⟩ => ?_
        cases refused
        rw [fatal] at recoverable
        cases recoverable
      have noMarker := Draft.not_endsMarked_of_reading ends (.inr ⟨error, reading.symm, fatal⟩)
      rw [stopped, if_neg (by decide), if_pos fatal]
      exact .cut error _ noMarker
    · rw [if_neg (by decide), if_neg fatal, skips]
      exact .recovered error _

/-- Passing a game over leads to the end of its segment, and finds a game if there is a marker. -/
theorem skipGame_eq_segment (unfailing : reader.lexer.source.IsUnfailing)
    (running : reader.isDone = false) :
    ∃ isDone found, reader.skipGame =
        (.ok found, { reader with lexer := reader.lexer.segment.2, isDone }) ∧
      (found = true ↔ reader.lexer.EndsMarked) ∧
      (isDone = true → ¬ reader.lexer.EndsMarked) := by
  obtain ⟨after, success, later⟩ := Lexer.advance_of_isUnfailing unfailing
  have kinds (marked : Lexer) : decide (marked.kind = .termination) = true ↔
      marked.kind = .termination := decide_eq_true_iff
  have open_ : reader.isDone = true → False := by
    rw [running]
    exact Bool.false_ne_true
  unfold skipGame
  rw [if_neg open_, success]
  dsimp only
  unfold Lexer.EndsMarked
  by_cases last : after.isExhausted = true
  · have noMarker : ¬ after.kind = .termination := by
      intro marker
      rw [Lexer.isExhausted_of_marker success marker] at last
      cases last
    rw [if_pos last, Lexer.segment_of_last success last]
    exact ⟨true, false, rfl, by simp [noMarker], fun _ => noMarker⟩
  · have more := Bool.eq_false_iff.mpr last
    rw [if_neg last]
    by_cases marker : after.kind = .termination
    · rw [Lexer.skipUntil_of_stopped (.inl marker), Lexer.segment_of_marker success more marker]
      exact ⟨reader.isDone, _, rfl, kinds after, fun done => (open_ done).elim⟩
    · rw [Lexer.skipUntil_eq_segment later (not_or.mpr ⟨marker, last⟩),
        Lexer.segment_of_inside success more marker]
      exact ⟨reader.isDone, _, rfl, kinds after.segment.2, fun done => (open_ done).elim⟩

/-! ### Going from segment to segment -/

/-- No more segments will be looked at. -/
def IsSpent (reader : Reader) : Prop := reader.isDone = true ∨ reader.lexer.isExhausted = true

/-- The events were made by the segments from the lexer on, one each, and the reader stands behind
the last of them. It may also be spent: because there is no further marker, or because it was
released before. -/
inductive Follows (config : Config) (released : Prop) : Lexer → List Event → Reader → Prop where
  | here {lexer : Lexer} {reader : Reader} (place : reader.lexer = lexer)
      (running : reader.isDone = false) : Follows config released lexer [] reader
  | segment {lexer : Lexer} {event : Event} {events : List Event} {reader : Reader}
      (marker : lexer.EndsMarked)
      (made : lexer.Makes config event)
      (rest : Follows config released lexer.segment.2 events reader) :
      Follows config released lexer (event :: events) reader
  | tail {lexer : Lexer} {error : ReadError} {reader : Reader}
      (noMarker : ¬ lexer.EndsMarked) (last : lexer.segment.2.isExhausted = true)
      (made : lexer.event? config = some (.recorded error)) (spent : reader.IsSpent) :
      Follows config released lexer [.recorded error] reader
  | past {lexer : Lexer} {reader : Reader} (spent : reader.IsSpent)
      (reason : ¬ lexer.EndsMarked ∨ released) : Follows config released lexer [] reader

section Follows

variable {config : Config} {released : Prop} {lexer : Lexer} {first second : List Event}
  {middle last : Reader}

theorem Follows.append (left : Follows config released lexer first middle)
    (right : middle.isDone = false → Follows config released middle.lexer second last)
    (spent : middle.IsSpent → second = [] ∧ last.IsSpent) :
    Follows config released lexer (first ++ second) last := by
  induction left with
  | here place running => exact place ▸ right running
  | segment marker made rest inductionHypothesis =>
    exact .segment marker made (inductionHypothesis right spent)
  | tail noMarker ended made spentMiddle =>
    obtain ⟨rfl, spentLast⟩ := spent spentMiddle
    exact .tail noMarker ended made spentLast
  | past spentMiddle reason =>
    obtain ⟨rfl, spentLast⟩ := spent spentMiddle
    exact .past spentLast reason

/-- Every event is made by the segment of its number. -/
theorem Follows.makes (follows : Follows config released lexer first last) {index : Nat}
    {event : Event} (made : first[index]? = some event) :
    (lexer.afterSegments index).Makes config event := by
  induction follows generalizing index with
  | here place running => cases made
  | segment marker own rest inductionHypothesis =>
    cases index with
    | zero =>
      cases made
      exact own
    | succ index =>
      rw [← Lexer.afterSegments_segment]
      exact inductionHypothesis made
  | tail noMarker ended own spent =>
    cases index with
    | zero =>
      cases made
      exact .inr own
    | succ index => cases made
  | past spent reason => cases made

/-- A segment that makes an event has a marker, or the event is a last error. -/
theorem Follows.endsMarked_or_last (follows : Follows config released lexer first last)
    {index : Nat} {event : Event} (made : first[index]? = some event) :
    (lexer.afterSegments index).EndsMarked ∨
      index + 1 = first.length ∧ ∃ error, event = .recorded error := by
  induction follows generalizing index with
  | here place running => cases made
  | segment marker own rest inductionHypothesis =>
    cases index with
    | zero => exact .inl marker
    | succ index =>
      rw [← Lexer.afterSegments_segment]
      exact (inductionHypothesis made).imp_right fun ⟨length, error⟩ =>
        ⟨congrArg Nat.succ length, error⟩
  | tail noMarker ended own spent =>
    cases index with
    | zero =>
      cases made
      exact .inr ⟨rfl, _, rfl⟩
    | succ index => cases made
  | past spent reason => cases made

/-- A reader that is not spent stands behind as many segments as there were events. -/
theorem Follows.lexer_eq (follows : Follows config released lexer first last)
    (more : ¬ last.IsSpent) : last.lexer = lexer.afterSegments first.length := by
  induction follows with
  | here place running => exact place
  | segment marker own rest inductionHypothesis =>
    rw [List.length_cons, ← Lexer.afterSegments_segment]
    exact inductionHypothesis more
  | tail noMarker ended own spent => exact absurd spent more
  | past spent reason => exact absurd spent more

/-- A reader that is spent and was not released has left no segment with a marker behind. -/
theorem Follows.not_endsMarked (follows : Follows config released lexer first last)
    (spent : last.IsSpent) (kept : ¬ released) :
    ¬ (lexer.afterSegments first.length).EndsMarked := by
  induction follows with
  | here place running =>
    have exhausted := spent.resolve_left (by rw [running]; exact Bool.false_ne_true)
    rw [place] at exhausted
    exact (Lexer.segment_of_isExhausted exhausted).2.2
  | segment marker own rest inductionHypothesis =>
    rw [List.length_cons, ← Lexer.afterSegments_segment]
    exact inductionHypothesis spent
  | tail noMarker ended own _ => exact (Lexer.segment_of_isExhausted ended).2.2
  | past _ reason => exact reason.resolve_right kept

end Follows

/-! ### Requests -/

/-- What happens to a reader that recovers from errors: the events follow its segments, and once it
is spent there are none. -/
structure Goes (released : Prop) (before : Reader) (events : List Event) (after : Reader) :
    Prop where
  follows : before.isDone = false → Follows before.config released before.lexer events after
  spent : before.IsSpent → events = [] ∧ after.IsSpent
  config : after.config = before.config
  unfailing : after.lexer.source.IsUnfailing

variable {released : Prop}

theorem Goes.trans {middle last : Reader} {first second : List Event}
    (left : Goes released reader first middle) (right : Goes released middle second last) :
    Goes released reader (first ++ second) last where
  follows running := (left.follows running).append (left.config ▸ right.follows) right.spent
  spent holds := by
    obtain ⟨rfl, later⟩ := left.spent holds
    exact right.spent later
  config := right.config.trans left.config
  unfailing := right.unfailing

/-- A reader that is done stays as it is. -/
theorem Goes.of_isDone (done : reader.isDone = true)
    (unfailing : reader.lexer.source.IsUnfailing) : Goes released reader [] reader where
  follows running := by
    rw [done] at running
    cases running
  spent holds := ⟨rfl, holds⟩
  config := rfl
  unfailing := unfailing

/-- A reader that is released is done from then on. -/
theorem Goes.of_released {after : Reader} (holds : released) (done : after.isDone = true)
    (config : after.config = reader.config) (unfailing : after.lexer.source.IsUnfailing) :
    Goes released reader [] after where
  follows _ := .past (.inl done) (.inr holds)
  spent _ := ⟨rfl, .inl done⟩
  config := config
  unfailing := unfailing

/-- Passing a game over skips its segment. -/
theorem Goes.skipGame (unfailing : reader.lexer.source.IsUnfailing) :
    reader.skipGame.2.errors = reader.errors ∧
      Goes released reader (Reply.skipped reader.skipGame.1).events reader.skipGame.2 := by
  by_cases done : reader.isDone = true
  · unfold Reader.skipGame
    rw [if_pos done]
    exact ⟨rfl, .of_isDone done unfailing⟩
  · have running := Bool.eq_false_iff.mpr done
    obtain ⟨ends, later⟩ := Lexer.ends_of_isUnfailing unfailing
    obtain ⟨isDone, found, skips, shown, last⟩ := skipGame_eq_segment unfailing running
    have noMarker (spent : reader.IsSpent) : ¬ reader.lexer.EndsMarked :=
      (Lexer.segment_of_isExhausted (spent.resolve_left done)).2.2
    rw [skips]
    refine ⟨rfl, ?_⟩
    cases ends with
    | marked inner split inside marker more =>
      rw [shown.mpr marker]
      have unclosed : isDone = false := Bool.eq_false_iff.mpr fun ended => last ended marker
      exact ⟨fun _ => .segment marker (.inl ⟨rfl, marker⟩) (.here rfl unclosed),
        fun spent => absurd marker (noMarker spent), rfl, later⟩
    | unmarked inside unmarked ended =>
      rw [Bool.eq_false_iff.mpr fun marked => unmarked (shown.mp marked)]
      exact ⟨fun _ => .past (.inr ended) (.inl unmarked), fun _ => ⟨rfl, .inr ended⟩, rfl, later⟩

section Hash

variable [Hashable HeaderPair]

/-- A pass makes the event of its segment. -/
theorem Goes.pass (recovering : reader.config.stopOnError = false)
    (unfailing : reader.lexer.source.IsUnfailing) (running : reader.isDone = false) :
    Goes released reader (reader.lexer.event? reader.config).toList reader.pass.2 := by
  obtain ⟨ends, later⟩ := Lexer.ends_of_isUnfailing unfailing
  have none (spent : reader.IsSpent) : reader.lexer.event? reader.config = none :=
    Lexer.event?_of_isExhausted
      (spent.resolve_left (by rw [running]; exact Bool.false_ne_true)) reader.config
  have outcome := pass_outcome recovering unfailing
  generalize reader.pass = result at outcome
  generalize made : reader.lexer.event? reader.config = event at outcome none
  cases outcome with
  | game entry interner marker =>
    refine ⟨fun _ => .segment marker (.inr made) (.here rfl running), fun spent => ?_, rfl, later⟩
    cases none spent
  | recovered error interner =>
    refine ⟨fun _ => ?_, fun spent => ?_, rfl, later⟩
    · cases ends with
      | marked inner split inside marker more => exact .segment marker (.inr made) (.here rfl running)
      | unmarked inside noMarker last => exact .tail noMarker last made (.inr last)
    · cases none spent
  | cut error interner noMarker =>
    refine ⟨fun _ => ?_, fun spent => ?_, rfl, later⟩
    · cases ends with
      | marked inner split inside marker more => exact absurd marker noMarker
      | unmarked inside _ last => exact .tail noMarker last made (.inl rfl)
    · cases none spent
  | nothing interner noMarker =>
    exact ⟨fun _ => .past (.inl rfl) (.inl noMarker), fun _ => ⟨rfl, .inl rfl⟩, rfl, later⟩

/-- The search for the next game makes the events of the segments it goes over. -/
theorem Goes.next (recovering : reader.config.stopOnError = false)
    (unfailing : reader.lexer.source.IsUnfailing)
    (limited : reader.config.gameLimit ≠ none → released) :
    ∃ errors, reader.next.2.errors = reader.errors ++ errors ∧
      Goes released reader (errors.map .recorded ++ (Reply.game reader.next.1).events)
        reader.next.2 := by
  induction size : reader.lexer.source.content.length using Nat.strongRecOn
    generalizing reader with
  | ind size inductionHypothesis =>
    by_cases done : reader.isDone = true
    · rw [next_of_isDone done]
      exact ⟨[], (List.append_nil _).symm, .of_isDone done unfailing⟩
    · have running := Bool.eq_false_iff.mpr done
      by_cases limit : reader.atLimit = true
      · rw [next_of_atLimit running limit]
        have holds : released := by
          refine limited fun unlimited => ?_
          rw [atLimit, unlimited] at limit
          cases limit
        exact ⟨[], (List.append_nil _).symm, .of_released holds rfl rfl unfailing⟩
      · have pass := @Goes.pass reader released _ recovering unfailing running
        have outcome := pass_outcome recovering unfailing
        rw [next_of_pass running (Bool.eq_false_iff.mpr limit)]
        generalize event : reader.lexer.event? reader.config = made at pass outcome
        cases answer : reader.pass with
        | mk result after =>
          rw [answer] at pass outcome
          cases outcome with
          | game entry interner marker => exact ⟨[], (List.append_nil _).symm, pass⟩
          | cut error interner noMarker => exact ⟨[error], rfl, pass⟩
          | nothing interner noMarker => exact ⟨[], (List.append_nil _).symm, pass⟩
          | recovered error interner =>
            have shorter := content_lt_of_pass answer
            obtain ⟨errors, added, rest⟩ := @inductionHypothesis _ (size ▸ shorter)
              { reader with
                lexer := reader.lexer.segment.2, interner, errors := reader.errors ++ [error] }
              recovering pass.unfailing limited rfl
            exact ⟨error :: errors, added.trans (List.append_assoc _ _ _), pass.trans rest⟩

theorem Goes.answer {request : Request} (recovering : reader.config.stopOnError = false)
    (unfailing : reader.lexer.source.IsUnfailing)
    (limited : reader.config.gameLimit ≠ none → released) (closed : request = .close → released) :
    Goes released reader (reader.events request) (reader.answer request).2 := by
  cases request with
  | next =>
    obtain ⟨errors, added, goes⟩ := Goes.next recovering unfailing limited
    unfold Reader.events Reader.answer
    dsimp only
    rwa [added, List.drop_left]
  | skipGame =>
    obtain ⟨kept, goes⟩ := @Goes.skipGame reader released unfailing
    unfold Reader.events Reader.answer
    dsimp only
    rwa [kept, List.drop_length]
  | close =>
    unfold Reader.events Reader.answer
    dsimp only
    rw [show reader.close.errors = reader.errors from rfl, List.drop_length]
    exact .of_released (closed rfl) rfl rfl (.close reader.lexer.source)

theorem Goes.run {requests : List Request} (recovering : reader.config.stopOnError = false)
    (unfailing : reader.lexer.source.IsUnfailing)
    (limited : reader.config.gameLimit ≠ none → released)
    (closed : .close ∈ requests → released) :
    Goes released reader (reader.run requests).1 (reader.run requests).2 := by
  induction requests generalizing reader with
  | nil =>
    exact ⟨fun running => .here rfl running, fun spent => ⟨rfl, spent⟩, rfl, unfailing⟩
  | cons request rest inductionHypothesis =>
    have first : Goes released reader (reader.events request) (reader.answer request).2 :=
      .answer recovering unfailing limited fun closing => closed (closing ▸ List.mem_cons_self)
    have config := first.config
    exact first.trans (inductionHypothesis (config ▸ recovering) first.unfailing
      (config ▸ limited) fun closing => closed (List.mem_cons_of_mem _ closing))

/-- The events of the requests are in step with the segments of the input. -/
structure Synchronised (reader : Reader) (requests : List Request) : Prop where
  /-- Each event is made by the segment of its number. -/
  makes : ∀ index event, (reader.run requests).1[index]? = some event →
    (reader.lexer.afterSegments index).Makes reader.config event
  /-- A game that is yielded has the outcome that the marker of its segment names. -/
  outcome : ∀ index game, (reader.run requests).1[index]? = some (.game game) →
    (reader.lexer.afterSegments index).EndsMarked ∧
      game.outcome.marker = (reader.lexer.afterSegments (index + 1)).span
  /-- A tail without a marker makes at most one event: an error, which is the last. -/
  tail : ∀ index event, (reader.run requests).1[index]? = some event →
    (reader.lexer.afterSegments index).EndsMarked ∨
      index + 1 = (reader.run requests).1.length ∧ ∃ error, event = .recorded error
  /-- As long as there may be more to read, no segment was left out. -/
  place : ¬ (reader.run requests).2.IsSpent →
    (reader.run requests).2.lexer = reader.lexer.afterSegments (reader.run requests).1.length
  /-- A reader that comes to its end without being told to has left no marker behind. -/
  complete : (reader.run requests).2.IsSpent → reader.config.gameLimit = none →
    .close ∉ requests →
      ¬ (reader.lexer.afterSegments (reader.run requests).1.length).EndsMarked

/-- Error recovery stays in step with the games: a pass of the search for a game and the passing over
of a game both lead to the end of the segment, no part of the assembly goes on behind a termination
marker, and whatever is asked of the reader, its events are those of the segments in order. -/
theorem recovery_synchronised {reader : Reader} (recovering : reader.config.stopOnError = false)
    (unfailing : reader.lexer.source.IsUnfailing) (running : reader.isDone = false) :
    (reader.pass.2.lexer = reader.lexer.segment.2 ∧
        reader.skipGame.2.lexer = reader.lexer.segment.2 ∧ reader.lexer.Ends) ∧
      (∀ (draft later : Draft) (token : Token), token.kind = .termination →
        draft.accept reader.config token ≠ .ok (.onward later)) ∧
      ∀ requests, reader.Synchronised requests := by
  refine ⟨⟨?_, ?_, (Lexer.ends_of_isUnfailing unfailing).1⟩, ?_, fun requests => ?_⟩
  · have outcome := pass_outcome recovering unfailing
    generalize reader.pass = result at outcome
    generalize reader.lexer.event? reader.config = event at outcome
    cases outcome <;> rfl
  · obtain ⟨_, _, skips, _⟩ := skipGame_eq_segment unfailing running
    rw [skips]
  · intro draft later token marker onward
    have orderly := Draft.accept_orderly reader.config draft token
    rw [onward] at orderly
    exact orderly marker
  · have unfailings (index : Nat) :
        (reader.lexer.afterSegments index).source.IsUnfailing := by
      induction index with
      | zero => exact unfailing
      | succ index inductionHypothesis => exact (Lexer.ends_of_isUnfailing inductionHypothesis).2
    have goes : Goes (reader.config.gameLimit ≠ none ∨ .close ∈ requests) reader
        (reader.run requests).1 (reader.run requests).2 :=
      .run recovering unfailing .inl .inr
    have follows := goes.follows running
    exact {
      makes := fun index event made => follows.makes made
      outcome := fun index game made => by
        rcases follows.makes made with ⟨skipped, _⟩ | own
        · cases skipped
        · exact Lexer.outcome_of_event? (Lexer.ends_of_isUnfailing (unfailings index)).1 own
      tail := fun index event made => follows.endsMarked_or_last made
      place := follows.lexer_eq
      complete := fun spent unlimited unclosed => follows.not_endsMarked spent fun released =>
        released.elim (fun limited => limited unlimited) unclosed }

end Hash

open scoped PairHash

/-- A reader that recovers from errors, over a game that is refused and one that is not. -/
def recovering : Reader :=
  start { Config.standard with stopOnError := false }
    (.ofSource (.ofBytes (Bytes.ofString "1. e4 ] 1-0 1. d4 d5 *")))

theorem recovering_synchronised :
    (recovering.config.stopOnError = false ∧ recovering.lexer.source.IsUnfailing ∧
        recovering.isDone = false) ∧
      recovering.pass.2.lexer = recovering.skipGame.2.lexer ∧
      recovering.Synchronised [.skipGame, .next, .next] := by
  have unfailing : recovering.lexer.source.IsUnfailing := trivial
  obtain ⟨⟨passed, skipped, _⟩, _, synchronised⟩ :=
    @recovery_synchronised _ recovering rfl unfailing rfl
  exact ⟨⟨rfl, unfailing, rfl⟩, passed.trans skipped.symm, synchronised _⟩

end Reader

end Scoresheet
