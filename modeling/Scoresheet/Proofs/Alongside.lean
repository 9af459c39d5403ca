/-
This file follows two readers with different settings through one input. The settings are such that
each row of tokens that finishes a game with the first ones finishes a game with the second ones as
well, namely the first game changed in a certain way. Then each segment that gives a game to the
first reader gives the changed game to the second one. This holds over every source, because the
segments in front of a failure are read whole by both readers.
-/

import Scoresheet.Proofs.Failing
import Scoresheet.Proofs.History

namespace Scoresheet

/-- Each segment whose tokens finish a game with the first settings finishes the changed game with
the second ones. -/
def Config.Carries (change : Game → Game) (first second : Config) : Prop :=
  ∀ (lexer : Lexer) (game : Game), Draft.start.judge first lexer.segment.1 = .finished game →
    Draft.start.judge second lexer.segment.1 = .finished (change game)

/-! ### Results that succeed where others do -/

/-- If the first result is a success, the second one is the changed success. -/
def Within {Value Result : Type} (change : Value → Result) (first : Except ReadError Value)
    (second : Except ReadError Result) : Prop :=
  ∀ value, first = .ok value → second = .ok (change value)

namespace Within

variable {Value Result Next : Type} {change : Value → Result} {first : Except ReadError Value}
  {second other : Except ReadError Result} {error : ReadError} {condition wider : Prop}
  [Decidable condition] [Decidable wider]

theorem refl (result : Except ReadError Value) : Within id result result :=
  fun _ success => success

theorem ok (value : Value) : Within change (.ok value) (.ok (change value)) := by
  intro _ success
  cases success
  rfl

theorem refused (error : ReadError) (second : Except ReadError Result) :
    Within change (.error error) second :=
  fun _ success => by cases success

theorem ite {first' : Except ReadError Value} {second' : Except ReadError Result}
    (yes : condition → Within change first second)
    (no : ¬ condition → Within change first' second') :
    Within change (if condition then first else first')
      (if condition then second else second') := by
  split
  · next holds => exact yes holds
  · next fails => exact no fails

/-- The first result needs more to succeed. -/
theorem of_stronger (le : condition → wider) (within : Within change first second) :
    Within change (if condition then first else .error error)
      (if wider then second else other) := by
  by_cases holds : condition
  · rwa [if_pos holds, if_pos (le holds)]
  · rw [if_neg holds]
    exact refused error _

/-- The first result is refused for more reasons. -/
theorem of_weaker (le : wider → condition) (within : Within change first second) :
    Within change (if condition then .error error else first)
      (if wider then other else second) := by
  by_cases holds : condition
  · rw [if_pos holds]
    exact refused error _
  · rwa [if_neg holds, if_neg (mt le holds)]

/-- The first result is refused, or both are the same success. -/
@[elab_as_elim]
theorem elim {motive : Except ReadError Value → Except ReadError Value → Prop}
    {first second : Except ReadError Value} (within : Within id first second)
    (refused : ∀ error second, motive (.error error) second)
    (accepted : ∀ value, motive (.ok value) (.ok value)) : motive first second := by
  cases found : first with
  | error error => exact refused error second
  | ok value =>
    rw [within value found]
    exact accepted value

theorem bind {first second : Except ReadError Value} (within : Within id first second)
    (next : Value → Except ReadError Next) : Within id (first.bind next) (second.bind next) :=
  within.elim (fun error _ => refused error _) fun value => refl (next value)

end Within

namespace Draft

/-- The step with its draft or its game changed. -/
def Step.change (draft : Draft → Draft) (game : Game → Game) : Step → Step
  | onward next => .onward (draft next)
  | finished last => .finished (game last)

/-- If the changed draft takes each token to the changed effect, the changed game is finished. The
condition is one on the draft and on the tokens that are left. -/
theorem judge_of_within {first second : Config} {change : Draft → Draft} {last : Game → Game}
    {fine : Draft → List Token → Prop}
    (takes : ∀ draft token rest, fine draft (token :: rest) →
      Within (Step.change change last) (draft.accept first token)
        ((change draft).accept second token))
    (stays : ∀ draft later token rest, fine draft (token :: rest) →
      draft.accept first token = .ok (.onward later) → fine later rest)
    {draft : Draft} {tokens : List Token} {game : Game} (start : fine draft tokens)
    (finished : draft.judge first tokens = .finished game) :
    (change draft).judge second tokens = .finished (last game) := by
  induction tokens generalizing draft with
  | nil => cases finished
  | cons token rest inductionHypothesis =>
    have within := takes draft token rest start
    rw [judge] at finished
    split at finished
    · cases finished
    · next ended =>
      cases finished
      exact judge_cons_of_finished (within _ ended)
    · next later onward =>
      rw [judge_cons_of_onward (within _ onward)]
      exact inductionHypothesis (stays draft later token rest start onward) finished

end Draft

namespace Event

/-- The game that was yielded. -/
def game? : Event → Option Game
  | game found => some found
  | _ => none

theorem eq_game_of_game? {event : Event} {game : Game} (found : event.game? = some game) :
    event = .game game := by
  cases event <;> cases found
  rfl

end Event

/-- The games among events, in order. -/
def games (events : List Event) : List Game := events.filterMap Event.game?

/-- If each game has its counterpart in the same place of another row of events, the games are among
those of that row. -/
theorem games_sublist {change : Game → Game} {first second : List Event}
    (carried : ∀ (index : Nat) (game : Game), first[index]? = some (.game game) →
      second[index]? = some (.game (change game))) :
    ((games first).map change).Sublist (games second) := by
  induction first generalizing second with
  | nil => exact List.nil_sublist _
  | cons event rest inductionHypothesis =>
    cases second with
    | nil =>
      have none (found : Event) (member : found ∈ event :: rest) : found.game? = none := by
        obtain ⟨index, place⟩ := List.mem_iff_getElem?.mp member
        cases shown : found.game? with
        | none => rfl
        | some game =>
          rw [Event.eq_game_of_game? shown] at place
          cases carried index game place
      rw [games, List.filterMap_eq_nil_iff.mpr none]
      exact List.nil_sublist _
    | cons other others =>
      have later := inductionHypothesis fun index game place => carried (index + 1) game place
      cases shown : event.game? with
      | none =>
        rw [games, List.filterMap_cons_none shown]
        exact later.trans ((List.sublist_cons_self other others).filterMap _)
      | some game =>
        have same : other = .game (change game) :=
          Option.some.inj (carried 0 game (congrArg some (Event.eq_game_of_game? shown)))
        rw [games, List.filterMap_cons_some shown, List.map_cons, same]
        exact later.cons_cons (change game)

/-- A segment with a marker takes something. -/
theorem Lexer.HasMarker.content_lt {lexer : Lexer} (marker : lexer.HasMarker) :
    lexer.segment.2.source.content.length < lexer.source.content.length := by
  cases advanced : Scan.advance.run lexer with
  | mk result after =>
    cases result with
    | error failure => exact absurd marker (not_hasMarker_of_failed advanced)
    | ok _ =>
      cases last : after.isExhausted with
      | true => exact absurd marker (not_hasMarker_of_last advanced last)
      | false =>
        have shorter := content_lt_of_advance advanced last
        by_cases ends : after.kind = .termination
        · rwa [segment_of_marker advanced last ends]
        · rw [segment_of_inside advanced last ends]
          exact Nat.lt_of_le_of_lt (consumes_segment after).content_le shorter

theorem Config.Carries.event? {change : Game → Game} {first second : Config}
    (carries : first.Carries change second) {lexer : Lexer} {game : Game}
    (made : lexer.event? first = some (.game game)) :
    lexer.event? second = some (.game (change game)) := by
  have finished : Draft.start.judge first lexer.segment.1 = .finished game := by
    unfold Lexer.event? at made
    cases verdict : Draft.start.judge first lexer.segment.1 with
    | unfinished draft =>
      rw [verdict] at made
      rcases draft.conclude_eq first lexer.segment.2.start with nothing | early
      · rw [Verdict.reading, nothing] at made
        cases made
      · rw [Verdict.reading, early] at made
        cases made
    | refused error =>
      rw [verdict] at made
      cases made
    | finished found =>
      rw [verdict] at made
      cases made
      rfl
  unfold Lexer.event?
  rw [carries lexer game finished]
  rfl

namespace Reader

variable {reader after : Reader}

theorem atLimit_of_unlimited (unlimited : reader.config.gameLimit = none) :
    reader.atLimit = false := by
  rw [atLimit, unlimited]

/-! ### Passes over a segment with a marker -/

variable [Hashable HeaderPair]

theorem pass_of_finished {game : Game} (marker : reader.lexer.HasMarker)
    (finished : Draft.start.judge reader.config reader.lexer.segment.1 = .finished game) :
    ∃ entry interner, entry.game = game ∧ reader.pass = (some (some (.ok entry)), { reader with
      lexer := reader.lexer.segment.2, interner, gamesRead := reader.gamesRead + 1 }) := by
  rcases Draft.readOn_of_hasMarker marker reader.config .start [] reader.interner with
    ⟨entry, read, judged, place⟩ | ⟨error, _, judged, _⟩
  · rw [finished] at judged
    refine ⟨entry, (Draft.start.readOn reader.config [] reader.interner reader.lexer).2.1,
      (Verdict.finished.inj judged).symm, ?_⟩
    unfold pass settle Draft.read
    simp only [read, place]
  · rw [finished] at judged
    cases judged

theorem pass_of_refused {error : ReadError} (recovering : reader.config.stopOnError = false)
    (marker : reader.lexer.HasMarker)
    (refused : Draft.start.judge reader.config reader.lexer.segment.1 = .refused error) :
    ∃ interner, reader.pass = (none, { reader with
      lexer := reader.lexer.segment.2, interner, errors := reader.errors ++ [error] }) := by
  rcases Draft.readOn_of_hasMarker marker reader.config .start [] reader.interner with
    ⟨entry, _, judged, _⟩ | ⟨found, read, judged, skipped⟩
  · rw [refused] at judged
    cases judged
  · rw [refused] at judged
    obtain rfl := Verdict.refused.inj judged
    have recoverable := Draft.recoverable_of_refused refused
    refine ⟨(Draft.start.readOn reader.config [] reader.interner reader.lexer).2.1, ?_⟩
    unfold pass settle Draft.read
    simp only [read, skipped, recovering, recoverable, ReadError.cause?_of_recoverable recoverable]
    rfl

/-- A pass finds the game that the tokens of its segment finish. -/
theorem finished_of_pass {entry : Entry}
    (passed : reader.pass = (some (some (.ok entry)), after)) : reader.lexer.HasMarker ∧
      Draft.start.judge reader.config reader.lexer.segment.1 = .finished entry.game := by
  have read : (Draft.start.readOn reader.config [] reader.interner reader.lexer).1 =
      .ok (some entry) := by
    unfold pass settle Draft.read at passed
    dsimp only at passed
    split at passed
    · next found =>
      cases passed
      exact found
    · cases passed
    · split at passed
      · cases passed
      · split at passed
        · cases passed
        · split at passed <;> cases passed
  have marker := Draft.hasMarker_of_readOn read
  rcases Draft.readOn_of_hasMarker marker reader.config .start [] reader.interner with
    ⟨found, again, judged, _⟩ | ⟨error, refused, _⟩
  · rw [read] at again
    cases again
    exact ⟨marker, judged⟩
  · rw [read] at refused
    cases refused

/-- A pass that calls for another one has recorded an error. Its segment has a marker, or nothing is
left to read. -/
theorem recorded_of_pass (passed : reader.pass = (none, after)) :
    reader.config.stopOnError = false ∧ (∃ error lexer interner, after = { reader with
      lexer, interner, errors := reader.errors ++ [error] }) ∧
      (reader.lexer.HasMarker ∨ after.lexer.isExhausted = true) := by
  unfold pass settle Draft.read at passed
  dsimp only at passed
  split at passed
  · cases passed
  · cases passed
  · next error refused =>
    split at passed
    · cases passed
    · next recovering =>
      split at passed
      · cases passed
      · next recoverable =>
        split at passed
        · cases passed
        · next lexer skipped =>
          cases passed
          have goesOn : ¬ reader.config.stopOnError = true :=
            fun stops => recovering (Bool.or_eq_true_iff.mpr (.inl stops))
          exact ⟨Bool.eq_false_iff.mpr goesOn,
            ⟨error, lexer, _, rfl⟩, Draft.hasMarker_of_skipUntil refused
              (Bool.eq_false_iff.mpr recoverable) skipped⟩

/-! ### Runs, pass by pass -/

theorem run_of_isDone (done : reader.isDone = true) (calls : Nat) :
    (reader.run (List.replicate calls .next)).1 = [] := by
  induction calls with
  | zero => rfl
  | succ calls inductionHypothesis =>
    have events : reader.events .next = [] := by
      rw [events_next (next_of_isDone done) (List.append_nil _).symm]
      rfl
    rw [List.replicate_succ, run, events, answer, next_of_isDone done]
    exact inductionHypothesis

/-- A reader that has reached its limit yields nothing more. -/
theorem run_of_atLimit (running : reader.isDone = false) (limit : reader.atLimit = true)
    (calls : Nat) : (reader.run (List.replicate calls .next)).1 = [] := by
  cases calls with
  | zero => rfl
  | succ calls =>
    have found := next_of_atLimit running limit
    have events : reader.events .next = [] := by
      rw [events_next found (List.append_nil _).symm]
      rfl
    rw [List.replicate_succ, run, events, answer, found]
    exact run_of_isDone rfl calls

/-- A pass that finds a game yields it first. -/
theorem run_of_game {entry : Entry} (running : reader.isDone = false)
    (room : reader.atLimit = false) (passed : reader.pass = (some (some (.ok entry)), after))
    (kept : after.errors = reader.errors) (calls : Nat) :
    (reader.run (List.replicate (calls + 1) .next)).1 =
      .game entry.game :: (after.run (List.replicate calls .next)).1 := by
  have found := next_of_answered running room passed
  have events : reader.events .next = [.game entry.game] := by
    rw [@events_next _ _ _ [] _ found (by rw [kept, List.append_nil])]
    rfl
  rw [List.replicate_succ, run, events, answer, found]
  rfl

/-- A pass that calls for another one records an error first. -/
theorem run_of_again (running : reader.isDone = false) (room : reader.atLimit = false)
    (passed : reader.pass = (none, after)) {error : ReadError}
    (recorded : after.errors = reader.errors ++ [error]) (calls : Nat) :
    (reader.run (List.replicate (calls + 1) .next)).1 =
      .recorded error :: (after.run (List.replicate (calls + 1) .next)).1 := by
  have found := next_of_again running room passed
  obtain ⟨more, added⟩ := (trails_next after).errors
  have events : reader.events .next = .recorded error :: after.events .next := by
    rw [@events_next after _ _ more _ rfl added.symm,
      @events_next reader _ _ (error :: more) _ found
        (by rw [← added, recorded, List.append_assoc]; rfl)]
    rfl
  rw [List.replicate_succ, run, run, events, answer, answer, found]
  rfl

/-- A pass that ends the search without a game is the last one. -/
theorem games_run_of_last {result : Option (Except ReadError Entry)}
    (running : reader.isDone = false) (room : reader.atLimit = false)
    (passed : reader.pass = (some result, after)) (last : ∀ entry, result ≠ some (.ok entry))
    (calls : Nat) : games (reader.run (List.replicate calls .next)).1 = [] := by
  cases calls with
  | zero => rfl
  | succ calls =>
    have found := next_of_answered running room passed
    obtain ⟨errors, added⟩ := (trails_next reader).errors
    rw [found] at added
    have nothing : (Reply.game result).events = [] := by
      cases result with
      | none => rfl
      | some result =>
        cases result with
        | error error => rfl
        | ok entry => exact absurd rfl (last entry)
    rw [List.replicate_succ, run, answer, found, run_of_isDone (isDone_of_pass passed last),
      events_next found added.symm, nothing, List.append_nil, List.append_nil, games,
      List.filterMap_map]
    exact List.filterMap_eq_nil_iff.mpr fun _ _ => rfl

/-- The first event of the calls is the one that the next segment makes, and the others are those of
a reader behind the segment, which is asked at least as often. -/
structure Opens (reader : Reader) (calls : Nat) (event : Event) (later : Reader) (more : Nat) :
    Prop where
  events : (reader.run (List.replicate (calls + 1) .next)).1 =
    event :: (later.run (List.replicate more .next)).1
  made : reader.lexer.event? reader.config = some event
  place : later.lexer = reader.lexer.segment.2
  config : later.config = reader.config
  running : later.isDone = false
  enough : calls ≤ more

/-- A reader that recovers from errors begins with the event of its segment, if that has a marker.
-/
theorem opens_of_hasMarker (recovering : reader.config.stopOnError = false)
    (unlimited : reader.config.gameLimit = none) (running : reader.isDone = false)
    (marker : reader.lexer.HasMarker) (calls : Nat) :
    ∃ event later more, reader.Opens calls event later more := by
  have room := atLimit_of_unlimited unlimited
  rcases Draft.readOn_of_hasMarker marker reader.config .start [] reader.interner with
    ⟨entry, _, judged, _⟩ | ⟨error, _, judged, _⟩
  · obtain ⟨found, interner, same, passed⟩ := pass_of_finished marker judged
    have events := run_of_game running room passed rfl calls
    refine ⟨_, _, _, events, ?_, rfl, rfl, running, Nat.le_refl _⟩
    rw [Lexer.event?, judged, same]
    rfl
  · obtain ⟨interner, passed⟩ := pass_of_refused recovering marker judged
    have events := run_of_again running room passed rfl calls
    refine ⟨_, _, _, events, ?_, rfl, rfl, running, Nat.le_succ _⟩
    rw [Lexer.event?, judged]
    rfl

/-- Without a marker there is no game left to find. -/
theorem games_run_of_unmarked (unlimited : reader.config.gameLimit = none)
    (running : reader.isDone = false) (unmarked : ¬ reader.lexer.HasMarker) (calls : Nat) :
    games (reader.run (List.replicate calls .next)).1 = [] := by
  have room := atLimit_of_unlimited unlimited
  cases passed : reader.pass with
  | mk result after =>
    cases result with
    | some result =>
      refine games_run_of_last running room passed (fun entry found => ?_) calls
      rw [found] at passed
      exact unmarked (finished_of_pass passed).1
    | none =>
      obtain ⟨_, ⟨error, lexer, interner, shape⟩, ends⟩ := recorded_of_pass passed
      have exhausted := ends.resolve_left unmarked
      cases calls with
      | zero => rfl
      | succ calls =>
        rw [run_of_again running room passed (by rw [shape])]
        have passed : after.pass = (some none, after.pass.2) :=
          Prod.ext (pass_of_isExhausted exhausted) rfl
        refine games_run_of_last ?_ ?_ passed nofun _
        · rw [shape]
          exact running
        · exact atLimit_of_unlimited (by rw [shape]; exact unlimited)

theorem hasMarker_of_run (unlimited : reader.config.gameLimit = none)
    (running : reader.isDone = false) {calls index : Nat} {game : Game}
    (found : (reader.run (List.replicate calls .next)).1[index]? = some (.game game)) :
    reader.lexer.HasMarker := by
  refine Classical.byContradiction fun unmarked => ?_
  have among : game ∈ games (reader.run (List.replicate calls .next)).1 :=
    List.mem_filterMap.mpr ⟨_, List.mem_of_getElem? found, rfl⟩
  rw [games_run_of_unmarked unlimited running unmarked] at among
  cases among

/-- The game in a place of a run was made by the segment of that number, and the segments up to it
have their markers. -/
theorem made_of_run (recovering : reader.config.stopOnError = false)
    (unlimited : reader.config.gameLimit = none) (running : reader.isDone = false)
    {calls index : Nat} {game : Game}
    (found : (reader.run (List.replicate calls .next)).1[index]? = some (.game game)) :
    (∀ place ≤ index, (reader.lexer.afterSegments place).HasMarker) ∧
      (reader.lexer.afterSegments index).event? reader.config = some (.game game) := by
  induction index generalizing reader calls with
  | zero =>
    have marker := hasMarker_of_run unlimited running found
    cases calls with
    | zero => cases found
    | succ calls =>
      obtain ⟨event, later, more, opens⟩ :=
        opens_of_hasMarker recovering unlimited running marker calls
      rw [opens.events] at found
      cases found
      refine ⟨fun place first => ?_, opens.made⟩
      rw [Nat.le_zero.mp first]
      exact marker
  | succ index inductionHypothesis =>
    have marker := hasMarker_of_run unlimited running found
    cases calls with
    | zero => cases found
    | succ calls =>
      obtain ⟨event, later, more, opens⟩ :=
        opens_of_hasMarker recovering unlimited running marker calls
      rw [opens.events] at found
      obtain ⟨marked, made⟩ := inductionHypothesis (opens.config ▸ recovering)
        (opens.config ▸ unlimited) opens.running found
      rw [opens.place, Lexer.afterSegments_segment, opens.config] at made
      refine ⟨fun place le => ?_, made⟩
      cases place with
      | zero => exact marker
      | succ place =>
        have behind := marked place (Nat.le_of_succ_le_succ le)
        rwa [opens.place, Lexer.afterSegments_segment] at behind

/-- A run that goes on for long enough has the event of each segment in the place of its number, as
long as the segments have their markers. -/
theorem run_of_marked (recovering : reader.config.stopOnError = false)
    (unlimited : reader.config.gameLimit = none) (running : reader.isDone = false)
    {calls index : Nat} (enough : reader.lexer.source.content.length ≤ calls)
    (marked : ∀ place ≤ index, (reader.lexer.afterSegments place).HasMarker) :
    (reader.run (List.replicate calls .next)).1[index]? =
      (reader.lexer.afterSegments index).event? reader.config := by
  induction index generalizing reader calls with
  | zero =>
    have marker : reader.lexer.HasMarker := marked 0 (Nat.le_refl 0)
    have taken := marker.content_lt
    obtain ⟨calls, rfl⟩ : ∃ fewer, calls = fewer + 1 := ⟨calls - 1, by omega⟩
    obtain ⟨event, later, more, opens⟩ :=
      opens_of_hasMarker recovering unlimited running marker calls
    rw [opens.events]
    exact opens.made.symm
  | succ index inductionHypothesis =>
    have marker : reader.lexer.HasMarker := marked 0 (Nat.zero_le _)
    have taken := marker.content_lt
    obtain ⟨calls, rfl⟩ : ∃ fewer, calls = fewer + 1 := ⟨calls - 1, by omega⟩
    obtain ⟨event, later, more, opens⟩ :=
      opens_of_hasMarker recovering unlimited running marker calls
    have room : later.lexer.source.content.length ≤ more := by
      have := opens.enough
      rw [opens.place]
      omega
    rw [opens.events, ← Lexer.afterSegments_segment, ← opens.place, ← opens.config]
    refine inductionHypothesis (opens.config ▸ recovering) (opens.config ▸ unlimited) opens.running
      room fun place le => ?_
    rw [opens.place, Lexer.afterSegments_segment]
    exact marked (place + 1) (Nat.succ_le_succ le)

/-- In the place of each game that the first reader finds the second one finds the changed game. -/
theorem run_carries {change : Game → Game} {first second : Reader}
    (carries : first.config.Carries change second.config)
    (place : second.lexer = first.lexer) (running : first.isDone = false)
    (running' : second.isDone = false) (recovering : first.config.stopOnError = false)
    (recovering' : second.config.stopOnError = false) (unlimited : first.config.gameLimit = none)
    (unlimited' : second.config.gameLimit = none) {calls calls' index : Nat} {game : Game}
    (enough : first.lexer.source.content.length ≤ calls')
    (found : (first.run (List.replicate calls .next)).1[index]? = some (.game game)) :
    (second.run (List.replicate calls' .next)).1[index]? = some (.game (change game)) := by
  obtain ⟨marked, made⟩ := made_of_run recovering unlimited running found
  rw [← place] at enough marked made
  rw [run_of_marked recovering' unlimited' running' enough marked]
  exact carries.event? made

/-- A reader that stops at the first error finds no more than its first games, and the second reader
finds the changed games before anything else, whether it stops or not. -/
theorem first_games_run {change : Game → Game} {first second : Reader}
    (carries : first.config.Carries change second.config)
    (stopping : first.config.stopOnError = true)
    (place : second.lexer = first.lexer) (done : second.isDone = first.isDone)
    (limit : second.config.gameLimit = first.config.gameLimit)
    (count : second.gamesRead = first.gamesRead) (calls : Nat) :
    (games (first.run (List.replicate calls .next)).1).map change <+:
      games (second.run (List.replicate calls .next)).1 := by
  induction calls generalizing first second with
  | zero => exact List.nil_prefix
  | succ calls inductionHypothesis =>
    have atLimit : second.atLimit = first.atLimit := by
      rw [Reader.atLimit, Reader.atLimit, limit, count]
    cases running : first.isDone with
    | true =>
      rw [run_of_isDone running]
      exact List.nil_prefix
    | false =>
      cases room : first.atLimit with
      | true =>
        rw [run_of_atLimit running room]
        exact List.nil_prefix
      | false =>
        cases passed : first.pass with
        | mk result after =>
          rcases result with _ | _ | error | entry
          · rw [(recorded_of_pass passed).1] at stopping
            cases stopping
          · rw [games_run_of_last running room passed (fun _ same => by cases same)]
            exact List.nil_prefix
          · rw [games_run_of_last running room passed (fun _ same => by cases same)]
            exact List.nil_prefix
          · obtain ⟨marker, finished⟩ := finished_of_pass passed
            obtain ⟨found, interner, same, own⟩ := pass_of_finished marker finished
            obtain ⟨found', interner', same', own'⟩ :=
              @pass_of_finished second _ _ (place ▸ marker)
                (place ▸ carries first.lexer entry.game finished)
            have events := run_of_game running room own rfl calls
            have events' := run_of_game (done.trans running) (atLimit.trans room) own' rfl calls
            rw [events, events', same, same']
            exact List.cons_prefix_cons.mpr ⟨rfl, inductionHypothesis carries stopping
              (by rw [place]) done limit (by rw [count])⟩

end Reader

end Scoresheet
