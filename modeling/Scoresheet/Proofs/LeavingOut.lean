/-
This file shows that leaving out a part of the games is a projection. Without comments or variations
a reader answers every request as before, with the same errors in the same places, and the games it
yields have lost their comments or variations and nothing else. Without headers or moves more games
can be read, because tokens are read over that would be refused otherwise; but each segment that
gave a game gives the same game without its headers or its moves.
-/

import Scoresheet.Cache.PairHash
import Scoresheet.Proofs.Erasure
import Scoresheet.Proofs.ReadOver

namespace Scoresheet

section Details

variable (details : Details) (config : Config)

namespace Draft

theorem conclude_without (draft : Draft) (position : Position) :
    (draft.without details).conclude (config.leavingOut details) position =
      (draft.conclude config position).map (Option.map (Entry.without details)) := by
  have expected := draft.expected_without details config
  obtain ⟨headers, comment, commentPhase, stage⟩ := draft
  unfold conclude
  rw [expected]
  cases commentPhase with
  | idle => cases stage <;> rfl
  | _ => rfl

variable [Hashable HeaderPair]

/-- Reading on without comments or variations takes the same tokens, interns the same header pairs
and ends in the same way. -/
theorem readOn_without (plain : config.annotationTemplate = none) (draft : Draft)
    (allocations : List Nat) (interner : Interner) (lexer : Lexer) :
    (draft.without details).readOn (config.leavingOut details) allocations interner lexer =
      ((draft.readOn config allocations interner lexer).1.map (Option.map (Entry.without details)),
        (draft.readOn config allocations interner lexer).2) := by
  fun_induction readOn config draft allocations interner lexer with
  | case1 draft allocations interner lexer failure after failed =>
    rw [readOn_of_failed failed]
    rfl
  | case2 draft allocations interner lexer after success noted last =>
    rw [readOn_of_last success last, recorded?_without, conclude_without]
  | case3 draft allocations interner lexer after success noted more error refused =>
    rw [readOn_of_token success (Bool.eq_false_iff.mpr more), recorded?_without,
      accept_without details config draft after.token plain, refused]
    rfl
  | case4 draft allocations interner lexer after success noted more game finished =>
    rw [readOn_of_token success (Bool.eq_false_iff.mpr more), recorded?_without,
      accept_without details config draft after.token plain, finished]
    rfl
  | case5 draft allocations interner lexer after success noted more next onward
      inductionHypothesis =>
    rw [readOn_of_token success (Bool.eq_false_iff.mpr more), recorded?_without,
      accept_without details config draft after.token plain, onward]
    exact inductionHypothesis

theorem read_without (plain : config.annotationTemplate = none) (interner : Interner)
    (lexer : Lexer) :
    read (config.leavingOut details) interner lexer =
      ((read config interner lexer).1.map (Option.map (Entry.without details)),
        (read config interner lexer).2) := by
  have fresh : start.without details = start := by
    unfold without start
    rw [ite_self]
    rfl
  unfold read
  rw [← readOn_without details config plain, fresh]

end Draft

namespace Reader

/-- The reader with comments or variations left out. -/
def leavingOut (details : Details) (reader : Reader) : Reader :=
  { reader with config := reader.config.leavingOut details }

/-- The reply with the comments or the variations of its game left out. -/
def Reply.without (details : Details) : Reply → Reply
  | .game result => .game (result.map (Except.map (Entry.without details)))
  | .skipped result => .skipped result
  | .closed => .closed

variable (reader : Reader)

theorem settle_leavingOut (reading : Reading) :
    settle (reading.map (Option.map (Entry.without details))) (reader.leavingOut details) =
      ((settle reading reader).1.map (Option.map (Except.map (Entry.without details))),
        (settle reading reader).2.leavingOut details) := by
  cases reading with
  | ok found => cases found <;> rfl
  | error error =>
    have stops : (reader.leavingOut details).config.stopOnError = reader.config.stopOnError :=
      rfl
    have place : (reader.leavingOut details).lexer = reader.lexer := rfl
    unfold settle
    dsimp only [Except.map]
    rw [stops, place]
    split
    · rfl
    · split
      · rfl
      · cases reader.lexer.skipUntil .termination with
        | mk result lexer => cases result <;> rfl

theorem skipGame_leavingOut :
    (reader.leavingOut details).skipGame =
      (reader.skipGame.1, reader.skipGame.2.leavingOut details) := by
  have done : (reader.leavingOut details).isDone = reader.isDone := rfl
  have place : (reader.leavingOut details).lexer = reader.lexer := rfl
  unfold skipGame
  rw [done, place]
  repeat' split
  all_goals rfl

variable [Hashable HeaderPair]

theorem pass_leavingOut (plain : reader.config.annotationTemplate = none) :
    (reader.leavingOut details).pass =
      (reader.pass.1.map (Option.map (Except.map (Entry.without details))),
        reader.pass.2.leavingOut details) := by
  unfold pass
  rw [← settle_leavingOut]
  exact congrArg (fun answer : Reading × Interner × Lexer => settle answer.1
      { reader.leavingOut details with interner := answer.2.1, lexer := answer.2.2 })
    (Draft.read_without details reader.config plain reader.interner reader.lexer)

/-- The search for the next game ends as before. -/
theorem next_leavingOut (plain : reader.config.annotationTemplate = none) :
    (reader.leavingOut details).next =
      (reader.next.1.map (Except.map (Entry.without details)),
        reader.next.2.leavingOut details) := by
  induction reader using next_induction with
  | done reader done =>
    rw [next_of_isDone done, @next_of_isDone _ (reader.leavingOut details) done]
    rfl
  | limit reader running limit =>
    rw [next_of_atLimit running limit,
      @next_of_atLimit _ (reader.leavingOut details) running limit]
    rfl
  | answered reader result after running room passed =>
    have own := reader.pass_leavingOut details plain
    rw [passed] at own
    rw [next_of_answered running room passed,
      @next_of_answered _ (reader.leavingOut details) _ _ running room own]
  | again reader after running room passed inductionHypothesis =>
    have own := reader.pass_leavingOut details plain
    rw [passed] at own
    rw [next_of_again running room passed,
      @next_of_again _ (reader.leavingOut details) _ running room own]
    have kept := reader.config_pass
    rw [passed] at kept
    exact inductionHypothesis (kept ▸ plain)

theorem answer_leavingOut (plain : reader.config.annotationTemplate = none) (request : Request) :
    (reader.leavingOut details).answer request =
      ((reader.answer request).1.without details,
        (reader.answer request).2.leavingOut details) := by
  cases request with
  | next =>
    unfold answer
    rw [next_leavingOut details reader plain]
    rfl
  | skipGame =>
    unfold answer
    rw [skipGame_leavingOut]
    rfl
  | close => rfl

theorem answers_leavingOut (plain : reader.config.annotationTemplate = none)
    (requests : List Request) :
    (reader.leavingOut details).answers requests =
      (reader.answers requests).map fun answer => (answer.1.without details, answer.2) := by
  induction requests generalizing reader with
  | nil => rfl
  | cons request rest inductionHypothesis =>
    have kept := reader.config_answer request
    rw [answers, answers, answer_leavingOut details reader plain, List.map_cons]
    exact congrArg (_ :: ·) (inductionHypothesis _ (kept ▸ plain))

end Reader

end Details

namespace Reader

section Hash

variable [Hashable HeaderPair]

/-- With the other settings, each segment that gave a game gives the changed game, and a run that
goes on for long enough has the changed game in the place of the game. -/
structure Projects (change : Game → Game) (settings : Config → Config) (reader : Reader) :
    Prop where
  segments : ∀ (lexer : Lexer) (game : Game), lexer.event? reader.config = some (.game game) →
    lexer.event? (settings reader.config) = some (.game (change game))
  places : ∀ calls calls' : Nat, reader.lexer.source.content.length ≤ calls' →
    ∀ (index : Nat) (game : Game),
      (reader.run (List.replicate calls .next)).1[index]? = some (.game game) →
        (reader.lexer.afterSegments index).event? reader.config = some (.game game) ∧
          (Reader.run (List.replicate calls' .next)
            { reader with config := settings reader.config }).1[index]? =
              some (.game (change game))

theorem projects_of_carries {change : Game → Game} {settings : Config → Config} {reader : Reader}
    (carries : reader.config.Carries change (settings reader.config))
    (recovering : reader.config.stopOnError = false)
    (recovering' : (settings reader.config).stopOnError = false)
    (unlimited : reader.config.gameLimit = none)
    (unlimited' : (settings reader.config).gameLimit = none) :
    reader.Projects change settings := by
  refine ⟨fun lexer game made => carries.event? made,
    fun calls calls' enough index game found => ?_⟩
  by_cases done : reader.isDone = true
  · rw [run_of_isDone done] at found
    cases found
  · have running := Bool.eq_false_iff.mpr done
    exact ⟨(made_of_run recovering unlimited running found).2,
      @run_carries _ change reader { reader with config := settings reader.config } carries rfl
        running running recovering recovering' unlimited unlimited' _ _ _ _ enough found⟩

/-- Leaving out a part is a projection. Where no descriptions of annotations are added to comments,
a reader without comments or variations answers all requests as before, up to the comments or the
variations of its games; and a move that nothing else follows becomes bare. If a reader recovers
from errors and may read all games, then without headers or moves each segment that gave a game
gives the same game without its headers or its moves. -/
theorem leavingOut_projects (reader : Reader) :
    (reader.config.annotationTemplate = none → ∀ (details : Details) (requests : List Request),
      (reader.leavingOut details).answers requests =
        (reader.answers requests).map fun answer => (answer.1.without details, answer.2)) ∧
    (∀ (details : Details) (move : Move), move.without details = .bare move.text ↔
      move.nags = [] ∧ (details.comments = true ∨ move.comment = none) ∧
        (details.variations = true ∨ move.variations = [])) ∧
    (reader.config.stopOnError = false → reader.config.gameLimit = none →
      reader.Projects (fun game => { game with headers := none })
          (fun config => { config with skip := { config.skip with headers := true } }) ∧
        reader.Projects (fun game => { game with moves := [] })
          (fun config => { config with skip := { config.skip with moves := true } })) :=
  ⟨fun plain details requests => answers_leavingOut details reader plain requests,
    Move.without_eq_bare_iff,
    fun recovering unlimited =>
      ⟨projects_of_carries reader.config.carries_withoutHeaders recovering recovering unlimited
          unlimited,
        projects_of_carries reader.config.carries_withoutMoves recovering recovering unlimited
          unlimited⟩⟩

end Hash

open scoped PairHash

/-- A reader that recovers from errors, over a game with headers, a comment and a variation, and one
whose header section and movetext are refused. -/
def verbose : Reader :=
  start { Config.standard with stopOnError := false }
    (.ofSource (.ofBytes (Bytes.ofString "[A \"b\"] 1. e4 {c} (1. d4) e5 *\n[A b] 1. 0 *")))

theorem leavingOut_verbose :
    (verbose.config.annotationTemplate = none ∧ verbose.config.stopOnError = false ∧
        verbose.config.gameLimit = none ∧ verbose.lexer.source.content.length ≤ 60) ∧
      ((games (verbose.run (List.replicate 2 .next)).1).map fun game =>
        (game.headers.isSome, game.moves.length)) = [(true, 1)] ∧
      (verbose.leavingOut ⟨true, true⟩).answers [.next, .next] =
        (verbose.answers [.next, .next]).map
          (fun answer => (answer.1.without ⟨true, true⟩, answer.2)) ∧
      verbose.Projects (fun game => { game with headers := none })
        (fun config => { config with skip := { config.skip with headers := true } }) :=
  ⟨⟨rfl, rfl, rfl, by decide +kernel⟩, by decide +kernel,
    (leavingOut_projects verbose).1 rfl ⟨true, true⟩ [.next, .next],
    ((leavingOut_projects verbose).2.2 rfl rfl).1⟩

end Reader

end Scoresheet
