/-
This file shows that a reader that has come to its end stays there. A search that returns no game is
the last one, and so is a search that records an error after which there is no next game, and a
release of the source. Whatever is asked of the reader afterwards, it answers that there is nothing
more.

Passing a game over is not among the ends: if the source fails there, the reader goes on with
whatever the source delivers next.
-/

import Scoresheet.Cache.PairHash
import Scoresheet.Proofs.Exhaustion
import Scoresheet.Proofs.Requests

namespace Scoresheet

namespace Reader

/-! ### Ends -/

/-- There is nothing more. -/
def Reply.IsIdle : Reply → Prop
  | .game result => result = none
  | .skipped result => result = .ok false
  | .closed => True

/-- Nothing may follow: a search returned no game, or the source was released. -/
def Reply.IsFinal : Reply → Prop
  | .game (some (.ok _)) => False
  | .game _ => True
  | .skipped _ => False
  | .closed => True

/-- Nothing may follow the answer, because of what was returned or of what was recorded by then. -/
def IsEnd (answer : Reply × List ReadError × Nat) : Prop :=
  answer.1.IsFinal ∨ ∃ error ∈ answer.2.1, error.isFatal = true

variable {reader after : Reader} {request : Request}

/-! ### A reader that is done -/

theorem answer_of_isDone [Hashable HeaderPair] (done : reader.isDone = true) (request : Request) :
    (reader.answer request).1.IsIdle ∧ (reader.answer request).2.isDone = true := by
  cases request with
  | next =>
    rw [answer, next_of_isDone done]
    exact ⟨rfl, done⟩
  | skipGame =>
    rw [answer, skipGame, if_pos done]
    exact ⟨rfl, done⟩
  | close => exact ⟨trivial, rfl⟩

theorem answers_of_isDone [Hashable HeaderPair] (done : reader.isDone = true)
    (requests : List Request) :
    ∀ answer ∈ reader.answers requests, answer.1.IsIdle := by
  induction requests generalizing reader with
  | nil =>
    intro answer member
    cases member
  | cons request rest inductionHypothesis =>
    obtain ⟨idle, still⟩ := answer_of_isDone done request
    intro answer member
    rcases List.mem_cons.mp member with rfl | later
    · exact idle
    · exact inductionHypothesis still answer later

/-! ### How a reader comes to be done -/

theorem isDone_of_isFinal [Hashable HeaderPair] (final : (reader.answer request).1.IsFinal) :
    (reader.answer request).2.isDone = true := by
  cases request with
  | next =>
    refine isDone_of_next fun entry returned => ?_
    rw [answer, returned] at final
    exact final
  | skipGame => exact final.elim
  | close => rfl

/-- If an error was recorded after which there is no next game, the reader is done. -/
def HeedsErrors (reader : Reader) : Prop :=
  (∃ error ∈ reader.errors, error.isFatal = true) → reader.isDone = true

/-- Nothing else is done to a reader that has recorded such an error. -/
theorem HeedsErrors.done (reader : Reader) :
    ({ reader with isDone := true } : Reader).HeedsErrors :=
  fun _ => rfl

theorem HeedsErrors.settle (heeds : reader.HeedsErrors) (reading : Reading) :
    (reader.settle reading).2.HeedsErrors := by
  unfold Reader.settle
  split
  · exact heeds
  · exact .done reader
  · next error =>
    split
    · exact .done reader
    · dsimp only
      split
      · exact fun _ => rfl
      · next recoverable =>
        split
        · exact fun _ => rfl
        · rintro ⟨found, among, fatal⟩
          rcases List.mem_append.mp among with before | new
          · exact heeds ⟨found, before, fatal⟩
          · rw [List.mem_singleton.mp new] at fatal
            exact absurd fatal recoverable

theorem HeedsErrors.skipGame (heeds : reader.HeedsErrors) : reader.skipGame.2.HeedsErrors := by
  unfold Reader.skipGame
  split
  · exact heeds
  · split
    · exact heeds
    · split
      · exact fun _ => rfl
      · split <;> exact heeds

variable [Hashable HeaderPair]

theorem HeedsErrors.pass (heeds : reader.HeedsErrors) : reader.pass.2.HeedsErrors := by
  have behind (interner : Interner) (lexer : Lexer) :
      HeedsErrors { reader with interner, lexer } := heeds
  exact (behind _ _).settle _

theorem HeedsErrors.next (heeds : reader.HeedsErrors) : reader.next.2.HeedsErrors := by
  induction reader using next_induction with
  | done reader done => rwa [next_of_isDone done]
  | limit reader running limit =>
    rw [next_of_atLimit running limit]
    exact .done reader
  | answered reader result after running room passed =>
    have later := heeds.pass
    rw [next_of_answered running room passed]
    rwa [passed] at later
  | again reader after running room passed inductionHypothesis =>
    have later := heeds.pass
    rw [passed] at later
    rw [next_of_again running room passed]
    exact inductionHypothesis later

theorem HeedsErrors.answer (heeds : reader.HeedsErrors) (request : Request) :
    (reader.answer request).2.HeedsErrors := by
  cases request with
  | next => exact heeds.next
  | skipGame => exact heeds.skipGame
  | close => exact fun _ => rfl

theorem HeedsErrors.answers_pairwise (heeds : reader.HeedsErrors) (requests : List Request) :
    (reader.answers requests).Pairwise fun earlier later => IsEnd earlier → later.1.IsIdle := by
  induction requests generalizing reader with
  | nil => exact .nil
  | cons request rest inductionHypothesis =>
    refine .cons (fun later member last => ?_) (inductionHypothesis (heeds.answer request))
    refine answers_of_isDone ?_ rest later member
    rcases last with final | recorded
    · exact isDone_of_isFinal final
    · exact heeds.answer request recorded

/-- Behind an end there is nothing more. Once a search has returned something else than a game, an
error was recorded after which there is no next game, or the source was released, every search
returns nothing and every passing over finds nothing, whatever the source does. -/
theorem nothing_behind_end (config : Config) (lexer : Lexer) (requests : List Request) :
    ((start config lexer).answers requests).Pairwise fun earlier later =>
      IsEnd earlier → later.1.IsIdle :=
  HeedsErrors.answers_pairwise (fun ⟨_, member, _⟩ => absurd member List.not_mem_nil) requests

end Reader

/-- A source that fails once and delivers a game then. -/
def Device.hiccup : Device where
  unread := Bytes.ofString "1. e4 *"
  replies := [.fail ⟨"hiccup"⟩]
  habit := .deliver 16

/-- The failure of the source that a reply tells of. -/
def Reader.Reply.failure? : Reply → Option Failure
  | .game (some (.error error)) => error.cause?
  | .skipped (.error error) => error.cause?
  | _ => none

/-- How the game of a reply ended, if the reply is a game. -/
def Reader.Reply.outcome? : Reply → Option Scoresheet.Outcome
  | .game (some (.ok entry)) => some entry.game.outcome
  | _ => none

open scoped PairHash

/-- A failure of the source while a game is passed over is not an end: the next search returns a
game. -/
theorem Reader.next_behind_failed_skipGame :
    ((start .standard (.ofSource (.ofDevice .hiccup))).answers [.skipGame, .next]).map
        (fun answer => (answer.1.failure?, answer.1.outcome?)) =
      [(some ⟨"hiccup"⟩, none), (none, some .unknown)] := by
  decide +kernel

end Scoresheet
