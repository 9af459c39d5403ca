/-
This file judges the tokens of a game as a whole: a row of tokens leaves a draft unfinished, is
refused, or finishes a game. Whatever part of the game a draft is in, it never goes on behind a
termination marker: the marker finishes the game, which then has the outcome the marker names, or
it is refused. A game is finished by nothing else, and every refusal can be recovered from.
-/

import Scoresheet.Draft

namespace Scoresheet

/-- The result is a refusal that can be recovered from, or a step with the given property. -/
def Orderly {Step : Type} (property : Step → Prop) : Except ReadError Step → Prop
  | .error error => error.isFatal = false
  | .ok step => property step

/-! ### Steps in front of a termination marker, and at it -/

section Steps

variable {token : Token}

/-- Going on within a header section takes a token that is no termination marker. -/
theorem HeaderPhase.accept_orderly (config : Config) (phase : HeaderPhase) (token : Token) :
    Orderly (fun _ => token.kind ≠ .termination) (phase.accept config token) := by
  unfold HeaderPhase.accept
  split
  case h_3 kind =>
    split
    · rfl
    · rw [Orderly, kind]
      decide
  case h_11 => rfl
  all_goals
    next kind =>
      rw [Orderly, kind]
      decide

/-- A line is only ended by a termination marker. -/
def LineDraft.Step.Fits (token : Token) : LineDraft.Step → Prop
  | .onward _ => token.kind ≠ .termination
  | .branch => token.kind ≠ .termination
  | .ended _ => True

theorem LineDraft.acceptAtRest_orderly (config : Config) (turns : List Turn) (token : Token) :
    Orderly (LineDraft.Step.Fits token) (acceptAtRest config turns token) := by
  unfold acceptAtRest
  split
  · next kind =>
    split
    · rfl
    · split
      · rfl
      · rw [Orderly, Step.Fits, kind]
        decide
  · trivial

theorem MoveDraft.annotate_orderly (config : Config) (token : Token) (draft : MoveDraft) :
    Orderly (fun _ => True) (draft.annotate config token) := by
  unfold annotate
  split
  · split
    · trivial
    · split
      · trivial
      · rfl
  · trivial

/-- An annotation goes on with the move it belongs to. -/
theorem LineDraft.annotate_orderly (config : Config) (move : MoveDraft) (turns : List Turn)
    (phase : MoveDraft → TurnPhase) (glyph : token.kind = .nag) :
    Orderly (LineDraft.Step.Fits token) ((move.annotate config token).bind fun move =>
      .ok (.onward ⟨turns, phase move⟩)) := by
  have annotated := MoveDraft.annotate_orderly config token move
  cases result : move.annotate config token with
  | error error =>
    rw [result] at annotated
    exact annotated
  | ok move =>
    rw [Except.bind, Orderly, Step.Fits, glyph]
    decide

theorem LineDraft.accept_orderly (config : Config) (draft : LineDraft) (token : Token) :
    Orderly (LineDraft.Step.Fits token) (draft.accept config token) := by
  have onward {kind : TokenKind} (turns : List Turn) (phase : TurnPhase)
      (told : token.kind = kind) (inside : kind ≠ .termination) :
      Orderly (Step.Fits token) (.ok (.onward ⟨turns, phase⟩)) := by
    rwa [Orderly, Step.Fits, told]
  obtain ⟨turns, phase⟩ := draft
  cases phase with
  | rest => exact acceptAtRest_orderly config turns token
  | numbered number digits =>
    unfold accept
    dsimp only
    split
    · next kind => exact onward turns _ kind (by decide)
    · next kind => exact onward turns _ kind (by decide)
    · rfl
  | dotted number digits =>
    unfold accept
    dsimp only
    split
    · next kind => exact onward turns _ kind (by decide)
    · split
      · next kind => exact onward turns _ kind.1 (by decide)
      · rfl
  | white number digits move =>
    unfold accept
    dsimp only
    split
    · next kind => exact annotate_orderly config move turns _ kind
    · next kind =>
      rw [Orderly, Step.Fits, kind]
      decide
    · next kind =>
      split
      · exact onward turns _ kind (by decide)
      · split
        · rfl
        · exact onward turns _ kind (by decide)
    · next kind => exact onward turns _ kind (by decide)
    · exact acceptAtRest_orderly config _ token
  | renumbered number white same =>
    unfold accept
    dsimp only
    split
    · next kind => exact onward turns _ kind (by decide)
    · split
      · next kind => exact onward turns _ kind.1 (by decide)
      · rfl
  | owed number white told =>
    unfold accept
    dsimp only
    split
    · next kind => exact onward turns _ kind (by cases told <;> decide)
    · rfl
  | black number white move =>
    unfold accept
    dsimp only
    split
    · next kind => exact annotate_orderly config move turns _ kind
    · next kind =>
      rw [Orderly, Step.Fits, kind]
      decide
    · exact acceptAtRest_orderly config _ token

/-- Nothing a variation does with a token is open to a termination marker. -/
theorem Branch.accept_orderly (config : Config) (branch : Branch) (token : Token) :
    Orderly (fun _ => token.kind ≠ .termination) (branch.accept config token) := by
  have line := LineDraft.accept_orderly config branch.line token
  unfold accept
  split
  · next opening =>
    rw [Orderly, opening.2]
    decide
  · split
    · next result =>
      rw [result] at line
      exact line
    · next result =>
      rw [result] at line
      exact line
    · next result =>
      rw [result] at line
      exact line
    · split
      · next closing =>
        split
        · rw [Orderly, closing]
          decide
        · rw [Orderly, closing]
          decide
      · rfl

/-- The movetext is ended by a termination marker, and by nothing else. -/
def MovesDraft.Step.Fits (token : Token) : MovesDraft.Step → Prop
  | .onward _ => token.kind ≠ .termination
  | .ended _ => token.kind = .termination

theorem MovesDraft.accept_orderly (config : Config) (draft : MovesDraft) (token : Token) :
    Orderly (MovesDraft.Step.Fits token) (draft.accept config token) := by
  unfold accept
  split
  · have main := LineDraft.accept_orderly config draft.main token
    split
    · next result =>
      rw [result] at main
      exact main
    · next result =>
      rw [result] at main
      exact main
    · next result =>
      rw [result] at main
      exact main
    · split
      · next marker => exact marker
      · rfl
  · next branch outer _ =>
    have inner := Branch.accept_orderly config branch token
    split
    · next result =>
      rw [result] at inner
      exact inner
    all_goals
      next result =>
        rw [result] at inner
        exact inner

end Steps

namespace Draft

/-- A game is finished by a termination marker that names its outcome, and by nothing else. -/
def Step.Fits (token : Token) : Step → Prop
  | .onward _ => token.kind ≠ .termination
  | .finished game => token.kind = .termination ∧ game.outcome.marker = token.text

theorem finish_orderly (draft : Draft) (line : Line) {marker : Token}
    (kind : marker.kind = .termination) : Orderly (Step.Fits marker) (draft.finish line marker) := by
  unfold finish
  split
  · next outcome found => exact ⟨kind, Outcome.marker_of_ofMarker? found⟩
  · rfl

theorem acceptLeftOut_orderly (draft : Draft) (token : Token) :
    Orderly (Step.Fits token) (draft.acceptLeftOut token) := by
  unfold acceptLeftOut
  split
  · next marker => exact draft.finish_orderly [] marker
  · next inside => exact inside

theorem acceptMoves_orderly (config : Config) (draft : Draft) (moves : MovesDraft)
    (token : Token) : Orderly (Step.Fits token) (draft.acceptMoves config moves token) := by
  have movetext := MovesDraft.accept_orderly config moves token
  unfold acceptMoves
  split
  · next result =>
    rw [result] at movetext
    exact movetext
  · next result =>
    rw [result] at movetext
    exact movetext
  · next line result =>
    rw [result] at movetext
    exact draft.finish_orderly line movetext

theorem acceptOpening_orderly (config : Config) (draft : Draft) (token : Token) :
    Orderly (Step.Fits token) (draft.acceptOpening config token) := by
  unfold acceptOpening
  split
  · exact draft.acceptLeftOut_orderly token
  · exact draft.acceptMoves_orderly config .start token

theorem acceptPreface_orderly (config : Config) (draft : Draft) (token : Token) :
    Orderly (Step.Fits token) (draft.acceptPreface config token) := by
  unfold acceptPreface
  split
  · next header =>
    have inside : token.kind ≠ .termination := by
      rw [header]
      decide
    split
    · exact inside
    · exact inside
  · exact draft.acceptOpening_orderly config token

theorem acceptHeader_orderly (config : Config) (draft : Draft) (phase : HeaderPhase)
    (token : Token) : Orderly (Step.Fits token) (draft.acceptHeader config phase token) := by
  have pairs := HeaderPhase.accept_orderly config phase token
  unfold acceptHeader
  split
  · next result =>
    rw [result] at pairs
    exact pairs
  · next result =>
    rw [result] at pairs
    exact pairs

theorem acceptStage_orderly (config : Config) (draft : Draft) (token : Token) :
    Orderly (Step.Fits token) (draft.acceptStage config token) := by
  unfold acceptStage
  split
  · split
    · exact draft.acceptPreface_orderly config token
    · rfl
  · exact draft.acceptPreface_orderly config token
  · next phase _ =>
    split
    · exact draft.acceptOpening_orderly config token
    · exact draft.acceptHeader_orderly config phase token
  · split
    · next header =>
      intro marker
      rw [marker] at header
      cases header
    · exact draft.acceptOpening_orderly config token
  · exact draft.acceptOpening_orderly config token
  · next moves _ => exact draft.acceptMoves_orderly config moves token
  · exact draft.acceptLeftOut_orderly token

/-- A draft that accepts a token goes on only if the token is no termination marker, and is finished
only by a marker that names the outcome of the game; a refusal can be recovered from. -/
theorem accept_orderly (config : Config) (draft : Draft) (token : Token) :
    Orderly (Step.Fits token) (draft.accept config token) := by
  have inside {kind : TokenKind} (told : token.kind = kind) (other : kind ≠ .termination) :
      token.kind ≠ .termination := by
    rwa [told]
  unfold accept
  split
  · split
    · next comment => exact inside comment.1 (by decide)
    · split
      · next comment => exact inside comment.1 (by decide)
      · exact draft.acceptStage_orderly config token
  · split
    · next closing => exact inside closing (by decide)
    · split
      · next text => exact inside text (by decide)
      · rfl
  · split
    · next closing => exact inside closing (by decide)
    · rfl

end Draft

/-! ### Rows of tokens -/

/-- What a row of tokens makes of a draft. -/
inductive Verdict where
  | unfinished (draft : Draft)
  | refused (error : ReadError)
  | finished (game : Game)

namespace Draft

/-- What a row of tokens makes of a draft. Nothing is read behind a refusal or the end of a game. -/
def judge (config : Config) (draft : Draft) : List Token → Verdict
  | [] => .unfinished draft
  | token :: rest =>
    match draft.accept config token with
    | .error error => .refused error
    | .ok (.finished game) => .finished game
    | .ok (.onward draft) => draft.judge config rest

variable {config : Config} {draft later : Draft} {token : Token} {tokens rest : List Token}

theorem judge_cons_of_error {error : ReadError} (refused : draft.accept config token = .error error) :
    draft.judge config (token :: rest) = .refused error := by
  rw [judge, refused]

theorem judge_cons_of_onward (onward : draft.accept config token = .ok (.onward later)) :
    draft.judge config (token :: rest) = later.judge config rest := by
  rw [judge, onward]

theorem judge_cons_of_finished {game : Game}
    (finished : draft.accept config token = .ok (.finished game)) :
    draft.judge config (token :: rest) = .finished game := by
  rw [judge, finished]

theorem judge_append_of_unfinished (unfinished : draft.judge config tokens = .unfinished later) :
    draft.judge config (tokens ++ rest) = later.judge config rest := by
  induction tokens generalizing draft with
  | nil =>
    cases unfinished
    rfl
  | cons token tokens inductionHypothesis =>
    rw [judge] at unfinished
    split at unfinished
    · cases unfinished
    · cases unfinished
    · next onward =>
      rw [List.cons_append, judge_cons_of_onward onward]
      exact inductionHypothesis unfinished

/-- Behind a refusal nothing is read. -/
theorem judge_append_of_refused {error : ReadError}
    (refused : draft.judge config tokens = .refused error) :
    draft.judge config (tokens ++ rest) = .refused error := by
  induction tokens generalizing draft with
  | nil => cases refused
  | cons token tokens inductionHypothesis =>
    rw [judge] at refused
    split at refused
    · next stops =>
      cases refused
      exact judge_cons_of_error stops
    · cases refused
    · next onward =>
      rw [List.cons_append, judge_cons_of_onward onward]
      exact inductionHypothesis refused

/-- No row of tokens leaves a draft unfinished behind a termination marker. -/
theorem not_termination_of_unfinished (unfinished : draft.judge config tokens = .unfinished later) :
    ∀ token ∈ tokens, token.kind ≠ .termination := by
  induction tokens generalizing draft with
  | nil =>
    intro token member
    cases member
  | cons first tokens inductionHypothesis =>
    have orderly := accept_orderly config draft first
    rw [judge] at unfinished
    split at unfinished
    · cases unfinished
    · cases unfinished
    · next onward =>
      rw [onward] at orderly
      intro token member
      rcases List.mem_cons.mp member with rfl | among
      · exact orderly
      · exact inductionHypothesis unfinished token among

/-- The refusal of a row of tokens can be recovered from. -/
theorem recoverable_of_refused {error : ReadError}
    (refused : draft.judge config tokens = .refused error) : error.isFatal = false := by
  induction tokens generalizing draft with
  | nil => cases refused
  | cons first tokens inductionHypothesis =>
    have orderly := accept_orderly config draft first
    rw [judge] at refused
    split at refused
    · next failed =>
      cases refused
      rw [failed] at orderly
      exact orderly
    · cases refused
    · exact inductionHypothesis refused

/-- The game a row of tokens finishes has the outcome that a termination marker among them names. -/
theorem marker_of_finished {game : Game} (finished : draft.judge config tokens = .finished game) :
    ∃ marker ∈ tokens, marker.kind = .termination ∧ game.outcome.marker = marker.text := by
  induction tokens generalizing draft with
  | nil => cases finished
  | cons first tokens inductionHypothesis =>
    have orderly := accept_orderly config draft first
    rw [judge] at finished
    split at finished
    · cases finished
    · next ended =>
      cases finished
      rw [ended] at orderly
      exact ⟨first, List.mem_cons_self, orderly⟩
    · obtain ⟨marker, among, named⟩ := inductionHypothesis finished
      exact ⟨marker, List.mem_cons_of_mem first among, named⟩

end Draft

end Scoresheet
