/-
This file shows that where a game stands in a text is told by its errors and by nothing else. Tokens
may be relocated in any way, even all to one position: their games are the same, and an error is
relocated like the token it complains about. A text that follows another one is moved on by so many
bytes and lines, and its places and tokens are moved along.
-/

import Scoresheet.Proofs.Verdicts

namespace Scoresheet

/-- How far a text is moved on. -/
structure Shift where
  bytes : Nat
  lines : Nat

/-! ### Places -/

def Position.shift (shift : Shift) (position : Position) : Position :=
  ⟨position.line + shift.lines, position.column, position.offset + shift.bytes⟩

namespace Place

def shift (shift : Shift) (place : Place) : Place :=
  ⟨place.offset + shift.bytes, place.line + shift.lines, place.lineStart + shift.bytes⟩

variable {shift : Shift}

/-- Columns are counted from the beginning of their line. -/
theorem position_shift (place : Place) :
    (place.shift shift).position = place.position.shift shift :=
  congrArg (Position.mk _ · _) (Nat.add_sub_add_right _ _ _)

theorem next_shift (place : Place) (byte : UInt8) :
    (place.shift shift).next byte = (place.next byte).shift shift := by
  unfold next
  split
  · simp only [Place.shift, Nat.add_right_comm]
  · simp only [Place.shift, Nat.add_right_comm]

theorem pass_shift (place : Place) (text : Bytes) :
    (place.shift shift).pass text = (place.pass text).shift shift := by
  induction text generalizing place with
  | nil => rfl
  | cons byte rest inductionHypothesis =>
    show ((place.shift shift).next byte).pass rest = _
    rw [next_shift, inductionHypothesis]
    rfl

theorem atLineStart_shift (place : Place) :
    (place.shift shift).atLineStart = place.atLineStart := by
  rw [Bool.eq_iff_iff]
  simp [atLineStart, Place.shift]

end Place

/-! ### Tokens, errors and verdicts -/

def Token.shift (shift : Shift) (token : Token) : Token :=
  { token with position := token.position.shift shift }

def ReadError.shift (shift : Shift) : ReadError → ReadError
  | unexpectedToken found expected position =>
    .unexpectedToken found expected (position.shift shift)
  | unexpectedEnd expected position => .unexpectedEnd expected (position.shift shift)
  | invalidNag text position => .invalidNag text (position.shift shift)
  | invalidOutcome text position => .invalidOutcome text (position.shift shift)
  | sourceFailed failure => .sourceFailed failure

/-- A refusal is moved along, and a game is the same. -/
def Verdict.shift (shift : Shift) : Verdict → Verdict
  | unfinished draft => .unfinished draft
  | refused error => .refused (error.shift shift)
  | finished game => .finished game

/-- The token with another position. -/
def Token.relocate (moved : Position → Position) (token : Token) : Token :=
  { token with position := moved token.position }

def ReadError.relocate (moved : Position → Position) : ReadError → ReadError
  | unexpectedToken found expected position => .unexpectedToken found expected (moved position)
  | unexpectedEnd expected position => .unexpectedEnd expected (moved position)
  | invalidNag text position => .invalidNag text (moved position)
  | invalidOutcome text position => .invalidOutcome text (moved position)
  | sourceFailed failure => .sourceFailed failure

def Verdict.relocate (moved : Position → Position) : Verdict → Verdict
  | unfinished draft => .unfinished draft
  | refused error => .refused (error.relocate moved)
  | finished game => .finished game

theorem Verdict.relocate_shift (shift : Shift) (verdict : Verdict) :
    verdict.relocate (Position.shift shift) = verdict.shift shift := by
  cases verdict with
  | unfinished draft => rfl
  | refused error => cases error <;> rfl
  | finished game => rfl

section Accept

variable {moved : Position → Position}

theorem HeaderPhase.accept_relocate (config : Config) (phase : HeaderPhase) (token : Token) :
    phase.accept config (token.relocate moved) =
      (phase.accept config token).mapError (ReadError.relocate moved) := by
  obtain ⟨kind, text, position⟩ := token
  unfold accept Token.relocate
  dsimp only
  repeat' split
  all_goals rfl

theorem MoveDraft.annotate_relocate (config : Config) (token : Token) (draft : MoveDraft) :
    draft.annotate config (token.relocate moved) =
      (draft.annotate config token).mapError (ReadError.relocate moved) := by
  unfold annotate Token.relocate
  dsimp only
  repeat' split
  all_goals rfl

theorem LineDraft.acceptAtRest_relocate (config : Config) (turns : List Turn) (token : Token) :
    acceptAtRest config turns (token.relocate moved) =
      (acceptAtRest config turns token).mapError (ReadError.relocate moved) := by
  unfold acceptAtRest Token.relocate
  dsimp only
  repeat' split
  all_goals rfl

theorem LineDraft.annotate_relocate (config : Config) (move : MoveDraft) (token : Token)
    (next : MoveDraft → Except ReadError LineDraft.Step)
    (fine : ∀ move, (next move).mapError (ReadError.relocate moved) = next move) :
    (move.annotate config (token.relocate moved)).bind next =
      ((move.annotate config token).bind next).mapError (ReadError.relocate moved) := by
  rw [MoveDraft.annotate_relocate]
  cases move.annotate config token with
  | error error => rfl
  | ok move => exact (fine move).symm

theorem LineDraft.accept_relocate (config : Config) (draft : LineDraft) (token : Token) :
    draft.accept config (token.relocate moved) =
      (draft.accept config token).mapError (ReadError.relocate moved) := by
  obtain ⟨turns, phase⟩ := draft
  obtain ⟨kind, text, position⟩ := token
  unfold accept
  cases phase with
  | rest => exact acceptAtRest_relocate config turns _
  | numbered number digits => cases kind <;> rfl
  | dotted number digits =>
    simp only [apply_ite (Except.mapError _)]
    rfl
  | white number digits move =>
    dsimp only [Token.relocate]
    split
    · exact annotate_relocate config move ⟨_, text, position⟩ _ fun _ => rfl
    · rfl
    · simp only [apply_ite (Except.mapError _)]
      rfl
    · rfl
    · exact acceptAtRest_relocate config _ ⟨kind, text, position⟩
  | renumbered number white same =>
    simp only [apply_ite (Except.mapError _)]
    rfl
  | owed number white told =>
    simp only [apply_ite (Except.mapError _)]
    rfl
  | black number white move =>
    dsimp only [Token.relocate]
    split
    · exact annotate_relocate config move ⟨_, text, position⟩ _ fun _ => rfl
    · rfl
    · exact acceptAtRest_relocate config _ ⟨kind, text, position⟩

theorem Branch.accept_relocate (config : Config) (branch : Branch) (token : Token) :
    branch.accept config (token.relocate moved) =
      (branch.accept config token).mapError (ReadError.relocate moved) := by
  unfold accept
  rw [LineDraft.accept_relocate]
  show (if branch.lead = .parens ∧ token.kind = .variationBegin then _ else _) = _
  split
  · rfl
  · cases branch.line.accept config token with
    | error error => rfl
    | ok step =>
      cases step with
      | onward line => rfl
      | branch => rfl
      | ended turns =>
        show (if token.kind = .variationEnd then _ else _) = Except.mapError _ (if _ then _ else _)
        split
        · split <;> rfl
        · rfl

theorem MovesDraft.accept_relocate (config : Config) (draft : MovesDraft) (token : Token) :
    draft.accept config (token.relocate moved) =
      (draft.accept config token).mapError (ReadError.relocate moved) := by
  obtain ⟨main, branches⟩ := draft
  unfold accept
  cases branches with
  | nil =>
    dsimp only
    rw [LineDraft.accept_relocate]
    cases main.accept config token with
    | error error => rfl
    | ok step =>
      cases step with
      | onward line => rfl
      | branch => rfl
      | ended turns =>
        show (if token.kind = .termination then _ else _) = Except.mapError _ (if _ then _ else _)
        split <;> rfl
  | cons branch outer =>
    dsimp only
    rw [Branch.accept_relocate]
    cases branch.accept config token with
    | error error => rfl
    | ok step => cases step <;> rfl

namespace Draft

theorem finish_relocate (draft : Draft) (line : Line) (marker : Token) :
    draft.finish line (marker.relocate moved) =
      (draft.finish line marker).mapError (ReadError.relocate moved) := by
  unfold finish Token.relocate
  dsimp only
  split <;> rfl

theorem acceptLeftOut_relocate (draft : Draft) (token : Token) :
    draft.acceptLeftOut (token.relocate moved) =
      (draft.acceptLeftOut token).mapError (ReadError.relocate moved) := by
  unfold acceptLeftOut
  rw [finish_relocate]
  show (if token.kind = .termination then _ else _) = _
  split <;> rfl

theorem acceptMoves_relocate (config : Config) (draft : Draft) (moves : MovesDraft) (token : Token) :
    draft.acceptMoves config moves (token.relocate moved) =
      (draft.acceptMoves config moves token).mapError (ReadError.relocate moved) := by
  unfold acceptMoves
  rw [MovesDraft.accept_relocate]
  cases moves.accept config token with
  | error error => rfl
  | ok step =>
    cases step with
    | onward moves => rfl
    | ended line => exact draft.finish_relocate line token

theorem acceptOpening_relocate (config : Config) (draft : Draft) (token : Token) :
    draft.acceptOpening config (token.relocate moved) =
      (draft.acceptOpening config token).mapError (ReadError.relocate moved) := by
  unfold acceptOpening
  rw [acceptLeftOut_relocate, acceptMoves_relocate]
  split <;> rfl

theorem acceptPreface_relocate (config : Config) (draft : Draft) (token : Token) :
    draft.acceptPreface config (token.relocate moved) =
      (draft.acceptPreface config token).mapError (ReadError.relocate moved) := by
  unfold acceptPreface
  rw [acceptOpening_relocate]
  show (if token.kind = .headerBegin then _ else _) = _
  repeat' split
  all_goals rfl

theorem acceptHeader_relocate (config : Config) (draft : Draft) (phase : HeaderPhase) (token : Token) :
    draft.acceptHeader config phase (token.relocate moved) =
      (draft.acceptHeader config phase token).mapError (ReadError.relocate moved) := by
  have recorded : phase.recorded? (token.relocate moved) = phase.recorded? token := by
    cases phase <;> rfl
  unfold acceptHeader
  rw [HeaderPhase.accept_relocate, recorded]
  cases phase.accept config token <;> rfl

theorem acceptStage_relocate (config : Config) (draft : Draft) (token : Token) :
    draft.acceptStage config (token.relocate moved) =
      (draft.acceptStage config token).mapError (ReadError.relocate moved) := by
  unfold acceptStage
  cases draft.stage with
  | start =>
    simp only [acceptPreface_relocate, apply_ite (Except.mapError _)]
    rfl
  | preface => exact draft.acceptPreface_relocate config token
  | header phase =>
    simp only [acceptOpening_relocate, acceptHeader_relocate, apply_ite (Except.mapError _)]
    rfl
  | headersLeftOut =>
    simp only [acceptOpening_relocate, apply_ite (Except.mapError _)]
    rfl
  | opening => exact draft.acceptOpening_relocate config token
  | moves moves => exact draft.acceptMoves_relocate config moves token
  | movesLeftOut => exact draft.acceptLeftOut_relocate token

theorem accept_relocate (config : Config) (draft : Draft) (token : Token) :
    draft.accept config (token.relocate moved) =
      (draft.accept config token).mapError (ReadError.relocate moved) := by
  unfold accept
  cases draft.commentPhase with
  | idle =>
    simp only [acceptStage_relocate, apply_ite (Except.mapError _)]
    rfl
  | opened =>
    simp only [apply_ite (Except.mapError _)]
    rfl
  | filled text =>
    simp only [apply_ite (Except.mapError _)]
    rfl

end Draft

/-- Tokens are judged alike wherever they stand. -/
theorem Draft.judge_relocate (config : Config) (draft : Draft) (tokens : List Token) :
    draft.judge config (tokens.map (Token.relocate moved)) =
      (draft.judge config tokens).relocate moved := by
  induction tokens generalizing draft with
  | nil => rfl
  | cons token rest inductionHypothesis =>
    rw [List.map_cons]
    unfold judge
    rw [accept_relocate]
    cases draft.accept config token with
    | error error => rfl
    | ok step =>
      cases step with
      | onward next => exact inductionHypothesis next
      | finished game => rfl

end Accept

/-- Tokens that are moved on are judged as before. -/
theorem Draft.judge_shift (config : Config) (draft : Draft) (tokens : List Token) {shift : Shift} :
    draft.judge config (tokens.map (Token.shift shift)) =
      (draft.judge config tokens).shift shift :=
  (draft.judge_relocate config tokens).trans (Verdict.relocate_shift shift _)

/-! ### Tokens that are written alike -/

/-- A token without the place where it stands. -/
abbrev Lexeme := TokenKind × Bytes

def Token.lexeme (token : Token) : Lexeme := (token.kind, token.text)

/-- The lexeme as a token, wherever it stands. -/
def Lexeme.token (lexeme : Lexeme) : Token := ⟨lexeme.1, lexeme.2, Place.start.position⟩

end Scoresheet
