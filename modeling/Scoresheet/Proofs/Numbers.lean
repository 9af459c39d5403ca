/-
This file follows the move numbers of a game. A number is read from the digits of a token and goes
into the turn that begins there, whether that is a turn of the main line or of a variation inside a
variation. So what is known of every number that was read is known of every number of the game.
-/

import Scoresheet.Draft

namespace Scoresheet

/-! ### The numbers of a game -/

mutual

def Move.numbers : Move → List UInt32
  | ⟨_, none⟩ => []
  | ⟨_, some ⟨_, _, variations⟩⟩ => variationNumbers variations

def Turn.numbers : Turn → List UInt32
  | .whiteOnly number white => number :: white.numbers
  | .blackOnly number black => number :: black.numbers
  | .both number white black => number :: (white.numbers ++ black.numbers)

def lineNumbers : List Turn → List UInt32
  | [] => []
  | turn :: rest => turn.numbers ++ lineNumbers rest

def variationNumbers : List (List Turn) → List UInt32
  | [] => []
  | line :: rest => lineNumbers line ++ variationNumbers rest

end

/-- The numbers of all turns of a game, those in variations included. -/
def Game.numbers (game : Game) : List UInt32 := lineNumbers game.moves

theorem mem_lineNumbers {number : UInt32} {line : Line} :
    number ∈ lineNumbers line ↔ ∃ turn ∈ line, number ∈ turn.numbers := by
  induction line with
  | nil => simp [lineNumbers]
  | cons turn rest inductionHypothesis => simp [lineNumbers, inductionHypothesis]

theorem mem_variationNumbers {number : UInt32} {variations : List Line} :
    number ∈ variationNumbers variations ↔ ∃ line ∈ variations, number ∈ lineNumbers line := by
  induction variations with
  | nil => simp [variationNumbers]
  | cons line rest inductionHypothesis => simp [variationNumbers, inductionHypothesis]

theorem Move.mem_numbers {number : UInt32} {move : Move} :
    number ∈ move.numbers ↔ ∃ line ∈ move.variations, number ∈ lineNumbers line := by
  match move with
  | ⟨_, none⟩ => simp [numbers, variations]
  | ⟨_, some ⟨_, _, _⟩⟩ => exact mem_variationNumbers

/-- Comments have no numbers in them. -/
theorem Move.numbers_prependComment (comment : Bytes) (move : Move) :
    (move.prependComment comment).numbers = move.numbers := by
  match move with
  | ⟨_, none⟩ => rfl
  | ⟨_, some ⟨_, _, _⟩⟩ => rfl

theorem lineNumbers_prependComment (comment : Bytes) (line : Line) :
    lineNumbers (line.prependComment comment) = lineNumbers line := by
  cases line with
  | nil => rfl
  | cons turn rest =>
    refine congrArg (· ++ lineNumbers rest) ?_
    cases turn <;> simp only [Turn.mapFirst, Turn.numbers, Move.numbers_prependComment]

/-! ### Games under way -/

section HasOnly

variable (given : UInt32 → Prop)

/-- All numbers of the line are given. -/
def Line.HasOnly (line : Line) : Prop := ∀ number ∈ lineNumbers line, given number

def Move.HasOnly (move : Move) : Prop := ∀ number ∈ move.numbers, given number

def MoveDraft.HasOnly (draft : MoveDraft) : Prop :=
  ∀ line ∈ draft.variations, Line.HasOnly given line

def TurnPhase.HasOnly : TurnPhase → Prop
  | .rest => True
  | .numbered number _ => given number
  | .dotted number _ => given number
  | .white number _ move => given number ∧ move.HasOnly given
  | .renumbered number first _ => given number ∧ first.HasOnly given
  | .owed number first _ => given number ∧ ∀ move ∈ first, move.HasOnly given
  | .black number first move =>
    given number ∧ (∀ move ∈ first, move.HasOnly given) ∧ move.HasOnly given

structure LineDraft.HasOnly (draft : LineDraft) : Prop where
  turns : Line.HasOnly given draft.turns
  phase : draft.phase.HasOnly given

structure MovesDraft.HasOnly (draft : MovesDraft) : Prop where
  main : draft.main.HasOnly given
  branches : ∀ branch ∈ draft.branches, branch.line.HasOnly given

def Draft.HasOnly (draft : Draft) : Prop :=
  match draft.stage with
  | .moves moves => moves.HasOnly given
  | _ => True

end HasOnly

variable {given : UInt32 → Prop} {config : Config} {line : Line}

theorem Line.hasOnly_nil : Line.HasOnly given [] := fun _ member => nomatch member

theorem Line.hasOnly_cons {turn : Turn} :
    Line.HasOnly given (turn :: line) ↔
      (∀ number ∈ turn.numbers, given number) ∧ Line.HasOnly given line :=
  List.forall_mem_append

theorem Line.HasOnly.reverse (only : Line.HasOnly given line) :
    Line.HasOnly given line.reverse := by
  intro number member
  obtain ⟨turn, inside, among⟩ := mem_lineNumbers.mp member
  exact only number (mem_lineNumbers.mpr ⟨turn, List.mem_reverse.mp inside, among⟩)

theorem MoveDraft.hasOnly_start (config : Config) (text : Bytes) :
    (MoveDraft.start config text).HasOnly given := by
  intro line member
  unfold MoveDraft.start at member
  split at member <;> cases member

theorem MoveDraft.HasOnly.addComment {move : MoveDraft} (only : move.HasOnly given)
    (text : Bytes) : (move.addComment config text).HasOnly given := only

theorem MoveDraft.HasOnly.addVariation {move : MoveDraft} (only : move.HasOnly given)
    (inner : Line.HasOnly given line) : (move.addVariation config line).HasOnly given := by
  unfold MoveDraft.addVariation
  split
  · exact only
  · exact List.forall_mem_cons.mpr ⟨inner, only⟩

theorem MoveDraft.HasOnly.addNag {move : MoveDraft} (only : move.HasOnly given) (nag : Nag) :
    (move.addNag config nag).HasOnly given := by
  unfold MoveDraft.addNag
  split <;> exact only

theorem MoveDraft.HasOnly.finish {move : MoveDraft} (only : move.HasOnly given) :
    (move.finish config).HasOnly given := by
  intro number member
  obtain ⟨line, inside, among⟩ := Move.mem_numbers.mp member
  rw [MoveDraft.variations_finish] at inside
  exact only line (List.mem_reverse.mp inside) number among

/-- The turn of a move of black has the number it began with. -/
theorem LineDraft.hasOnly_blackTurn {number : UInt32} {white : Option Move} {black : Move}
    (own : given number) (first : ∀ move ∈ white, move.HasOnly given)
    (second : black.HasOnly given) :
    ∀ other ∈ (blackTurn number white black).numbers, given other := by
  cases white with
  | none => exact List.forall_mem_cons.mpr ⟨own, second⟩
  | some white =>
    exact List.forall_mem_cons.mpr ⟨own, List.forall_mem_append.mpr ⟨first white rfl, second⟩⟩

/-- A change to the last move that brings no new numbers. -/
theorem LineDraft.HasOnly.mapMove {draft : LineDraft} (only : draft.HasOnly given)
    {change : MoveDraft → MoveDraft}
    (kept : ∀ move : MoveDraft, move.HasOnly given → (change move).HasOnly given) :
    (draft.mapMove change).HasOnly given := by
  obtain ⟨turns, phase⟩ := draft
  obtain ⟨early, last⟩ := only
  cases phase with
  | white number digits move => exact ⟨early, last.1, kept _ last.2⟩
  | black number white move => exact ⟨early, last.1, last.2.1, kept _ last.2.2⟩
  | _ => exact ⟨early, last⟩

theorem Branch.hasOnly_finish {branch : Branch} {turns : List Turn}
    (only : Line.HasOnly given turns) : Line.HasOnly given (branch.finish turns) := by
  unfold Branch.finish
  split
  · exact only.reverse
  · intro number member
    rw [lineNumbers_prependComment] at member
    exact only.reverse number member

theorem MovesDraft.hasOnly_start : MovesDraft.start.HasOnly given :=
  ⟨⟨Line.hasOnly_nil, trivial⟩, nofun⟩

theorem MovesDraft.HasOnly.addComment {draft : MovesDraft} (only : draft.HasOnly given)
    (text : Bytes) : (draft.addComment config text).HasOnly given := by
  obtain ⟨main, branches⟩ := draft
  obtain ⟨outer, inner⟩ := only
  cases branches with
  | nil => exact ⟨outer.mapMove fun _ kept => kept.addComment text, nofun⟩
  | cons branch others =>
    obtain ⟨first, rest⟩ := List.forall_mem_cons.mp inner
    refine ⟨outer, List.forall_mem_cons.mpr ⟨?_, rest⟩⟩
    unfold Branch.addComment
    split
    · exact first.mapMove fun _ kept => kept.addComment text
    · exact first

theorem MovesDraft.HasOnly.addVariation {draft : MovesDraft} (only : draft.HasOnly given)
    (variation : Line.HasOnly given line) : (draft.addVariation config line).HasOnly given := by
  obtain ⟨main, branches⟩ := draft
  obtain ⟨outer, inner⟩ := only
  cases branches with
  | nil => exact ⟨outer.mapMove fun _ kept => kept.addVariation variation, nofun⟩
  | cons branch others =>
    obtain ⟨first, rest⟩ := List.forall_mem_cons.mp inner
    exact ⟨outer, List.forall_mem_cons.mpr
      ⟨first.mapMove fun _ kept => kept.addVariation variation, rest⟩⟩

theorem Draft.HasOnly.addComment {draft : Draft} (only : draft.HasOnly given) (text : Bytes) :
    (draft.addComment config text).HasOnly given := by
  obtain ⟨headers, comment, phase, stage⟩ := draft
  cases stage with
  | moves moves =>
    have kept : moves.HasOnly given := only
    exact kept.addComment text
  | _ => trivial

end Scoresheet
