/-
This file says what a draft complains about. A token is refused because its kind is none of those
that could follow, because it is a move number whose text is no number or is zero where zero is not
tolerated, because it is an annotation that means nothing, or because it is a termination marker
that names no outcome. There is no other complaint, so a lexer that never tells such numbers and
markers never causes those complaints.

Along with the complaints the numbers are followed: a token brings at most the number it writes.
-/

import Scoresheet.Proofs.Gathering
import Scoresheet.Proofs.Numbers

namespace Scoresheet

/-- What can be wrong with a token that is refused. -/
inductive ReadError.IsAbout (config : Config) (token : Token) : ReadError → Prop where
  | kind {expected : List TokenKind} (other : token.kind ∉ expected) :
      IsAbout config token (token.unexpected expected)
  | number (kind : token.kind = .moveNumber)
      (refused : Bytes.number? LineDraft.largestNumber token.text = none ∨
        config.strict = true ∧ Bytes.number? LineDraft.largestNumber token.text = some 0) :
      IsAbout config token (token.unexpected [.moveNumber])
  | nag : IsAbout config token (.invalidNag token.text token.position)
  | outcome (kind : token.kind = .termination) (unknown : Outcome.ofMarker? token.text = none) :
      IsAbout config token (.invalidOutcome token.text token.position)

/-- Where a single kind could follow. -/
theorem ReadError.IsAbout.of_kind_ne {config : Config} {token : Token} {kind : TokenKind}
    (other : token.kind ≠ kind) : IsAbout config token (token.unexpected [kind]) :=
  .kind fun member => other (List.mem_singleton.mp member)

/-- The result is a complaint about the token, or a step with the given property. -/
def Sound {Step : Type} (config : Config) (token : Token) (property : Step → Prop) :
    Except ReadError Step → Prop
  | .error error => error.IsAbout config token
  | .ok step => property step

section Steps

variable {config : Config} {token : Token} {given : UInt32 → Prop}

theorem HeaderPhase.accept_sound (phase : HeaderPhase) :
    Sound config token (fun _ => True) (phase.accept config token) := by
  unfold HeaderPhase.accept
  split
  case h_3 kind =>
    split
    · exact .of_kind_ne (by rw [kind]; decide)
    · trivial
  case h_11 reached _ _ _ _ _ _ _ _ _ _ _ _ =>
    -- Each phase takes the kinds it names, but for a quote that strictness refuses.
    refine .kind fun member => ?_
    cases reached <;> simp_all [HeaderPhase.expected]
  all_goals trivial

/-! ### Lines -/

/-- All numbers of what becomes of a line are given, and no move number ends it. -/
def LineDraft.Step.HasOnly (given : UInt32 → Prop) (token : Token) : LineDraft.Step → Prop
  | .onward draft => draft.HasOnly given
  | .branch => True
  | .ended turns => token.kind ≠ .moveNumber ∧ Line.HasOnly given turns

theorem LineDraft.acceptAtRest_sound {turns : List Turn}
    (counted : token.kind = .moveNumber → given (Grammar.number token.text))
    (only : Line.HasOnly given turns) :
    Sound config token (LineDraft.Step.HasOnly given token) (acceptAtRest config turns token) := by
  unfold acceptAtRest
  split
  · next kind =>
    split
    · next none => exact .number kind (.inl none)
    · next number some =>
      split
      · next zero => exact .number kind (.inr ⟨zero.1, zero.2 ▸ some⟩)
      · refine ⟨only, ?_⟩
        have same : number = Bytes.boundedNumber largestNumber token.text := by
          unfold Bytes.number? at some
          split at some
          · exact (Option.some.inj some).symm
          · cases some
        rw [same, Grammar.ofNat_boundedNumber]
        exact counted kind
  · next other => exact ⟨other, only⟩

theorem MoveDraft.annotate_sound {move : MoveDraft} (only : move.HasOnly given) :
    Sound config token (·.HasOnly given) (move.annotate config token) := by
  unfold annotate
  split
  · split
    · exact only.addNag _
    · split
      · exact only.addNag _
      · exact .nag
  · exact only

/-- An annotation goes on with the move it belongs to. -/
theorem LineDraft.annotate_sound {move : MoveDraft} {turns : List Turn}
    {phase : MoveDraft → TurnPhase} (early : Line.HasOnly given turns)
    (onward : ∀ move : MoveDraft, move.HasOnly given → (phase move).HasOnly given)
    (only : move.HasOnly given) :
    Sound config token (LineDraft.Step.HasOnly given token)
      ((move.annotate config token).bind fun move => .ok (.onward ⟨turns, phase move⟩)) := by
  have annotated := @MoveDraft.annotate_sound config token given move only
  cases result : move.annotate config token with
  | error error =>
    rw [result] at annotated
    exact annotated
  | ok move =>
    rw [result] at annotated
    exact ⟨early, onward move annotated⟩

theorem LineDraft.accept_sound {draft : LineDraft}
    (counted : token.kind = .moveNumber → given (Grammar.number token.text))
    (only : draft.HasOnly given) :
    Sound config token (LineDraft.Step.HasOnly given token) (draft.accept config token) := by
  obtain ⟨turns, phase⟩ := draft
  obtain ⟨early, last⟩ := only
  cases phase with
  | rest => exact acceptAtRest_sound counted early
  | numbered number digits =>
    unfold accept
    dsimp only
    split
    · exact ⟨early, last⟩
    · exact ⟨early, last, nofun⟩
    · next noDot noEllipsis =>
      exact .kind (by simpa [LineDraft.expected] using ⟨noDot, noEllipsis⟩)
  | dotted number digits =>
    unfold accept
    dsimp only
    split
    · exact ⟨early, last, MoveDraft.hasOnly_start config token.text⟩
    · next noMove =>
      split
      · exact ⟨early, last, nofun⟩
      · exact .of_kind_ne noMove
  | white number digits move =>
    obtain ⟨own, moved⟩ := last
    unfold accept
    dsimp only
    split
    · exact annotate_sound early (fun _ kept => ⟨own, kept⟩) moved
    · trivial
    · next kind =>
      split
      · exact ⟨early, own, moved.finish⟩
      · split
        · exact .of_kind_ne (by rw [kind]; decide)
        · exact ⟨early, own, moved.finish⟩
    · refine ⟨early, own, ?_, MoveDraft.hasOnly_start config token.text⟩
      rintro _ ⟨⟩
      exact moved.finish
    · exact acceptAtRest_sound counted
        (Line.hasOnly_cons.mpr ⟨List.forall_mem_cons.mpr ⟨own, moved.finish⟩, early⟩)
  | renumbered number first same =>
    obtain ⟨own, moved⟩ := last
    have kept : ∀ move ∈ some first, move.HasOnly given := by
      rintro _ ⟨⟩
      exact moved
    unfold accept
    dsimp only
    split
    · exact ⟨early, own, kept⟩
    · next noEllipsis =>
      split
      · exact ⟨early, own, kept⟩
      · exact .of_kind_ne noEllipsis
  | owed number first told =>
    obtain ⟨own, moved⟩ := last
    unfold accept
    dsimp only
    split
    · exact ⟨early, own, moved, MoveDraft.hasOnly_start config token.text⟩
    · next noMove => exact .of_kind_ne noMove
  | black number first move =>
    obtain ⟨own, moved, answered⟩ := last
    unfold accept
    dsimp only
    split
    · exact annotate_sound early (fun _ kept => ⟨own, moved, kept⟩) answered
    · trivial
    · exact acceptAtRest_sound counted
        (Line.hasOnly_cons.mpr ⟨hasOnly_blackTurn own moved answered.finish, early⟩)

/-! ### The movetext -/

def Branch.Step.HasOnly (given : UInt32 → Prop) : Branch.Step → Prop
  | .onward variation => variation.line.HasOnly given
  | .branch => True
  | .closed line => Line.HasOnly given line

theorem Branch.accept_sound {branch : Branch}
    (counted : token.kind = .moveNumber → given (Grammar.number token.text))
    (only : branch.line.HasOnly given) :
    Sound config token (Branch.Step.HasOnly given) (branch.accept config token) := by
  have line := @LineDraft.accept_sound config token given branch.line counted only
  unfold accept
  split
  · exact only
  · split
    · next result =>
      rw [result] at line
      exact line
    · next result =>
      rw [result] at line
      exact line
    · trivial
    · next result =>
      rw [result] at line
      obtain ⟨noNumber, turns⟩ := line
      split
      · split
        · exact Branch.hasOnly_finish turns
        · exact ⟨turns, trivial⟩
      · exact .of_kind_ne noNumber

def MovesDraft.Step.HasOnly (given : UInt32 → Prop) (token : Token) : MovesDraft.Step → Prop
  | .onward draft => draft.HasOnly given
  | .ended line => token.kind = .termination ∧ Line.HasOnly given line

theorem MovesDraft.accept_sound {draft : MovesDraft}
    (counted : token.kind = .moveNumber → given (Grammar.number token.text))
    (only : draft.HasOnly given) :
    Sound config token (MovesDraft.Step.HasOnly given token) (draft.accept config token) := by
  obtain ⟨main, branches⟩ := draft
  obtain ⟨outer, inner⟩ := only
  have begun : Branch.start.line.HasOnly given := ⟨Line.hasOnly_nil, trivial⟩
  cases branches with
  | nil =>
    have line := @LineDraft.accept_sound config token given main counted outer
    unfold accept
    dsimp only
    split
    · next result =>
      rw [result] at line
      exact line
    · next result =>
      rw [result] at line
      exact ⟨line, nofun⟩
    · exact ⟨outer, List.forall_mem_singleton.mpr begun⟩
    · next result =>
      rw [result] at line
      obtain ⟨noNumber, turns⟩ := line
      split
      · next marker => exact ⟨marker, turns.reverse⟩
      · exact .of_kind_ne noNumber
  | cons branch others =>
    obtain ⟨first, rest⟩ := List.forall_mem_cons.mp inner
    have innermost := @Branch.accept_sound config token given branch counted first
    unfold accept
    dsimp only
    split
    · next result =>
      rw [result] at innermost
      exact innermost
    · next result =>
      rw [result] at innermost
      exact ⟨outer, List.forall_mem_cons.mpr ⟨innermost, rest⟩⟩
    · exact ⟨outer, List.forall_mem_cons.mpr ⟨begun, inner⟩⟩
    · next result =>
      rw [result] at innermost
      have below : MovesDraft.HasOnly given ⟨main, others⟩ := ⟨outer, rest⟩
      exact below.addVariation innermost

end Steps

/-! ### Games -/

namespace Draft

variable {config : Config} {token : Token} {given : UInt32 → Prop} {draft : Draft}

def Step.HasOnly (given : UInt32 → Prop) : Step → Prop
  | .onward draft => draft.HasOnly given
  | .finished game => ∀ number ∈ game.numbers, given number

theorem finish_sound {line : Line} (kind : token.kind = .termination)
    (only : Line.HasOnly given line) :
    Sound config token (Step.HasOnly given) (draft.finish line token) := by
  unfold finish
  split
  · exact only
  · next unknown => exact .outcome kind unknown

theorem acceptLeftOut_sound :
    Sound config token (Step.HasOnly given) (draft.acceptLeftOut token) := by
  unfold acceptLeftOut
  split
  · next marker => exact finish_sound marker Line.hasOnly_nil
  · trivial

theorem acceptMoves_sound {moves : MovesDraft}
    (counted : token.kind = .moveNumber → given (Grammar.number token.text))
    (only : moves.HasOnly given) :
    Sound config token (Step.HasOnly given) (draft.acceptMoves config moves token) := by
  have movetext := @MovesDraft.accept_sound config token given moves counted only
  unfold acceptMoves
  split
  · next result =>
    rw [result] at movetext
    exact movetext
  · next result =>
    rw [result] at movetext
    exact movetext
  · next result =>
    rw [result] at movetext
    exact finish_sound movetext.1 movetext.2

theorem acceptOpening_sound
    (counted : token.kind = .moveNumber → given (Grammar.number token.text)) :
    Sound config token (Step.HasOnly given) (draft.acceptOpening config token) := by
  unfold acceptOpening
  split
  · exact acceptLeftOut_sound
  · exact acceptMoves_sound counted MovesDraft.hasOnly_start

theorem acceptPreface_sound
    (counted : token.kind = .moveNumber → given (Grammar.number token.text)) :
    Sound config token (Step.HasOnly given) (draft.acceptPreface config token) := by
  unfold acceptPreface
  split
  · split <;> trivial
  · exact acceptOpening_sound counted

theorem acceptHeader_sound (phase : HeaderPhase) :
    Sound config token (Step.HasOnly given) (draft.acceptHeader config phase token) := by
  have pairs := @HeaderPhase.accept_sound config token phase
  unfold acceptHeader
  split
  · next result =>
    rw [result] at pairs
    exact pairs
  · trivial

theorem acceptStage_sound (counted : token.kind = .moveNumber → given (Grammar.number token.text))
    (only : draft.HasOnly given) :
    Sound config token (Step.HasOnly given) (draft.acceptStage config token) := by
  unfold Draft.HasOnly at only
  unfold acceptStage
  split
  · split
    · exact acceptPreface_sound counted
    · next strange => exact .kind strange
  · exact acceptPreface_sound counted
  · next phase _ =>
    split
    · exact acceptOpening_sound counted
    · exact acceptHeader_sound phase
  · next between =>
    split
    · rw [Sound, Step.HasOnly, Draft.HasOnly, between]
      trivial
    · exact acceptOpening_sound counted
  · exact acceptOpening_sound counted
  · next moves between =>
    rw [between] at only
    exact acceptMoves_sound counted only
  · exact acceptLeftOut_sound

/-- What a draft makes of a token: a complaint about the token, or a draft or a game whose numbers
are those there were before and the number the token writes. -/
theorem accept_sound (counted : token.kind = .moveNumber → given (Grammar.number token.text))
    (only : draft.HasOnly given) :
    Sound config token (Step.HasOnly given) (draft.accept config token) := by
  unfold accept
  split
  · split
    · exact only
    · split
      · exact only.addComment token.text
      · exact acceptStage_sound counted only
  · split
    · exact only.addComment []
    · next noEnd =>
      split
      · exact only
      · next noText => exact .kind (by simpa [CommentPhase.expected] using ⟨noText, noEnd⟩)
  · next text _ =>
    split
    · exact only.addComment text
    · next noEnd => exact .of_kind_ne noEnd

end Draft

end Scoresheet
