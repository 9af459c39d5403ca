/-
This file shows that stricter settings only refuse. A token that is accepted with small
irregularities refused, or with annotations refused that mean nothing, is accepted to the same
effect without. So a segment that gives a game with the stricter settings gives the same game with
the others: a reader that recovers from errors yields the games of the stricter one among its own,
and if the stricter one stops at the first error its games are the first ones of the other.
-/

import Scoresheet.Cache.PairHash
import Scoresheet.Proofs.Alongside

namespace Scoresheet

/-- The settings with more refused: small irregularities, annotations that mean nothing, or both. -/
def Config.tighten (irregularities annotations : Bool) (config : Config) : Config :=
  { config with
    strict := config.strict || irregularities
    nullOnInvalidNag := config.nullOnInvalidNag && !annotations }

section Tighten

variable (irregularities annotations : Bool) (config : Config)

/-- Irregularities that were refused before are refused with the tightened settings. -/
theorem Config.strict_tighten (strict : config.strict = true) :
    (config.tighten irregularities annotations).strict = true :=
  Bool.or_eq_true_iff.mpr (.inl strict)

theorem Config.strict_of_tighten
    (lenient : (config.tighten irregularities annotations).strict = false) :
    config.strict = false :=
  (Bool.or_eq_false_iff.mp lenient).1

/-! ### One token -/

theorem HeaderPhase.accept_tighten (phase : HeaderPhase) (token : Token) :
    Within id (phase.accept (config.tighten irregularities annotations) token)
      (phase.accept config token) := by
  unfold accept
  split
  case h_3 => exact .of_weaker (config.strict_tighten irregularities annotations) (.refl _)
  all_goals exact .refl _

theorem MoveDraft.annotate_tighten (draft : MoveDraft) (token : Token) :
    Within id (draft.annotate (config.tighten irregularities annotations) token)
      (draft.annotate config token) := by
  refine .ite (fun _ => ?_) fun _ => .refl _
  cases Nag.ofText? token.text with
  | some nag => exact .refl _
  | none => exact .of_stronger (fun tolerant => (Bool.and_eq_true_iff.mp tolerant).1) (.refl _)

theorem LineDraft.acceptAtRest_tighten (turns : List Turn) (token : Token) :
    Within id (acceptAtRest (config.tighten irregularities annotations) turns token)
      (acceptAtRest config turns token) := by
  refine .ite (fun _ => ?_) fun _ => .refl _
  cases Bytes.number? largestNumber token.text with
  | none => exact .refl _
  | some number =>
    exact .of_weaker (.imp_left (config.strict_tighten irregularities annotations)) (.refl _)

theorem LineDraft.accept_tighten (draft : LineDraft) (token : Token) :
    Within id (draft.accept (config.tighten irregularities annotations) token)
      (draft.accept config token) := by
  have lenient := config.strict_of_tighten irregularities annotations
  obtain ⟨turns, phase⟩ := draft
  unfold accept
  cases phase with
  | rest => exact acceptAtRest_tighten irregularities annotations config turns token
  | numbered number digits => exact .refl _
  | dotted number digits =>
    exact .ite (fun _ => .refl _) fun _ => .of_stronger (.imp_right lenient) (.refl _)
  | white number digits move =>
    dsimp only
    split
    · exact .bind (move.annotate_tighten irregularities annotations config token) _
    · exact .refl _
    · exact .ite (fun _ => .refl _) fun _ =>
        .of_weaker (config.strict_tighten irregularities annotations) (.refl _)
    · exact .refl _
    · exact acceptAtRest_tighten irregularities annotations config _ token
  | renumbered number white same =>
    exact .ite (fun _ => .refl _) fun _ =>
      .of_stronger (.imp_right (.imp_right lenient)) (.refl _)
  | owed number white told => exact .refl _
  | black number white move =>
    dsimp only
    split
    · exact .bind (move.annotate_tighten irregularities annotations config token) _
    · exact .refl _
    · exact acceptAtRest_tighten irregularities annotations config _ token

theorem Branch.accept_tighten (branch : Branch) (token : Token) :
    Within id (branch.accept (config.tighten irregularities annotations) token)
      (branch.accept config token) := by
  refine .ite (fun _ => .refl _) fun _ => ?_
  have line := branch.line.accept_tighten irregularities annotations config token
  exact line.elim (fun error _ => .refused error _) fun _ => .refl _

theorem MovesDraft.accept_tighten (draft : MovesDraft) (token : Token) :
    Within id (draft.accept (config.tighten irregularities annotations) token)
      (draft.accept config token) := by
  obtain ⟨main, branches⟩ := draft
  unfold accept
  cases branches with
  | nil =>
    have line := main.accept_tighten irregularities annotations config token
    exact line.elim (fun error _ => .refused error _) fun _ => .refl _
  | cons branch outer =>
    have inner := branch.accept_tighten irregularities annotations config token
    dsimp only
    exact inner.elim (fun error _ => .refused error _) fun _ => .refl _

namespace Draft

variable (draft : Draft) (token : Token)

theorem acceptMoves_tighten (moves : MovesDraft) :
    Within id (draft.acceptMoves (config.tighten irregularities annotations) moves token)
      (draft.acceptMoves config moves token) := by
  have inner := moves.accept_tighten irregularities annotations config token
  unfold acceptMoves
  exact inner.elim (fun error _ => .refused error _) fun _ => .refl _

theorem acceptOpening_tighten :
    Within id (draft.acceptOpening (config.tighten irregularities annotations) token)
      (draft.acceptOpening config token) :=
  .ite (fun _ => .refl _) fun _ =>
    draft.acceptMoves_tighten irregularities annotations config token .start

theorem acceptPreface_tighten :
    Within id (draft.acceptPreface (config.tighten irregularities annotations) token)
      (draft.acceptPreface config token) :=
  .ite (fun _ => .refl _) fun _ =>
    draft.acceptOpening_tighten irregularities annotations config token

theorem acceptHeader_tighten (phase : HeaderPhase) :
    Within id (draft.acceptHeader (config.tighten irregularities annotations) phase token)
      (draft.acceptHeader config phase token) := by
  have inner := phase.accept_tighten irregularities annotations config token
  unfold acceptHeader
  exact inner.elim (fun error _ => .refused error _) fun _ => .refl _

theorem acceptStage_tighten :
    Within id (draft.acceptStage (config.tighten irregularities annotations) token)
      (draft.acceptStage config token) := by
  have opening := draft.acceptOpening_tighten irregularities annotations config token
  have preface := draft.acceptPreface_tighten irregularities annotations config token
  unfold acceptStage
  cases draft.stage with
  | start => exact .ite (fun _ => preface) fun _ => .refl _
  | preface => exact preface
  | header phase =>
    exact .ite (fun _ => opening) fun _ =>
      draft.acceptHeader_tighten irregularities annotations config token phase
  | headersLeftOut => exact .ite (fun _ => .refl _) fun _ => opening
  | opening => exact opening
  | moves moves => exact draft.acceptMoves_tighten irregularities annotations config token moves
  | movesLeftOut => exact .refl _

/-- A token that is accepted with the tightened settings is accepted to the same effect with the
others. -/
theorem accept_tighten :
    Within id (draft.accept (config.tighten irregularities annotations) token)
      (draft.accept config token) := by
  unfold accept
  cases draft.commentPhase with
  | idle =>
    exact .ite (fun _ => .refl _) fun _ => .ite (fun _ => .refl _) fun _ =>
      draft.acceptStage_tighten irregularities annotations config token
  | opened => exact .refl _
  | filled text => exact .refl _

/-! ### Rows of tokens, and whole runs -/

theorem judge_of_tighten {draft : Draft} {tokens : List Token} {game : Game}
    (finished : draft.judge (config.tighten irregularities annotations) tokens =
      .finished game) :
    draft.judge config tokens = .finished game := by
  have same (step : Step) : Step.change id id step = step := by cases step <;> rfl
  refine @judge_of_within _ config id id (fun _ _ => True) (fun draft token rest _ step taken => ?_)
    (fun _ _ _ _ _ _ => trivial) draft tokens game trivial finished
  rw [same]
  exact draft.accept_tighten irregularities annotations config token step taken

end Draft

theorem Config.carries_tighten : (config.tighten irregularities annotations).Carries id config :=
  fun _ _ finished => Draft.judge_of_tighten irregularities annotations config finished

end Tighten

namespace Reader

/-- The reader with more refused. -/
def tighten (irregularities annotations : Bool) (reader : Reader) : Reader :=
  { reader with config := reader.config.tighten irregularities annotations }

/-- Stricter settings only refuse. A segment that gives a game with them gives the same game
without, so the games of a reader that recovers from errors stay in their places and are among those
of the reader without the stricter settings. If it stops at the first error, the games in front of
it are the first ones of the other reader. -/
theorem tightening_only_refuses [Hashable HeaderPair] (irregularities annotations : Bool)
    (reader : Reader) :
    (∀ (lexer : Lexer) (game : Game),
      lexer.event? (reader.tighten irregularities annotations).config = some (.game game) →
        lexer.event? reader.config = some (.game game)) ∧
    (reader.config.stopOnError = false → reader.config.gameLimit = none →
      ∀ calls calls' : Nat, reader.lexer.source.content.length ≤ calls' →
        (∀ (index : Nat) (game : Game),
          ((reader.tighten irregularities annotations).run
              (List.replicate calls .next)).1[index]? = some (.game game) →
            (reader.lexer.afterSegments index).event?
                (reader.tighten irregularities annotations).config = some (.game game) ∧
              (reader.run (List.replicate calls' .next)).1[index]? = some (.game game)) ∧
        (games ((reader.tighten irregularities annotations).run
          (List.replicate calls .next)).1).Sublist
            (games (reader.run (List.replicate calls' .next)).1)) ∧
    (reader.config.stopOnError = true → ∀ calls : Nat,
      games ((reader.tighten irregularities annotations).run (List.replicate calls .next)).1 <+:
        games (reader.run (List.replicate calls .next)).1) := by
  have carries := reader.config.carries_tighten irregularities annotations
  refine ⟨fun lexer game made => carries.event? made,
    fun recovering unlimited calls calls' enough => ?_, fun stopping calls => ?_⟩
  · have places (index : Nat) (game : Game)
        (found : ((reader.tighten irregularities annotations).run
          (List.replicate calls .next)).1[index]? = some (.game game)) :
        (reader.lexer.afterSegments index).event?
            (reader.tighten irregularities annotations).config = some (.game game) ∧
          (reader.run (List.replicate calls' .next)).1[index]? = some (.game game) := by
      cases running : reader.isDone with
      | true =>
        rw [@run_of_isDone (reader.tighten irregularities annotations) _ running] at found
        cases found
      | false =>
        exact ⟨(@made_of_run (reader.tighten irregularities annotations) _ recovering unlimited
            running _ _ _ found).2,
          @run_carries _ _ (reader.tighten irregularities annotations) reader carries rfl running
            running recovering recovering unlimited unlimited _ _ _ _ enough found⟩
    have among := @games_sublist id _ _ fun index game found => (places index game found).2
    rw [List.map_id] at among
    exact ⟨places, among⟩
  · have prefixed := @first_games_run _ _ (reader.tighten irregularities annotations) reader carries
      stopping rfl rfl rfl rfl calls
    rwa [List.map_id] at prefixed

open scoped PairHash

/-- A reader that recovers from errors, over four games, of which the second has a move number zero
and the third an annotation that means nothing. -/
def tolerant : Reader :=
  start { Config.standard with stopOnError := false }
    (.ofSource (.ofBytes (Bytes.ofString "1. e4 *\n0. d4 *\n1. c4 $x *\n1. f4 *")))

theorem tightening_tolerant :
    (tolerant.config.stopOnError = false ∧ tolerant.config.gameLimit = none ∧
        tolerant.lexer.source.content.length ≤ 40) ∧
      (games ((tolerant.tighten true true).run (List.replicate 40 .next)).1).length = 2 ∧
      (games (tolerant.run (List.replicate 40 .next)).1).length = 4 ∧
      (games ((tolerant.tighten true true).run (List.replicate 40 .next)).1).Sublist
        (games (tolerant.run (List.replicate 40 .next)).1) := by
  have enough : tolerant.lexer.source.content.length ≤ 40 := by decide +kernel
  exact ⟨⟨rfl, rfl, enough⟩, by decide +kernel, by decide +kernel,
    ((tightening_only_refuses true true tolerant).2.1 rfl rfl 40 40 enough).2⟩

end Reader

end Scoresheet
