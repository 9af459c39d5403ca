/-
This file shows that leaving out comments or variations comes to the same as reading everything and
removing them afterwards. What is removed from a complete game is removed from a game under way in
the same manner, so the two stay in step token by token: the same tokens are accepted and refused,
with the same complaints, and the games differ in nothing but what is left out. The descriptions of
annotations would be a comment that no token carries, so no separator for them may be set.
-/

import Scoresheet.Proofs.Gathering
import Scoresheet.Reader.Reading

namespace Scoresheet

/-! ### Leaving out more -/

/-- Whether the comments, and whether the variations of moves are left out. -/
structure Details where
  comments : Bool
  variations : Bool
  deriving DecidableEq, Repr

/-- The settings with comments or variations left out, besides what was left out before. -/
def Config.leavingOut (details : Details) (config : Config) : Config :=
  { config with skip := { config.skip with
      comments := config.skip.comments || details.comments
      variations := config.skip.variations || details.variations } }

theorem Config.comments_leavingOut (details : Details) (config : Config) :
    (config.leavingOut details).skip.comments = (config.skip.comments || details.comments) := rfl

theorem Config.variations_leavingOut (details : Details) (config : Config) :
    (config.leavingOut details).skip.variations =
      (config.skip.variations || details.variations) := rfl

/-! ### Games without some of their parts -/

mutual

/-- The move without its comment or its variations, and the moves of its variations likewise. -/
def Move.without (details : Details) : Move → Move
  | ⟨text, none⟩ => .bare text
  | ⟨text, some ⟨comment, nags, variations⟩⟩ =>
    .withDetails text (if details.comments then none else comment) nags
      (if details.variations then [] else variationsWithout details variations)

def Turn.without (details : Details) : Turn → Turn
  | .whiteOnly number white => .whiteOnly number (white.without details)
  | .blackOnly number black => .blackOnly number (black.without details)
  | .both number white black => .both number (white.without details) (black.without details)

def lineWithout (details : Details) : List Turn → List Turn
  | [] => []
  | turn :: rest => turn.without details :: lineWithout details rest

def variationsWithout (details : Details) : List (List Turn) → List (List Turn)
  | [] => []
  | line :: rest => lineWithout details line :: variationsWithout details rest

end

theorem lineWithout_eq_map (details : Details) (line : Line) :
    lineWithout details line = line.map (Turn.without details) := by
  induction line with
  | nil => rfl
  | cons turn rest inductionHypothesis =>
    rw [lineWithout, inductionHypothesis]
    rfl

theorem reverse_lineWithout (details : Details) (line : Line) :
    (lineWithout details line).reverse = lineWithout details line.reverse := by
  rw [lineWithout_eq_map, lineWithout_eq_map, List.map_reverse]

theorem variationsWithout_eq_map (details : Details) (variations : List Line) :
    variationsWithout details variations = variations.map (lineWithout details) := by
  induction variations with
  | nil => rfl
  | cons line rest inductionHypothesis =>
    rw [variationsWithout, inductionHypothesis]
    rfl

theorem Move.without_eq (details : Details) (move : Move) :
    move.without details =
      .of move.text (if details.comments then none else move.comment) move.nags
        (if details.variations then [] else move.variations.map (lineWithout details)) := by
  rw [← variationsWithout_eq_map]
  match move with
  | ⟨text, none⟩ => exact ((of_eq_bare_iff text _ _ _).mpr ⟨ite_self none, rfl, ite_self []⟩).symm
  | ⟨_, some ⟨_, _, _⟩⟩ => exact Move.withDetails_eq_of ..

/-- Nothing is left of a move without annotations if what it has besides is left out. -/
theorem Move.without_eq_bare_iff (details : Details) (move : Move) :
    move.without details = .bare move.text ↔
      move.nags = [] ∧ (details.comments = true ∨ move.comment = none) ∧
        (details.variations = true ∨ move.variations = []) := by
  rw [Move.without_eq, Move.of_eq_bare_iff]
  rw [and_left_comm]
  cases details.comments <;> cases details.variations <;> simp

/-- The game without its comments or its variations. -/
def Game.without (details : Details) (game : Game) : Game :=
  { game with
    comment := if details.comments then none else game.comment
    moves := lineWithout details game.moves }

def Entry.without (details : Details) (entry : Entry) : Entry :=
  { entry with game := entry.game.without details }

/-! ### Games under way -/

def MoveDraft.without (details : Details) (draft : MoveDraft) : MoveDraft :=
  { draft with
    comment := if details.comments then none else draft.comment
    variations := if details.variations then [] else draft.variations.map (lineWithout details) }

def TurnPhase.without (details : Details) : TurnPhase → TurnPhase
  | rest => .rest
  | numbered number digits => .numbered number digits
  | dotted number digits => .dotted number digits
  | white number digits move => .white number digits (move.without details)
  | renumbered number first same => .renumbered number (first.without details) same
  | owed number first told => .owed number (first.map (Move.without details)) told
  | black number first move =>
    .black number (first.map (Move.without details)) (move.without details)

def LineDraft.without (details : Details) (draft : LineDraft) : LineDraft :=
  ⟨lineWithout details draft.turns, draft.phase.without details⟩

def LineDraft.Step.without (details : Details) : LineDraft.Step → LineDraft.Step
  | onward draft => .onward (draft.without details)
  | branch => .branch
  | ended turns => .ended (lineWithout details turns)

def Branch.without (details : Details) (branch : Branch) : Branch :=
  { branch with
    leading := if details.comments then none else branch.leading
    line := branch.line.without details }

def Branch.Step.without (details : Details) : Branch.Step → Branch.Step
  | onward next => .onward (next.without details)
  | branch => .branch
  | closed line => .closed (lineWithout details line)

def MovesDraft.without (details : Details) (draft : MovesDraft) : MovesDraft :=
  ⟨draft.main.without details, draft.branches.map (Branch.without details)⟩

def MovesDraft.Step.without (details : Details) : MovesDraft.Step → MovesDraft.Step
  | onward draft => .onward (draft.without details)
  | ended line => .ended (lineWithout details line)

def Stage.without (details : Details) : Stage → Stage
  | moves draft => .moves (draft.without details)
  | stage => stage

def Draft.without (details : Details) (draft : Draft) : Draft :=
  { draft with
    comment := if details.comments then none else draft.comment
    stage := draft.stage.without details }

def Draft.Step.without (details : Details) : Draft.Step → Draft.Step
  | onward draft => .onward (draft.without details)
  | finished game => .finished (game.without details)

/-! ### One token -/

section Accept

variable (details : Details) (config : Config)

theorem Comment.add_without (comment : Option Bytes) (text : Bytes) :
    Comment.add (config.leavingOut details) (if details.comments then none else comment) text =
      if details.comments then none else Comment.add config comment text := by
  unfold Comment.add
  rw [Config.comments_leavingOut]
  cases details.comments
  · rw [Bool.or_false]
    rfl
  · rw [Bool.or_true]
    rfl

namespace MoveDraft

variable (draft : MoveDraft)

theorem start_without (text : Bytes) :
    start (config.leavingOut details) text = (start config text).without details := by
  have fresh (text : Bytes) (nags : List Nag) :
      (⟨text, none, nags, []⟩ : MoveDraft) = without details ⟨text, none, nags, []⟩ := by
    unfold without
    cases details.comments <;> cases details.variations <;> rfl
  unfold start
  rw [apply_ite (without details)]
  exact ite_congr rfl (fun _ => fresh _ _) fun _ => fresh _ _

theorem addNag_without (nag : Nag) :
    (draft.without details).addNag (config.leavingOut details) nag =
      (draft.addNag config nag).without details := by
  show (if config.allowDuplicateAnnotations || !draft.nags.contains nag then _ else _) = _
  unfold addNag
  split <;> rfl

theorem annotate_without (token : Token) :
    (draft.without details).annotate (config.leavingOut details) token =
      (draft.annotate config token).map (without details) := by
  unfold annotate
  rw [addNag_without]
  simp only [addNag_without]
  show (if draft.nags.length < config.annotationLimit then _ else _) = _
  split
  · cases Nag.ofText? token.text with
    | some nag => rfl
    | none =>
      show (if config.nullOnInvalidNag then _ else _) = Except.map _ (if _ then _ else _)
      split <;> rfl
  · rfl

theorem addComment_without (text : Bytes) :
    (draft.without details).addComment (config.leavingOut details) text =
      (draft.addComment config text).without details := by
  unfold addComment without
  rw [Comment.add_without]

theorem addVariation_without (line : Line) :
    (draft.without details).addVariation (config.leavingOut details) (lineWithout details line) =
      (draft.addVariation config line).without details := by
  have empty : (lineWithout details line).isEmpty = line.isEmpty := by
    cases line <;> rfl
  unfold addVariation
  rw [empty, Config.variations_leavingOut, apply_ite (without details)]
  unfold without
  cases details.variations
  · rw [Bool.or_false]
    rfl
  · rw [Bool.or_true, Bool.true_or, if_pos rfl]
    exact (ite_self _).symm

/-- No descriptions of annotations are added to the comment that was left out. -/
theorem finish_without (plain : config.annotationTemplate = none) :
    (draft.without details).finish (config.leavingOut details) =
      (draft.finish config).without details := by
  have plain' : (config.leavingOut details).annotationTemplate = none := plain
  unfold finish
  rw [Move.without_eq, plain, plain']
  simp only [Move.text_of, Move.comment_of, Move.nags_of, Move.variations_of, without]
  cases details.variations
  · rw [if_neg Bool.false_ne_true, if_neg Bool.false_ne_true, List.map_reverse]
  · rw [if_pos rfl, if_pos rfl]
    rfl

end MoveDraft

namespace LineDraft

variable (draft : LineDraft) (token : Token)

theorem isBehindMove_without : (draft.without details).isBehindMove = draft.isBehindMove := by
  obtain ⟨turns, phase⟩ := draft
  cases phase <;> rfl

theorem expected_without : (draft.without details).expected = draft.expected := by
  obtain ⟨turns, phase⟩ := draft
  cases phase <;> rfl

theorem mapMove_without {change change' : MoveDraft → MoveDraft}
    (same : ∀ move : MoveDraft, change' (move.without details) = (change move).without details) :
    (draft.without details).mapMove change' = (draft.mapMove change).without details := by
  obtain ⟨turns, phase⟩ := draft
  cases phase with
  | white number digits move =>
    exact congrArg (LineDraft.mk _ <| .white number digits ·) (same move)
  | black number white move =>
    exact congrArg (LineDraft.mk _ <| .black number _ ·) (same move)
  | _ => rfl

theorem acceptAtRest_without (turns : List Turn) :
    acceptAtRest (config.leavingOut details) (lineWithout details turns) token =
      (acceptAtRest config turns token).map (Step.without details) := by
  unfold acceptAtRest
  split
  · cases Bytes.number? largestNumber token.text with
    | none => rfl
    | some number =>
      show (if config.strict ∧ number = 0 then _ else _) = Except.map _ (if _ then _ else _)
      split <;> rfl
  · rfl

/-- An annotation goes on with the move it belongs to. -/
theorem annotate_without (move : MoveDraft) (turns : List Turn)
    (phase phase' : MoveDraft → TurnPhase)
    (same : ∀ move : MoveDraft, phase' (move.without details) = (phase move).without details) :
    (((move.without details).annotate (config.leavingOut details) token).bind fun move =>
        (.ok (.onward ⟨lineWithout details turns, phase' move⟩) : Except ReadError Step)) =
      ((move.annotate config token).bind fun move =>
        (.ok (.onward ⟨turns, phase move⟩) : Except ReadError Step)).map
          (Step.without details) := by
  rw [MoveDraft.annotate_without]
  cases move.annotate config token with
  | error error => rfl
  | ok move => exact congrArg (Except.ok <| Step.onward <| LineDraft.mk _ ·) (same move)

theorem blackTurn_without (number : UInt32) (white : Option Move) (black : Move) :
    blackTurn number (white.map (Move.without details)) (black.without details) =
      (blackTurn number white black).without details := by
  cases white <;> rfl

theorem accept_without (plain : config.annotationTemplate = none) :
    (draft.without details).accept (config.leavingOut details) token =
      (draft.accept config token).map (Step.without details) := by
  have refusal := draft.expected_without details
  obtain ⟨turns, phase⟩ := draft
  obtain ⟨kind, text, position⟩ := token
  unfold accept
  rw [refusal]
  cases phase with
  | rest => exact acceptAtRest_without details config _ turns
  | numbered number digits => cases kind <;> rfl
  | dotted number digits =>
    simp only [apply_ite (Except.map _)]
    show (if _ then Except.ok (Step.onward ⟨_, .white number digits (.start _ text)⟩) else _) = _
    rw [MoveDraft.start_without]
    rfl
  | white number digits move =>
    have finished := move.finish_without details config plain
    dsimp only [TurnPhase.without, without]
    rw [finished]
    split
    · exact annotate_without details config _ move turns _ _ fun _ => rfl
    · rfl
    · simp only [apply_ite (Except.map _)]
      rfl
    · rw [MoveDraft.start_without]
      rfl
    · exact acceptAtRest_without details config _ (.whiteOnly number (move.finish config) :: turns)
  | renumbered number white same =>
    simp only [apply_ite (Except.map _)]
    rfl
  | owed number white told =>
    simp only [apply_ite (Except.map _)]
    show (if _ then Except.ok (Step.onward ⟨_, .black number _ (.start _ text)⟩) else _) = _
    rw [MoveDraft.start_without]
    rfl
  | black number white move =>
    have finished := move.finish_without details config plain
    dsimp only [TurnPhase.without, without]
    rw [finished, blackTurn_without]
    split
    · exact annotate_without details config _ move turns _ _ fun _ => rfl
    · rfl
    · exact acceptAtRest_without details config _
        (blackTurn number white (move.finish config) :: turns)

end LineDraft

namespace Branch

variable (branch : Branch) (token : Token)

theorem addComment_without (text : Bytes) :
    (branch.without details).addComment (config.leavingOut details) text =
      (branch.addComment config text).without details := by
  have line := branch.line.mapMove_without details fun move =>
    move.addComment_without details config text
  have led := Comment.add_without details config branch.leading text
  obtain ⟨depth, lead, leading, draft⟩ := branch
  cases lead with
  | moves => exact congrArg (Branch.mk depth .moves _ ·) line
  | parens => exact congrArg (Branch.mk depth .comments · _) led
  | comments => exact congrArg (Branch.mk depth .comments · _) led

/-- The comments in front of a variation are left out like the comment of its first move. -/
theorem prependComment_without (comment : Bytes) (line : Line) :
    lineWithout details (Line.prependComment comment line) =
      if details.comments then lineWithout details line
      else Line.prependComment comment (lineWithout details line) := by
  have first (move : Move) : (move.prependComment comment).without details =
      if details.comments then move.without details
      else (move.without details).prependComment comment := by
    rw [Move.without_eq, Move.without_eq, Move.prependComment_eq, Move.prependComment_eq]
    simp only [Move.text_of, Move.comment_of, Move.nags_of, Move.variations_of]
    split <;> rfl
  cases line with
  | nil => exact (ite_self _).symm
  | cons turn rest =>
    cases turn with
    | whiteOnly number white =>
      show Turn.whiteOnly number (Move.without details _) :: _ = _
      rw [first]
      split <;> rfl
    | blackOnly number black =>
      show Turn.blackOnly number (Move.without details _) :: _ = _
      rw [first]
      split <;> rfl
    | both number white black =>
      show Turn.both number (Move.without details _) _ :: _ = _
      rw [first]
      split <;> rfl

theorem finish_without (turns : List Turn) :
    (branch.without details).finish (lineWithout details turns) =
      lineWithout details (branch.finish turns) := by
  obtain ⟨depth, lead, leading, line⟩ := branch
  unfold finish without
  rw [reverse_lineWithout]
  cases leading with
  | none =>
    rw [ite_self]
  | some comment =>
    rw [prependComment_without]
    cases left : details.comments <;> rfl

theorem accept_without (plain : config.annotationTemplate = none) :
    (branch.without details).accept (config.leavingOut details) token =
      (branch.accept config token).map (Step.without details) := by
  have line : (branch.without details).line.accept (config.leavingOut details) token =
      (branch.line.accept config token).map (LineDraft.Step.without details) :=
    branch.line.accept_without details config token plain
  unfold accept
  rw [line]
  show (if branch.lead = .parens ∧ token.kind = .variationBegin then _ else _) = _
  split
  · rfl
  · cases branch.line.accept config token with
    | error error => rfl
    | ok step =>
      cases step with
      | onward line => rfl
      | branch => rfl
      | ended turns =>
        show (if token.kind = .variationEnd then
            if branch.depth ≤ 1 then Except.ok (Step.closed (finish _ _)) else _ else _) =
          Except.map _ (if _ then if _ then _ else _ else _)
        rw [finish_without]
        split
        · split <;> rfl
        · rfl

end Branch

namespace MovesDraft

variable (draft : MovesDraft) (token : Token)

theorem expected_without : (draft.without details).expected = draft.expected := by
  obtain ⟨main, branches⟩ := draft
  cases branches with
  | nil => exact main.expected_without details
  | cons branch outer => exact branch.line.expected_without details

theorem takesComments_without : (draft.without details).takesComments = draft.takesComments := by
  obtain ⟨main, branches⟩ := draft
  cases branches with
  | nil => exact main.isBehindMove_without details
  | cons branch outer =>
    obtain ⟨depth, lead, leading, line⟩ := branch
    cases lead with
    | moves => exact line.isBehindMove_without details
    | _ => rfl

theorem addComment_without (text : Bytes) :
    (draft.without details).addComment (config.leavingOut details) text =
      (draft.addComment config text).without details := by
  obtain ⟨main, branches⟩ := draft
  cases branches with
  | nil =>
    exact congrArg (MovesDraft.mk · [])
      (main.mapMove_without details fun move => move.addComment_without details config text)
  | cons branch outer =>
    exact congrArg (MovesDraft.mk _ <| · :: _) (branch.addComment_without details config text)

theorem addVariation_without (line : Line) :
    (draft.without details).addVariation (config.leavingOut details) (lineWithout details line) =
      (draft.addVariation config line).without details := by
  have added (move : MoveDraft) := move.addVariation_without details config line
  obtain ⟨main, branches⟩ := draft
  cases branches with
  | nil => exact congrArg (MovesDraft.mk · []) (main.mapMove_without details added)
  | cons branch outer =>
    exact congrArg (fun line => MovesDraft.mk _ (Branch.mk _ _ _ line :: _))
      (branch.line.mapMove_without details added)

theorem accept_without (plain : config.annotationTemplate = none) :
    (draft.without details).accept (config.leavingOut details) token =
      (draft.accept config token).map (Step.without details) := by
  have fresh : Branch.start = Branch.start.without details := by
    unfold Branch.without Branch.start
    cases details.comments <;> rfl
  obtain ⟨main, branches⟩ := draft
  cases branches with
  | nil =>
    have whole : (⟨main, []⟩ : MovesDraft).without details = ⟨main.without details, []⟩ := rfl
    rw [whole]
    unfold accept
    dsimp only
    rw [LineDraft.accept_without details config main token plain]
    cases main.accept config token with
    | error error => rfl
    | ok step =>
      cases step with
      | onward line => rfl
      | branch => exact congrArg (Except.ok <| Step.onward ⟨main.without details, [·]⟩) fresh
      | ended turns =>
        show (if token.kind = .termination then Except.ok (Step.ended (List.reverse _)) else _) =
          Except.map _ (if _ then _ else _)
        rw [reverse_lineWithout]
        split <;> rfl
  | cons branch outer =>
    have whole : (⟨main, branch :: outer⟩ : MovesDraft).without details =
        ⟨main.without details, branch.without details :: outer.map (Branch.without details)⟩ := rfl
    rw [whole]
    unfold accept
    dsimp only
    rw [Branch.accept_without details config branch token plain]
    cases branch.accept config token with
    | error error => rfl
    | ok step =>
      cases step with
      | onward next => rfl
      | branch =>
        exact congrArg (Except.ok <| Step.onward
          ⟨main.without details, · :: branch.without details :: _⟩) fresh
      | closed line =>
        exact congrArg (Except.ok <| Step.onward ·)
          (addVariation_without details config ⟨main, outer⟩ line)

end MovesDraft

namespace Draft

variable (draft : Draft) (token : Token)

theorem recorded?_without : (draft.without details).recorded? token = draft.recorded? token := by
  obtain ⟨headers, comment, commentPhase, stage⟩ := draft
  cases stage <;> rfl

theorem takesComments_without : (draft.without details).takesComments = draft.takesComments := by
  obtain ⟨headers, comment, commentPhase, stage⟩ := draft
  cases stage with
  | moves moves => exact moves.takesComments_without details
  | _ => rfl

theorem addComment_without (text : Bytes) :
    (draft.without details).addComment (config.leavingOut details) text =
      (draft.addComment config text).without details := by
  have own := Comment.add_without details config draft.comment text
  obtain ⟨headers, comment, commentPhase, stage⟩ := draft
  cases stage with
  | moves moves =>
    exact congrArg (Draft.mk headers _ commentPhase <| .moves ·)
      (moves.addComment_without details config text)
  | start => exact congrArg (Draft.mk headers · commentPhase .preface) own
  | preface => exact congrArg (Draft.mk headers · commentPhase .preface) own
  | _ => exact congrArg (Draft.mk headers · commentPhase .opening) own

theorem expected_without :
    (draft.without details).expected (config.leavingOut details) = draft.expected config := by
  obtain ⟨headers, comment, commentPhase, stage⟩ := draft
  cases commentPhase with
  | idle =>
    cases stage with
    | header phase => cases phase <;> rfl
    | moves moves => exact moves.expected_without details
    | _ => rfl
  | _ => rfl

theorem finish_without (line : Line) (marker : Token) :
    (draft.without details).finish (lineWithout details line) marker =
      (draft.finish line marker).map (Step.without details) := by
  unfold finish
  cases Outcome.ofMarker? marker.text <;> rfl

theorem acceptLeftOut_without :
    (draft.without details).acceptLeftOut token =
      (draft.acceptLeftOut token).map (Step.without details) := by
  unfold acceptLeftOut
  rw [apply_ite (Except.map _), ← finish_without details draft]
  rfl

theorem acceptMoves_without (plain : config.annotationTemplate = none) (movetext : MovesDraft) :
    (draft.without details).acceptMoves (config.leavingOut details)
        (movetext.without details) token =
      (draft.acceptMoves config movetext token).map (Step.without details) := by
  unfold acceptMoves
  rw [movetext.accept_without details config token plain]
  cases movetext.accept config token with
  | error error => rfl
  | ok step =>
    cases step with
    | onward next => rfl
    | ended line => exact finish_without details draft line token

theorem acceptOpening_without (plain : config.annotationTemplate = none) :
    (draft.without details).acceptOpening (config.leavingOut details) token =
      (draft.acceptOpening config token).map (Step.without details) := by
  unfold acceptOpening
  rw [apply_ite (Except.map _), ← acceptLeftOut_without details draft token,
    ← acceptMoves_without details config draft token plain]
  rfl

theorem acceptPreface_without (plain : config.annotationTemplate = none) :
    (draft.without details).acceptPreface (config.leavingOut details) token =
      (draft.acceptPreface config token).map (Step.without details) := by
  unfold acceptPreface
  rw [acceptOpening_without details config draft token plain]
  simp only [apply_ite (Except.map _)]
  rfl

theorem acceptHeader_without (phase : HeaderPhase) :
    (draft.without details).acceptHeader (config.leavingOut details) phase token =
      (draft.acceptHeader config phase token).map (Step.without details) := by
  have same : phase.accept (config.leavingOut details) token = phase.accept config token := rfl
  unfold acceptHeader
  rw [same]
  cases phase.accept config token <;> rfl

theorem acceptStage_without (plain : config.annotationTemplate = none) :
    (draft.without details).acceptStage (config.leavingOut details) token =
      (draft.acceptStage config token).map (Step.without details) := by
  have preface := acceptPreface_without details config draft token plain
  have opening := acceptOpening_without details config draft token plain
  have header := acceptHeader_without details config draft token
  have leftOut := acceptLeftOut_without details draft token
  have movetext := acceptMoves_without details config draft token plain
  obtain ⟨pairs, comment, commentPhase, stage⟩ := draft
  unfold acceptStage
  cases stage with
  | start =>
    rw [apply_ite (Except.map _), ← preface]
    rfl
  | preface => exact preface
  | header phase =>
    rw [apply_ite (Except.map _), ← opening, ← header]
    rfl
  | headersLeftOut =>
    rw [apply_ite (Except.map _), ← opening]
    rfl
  | opening => exact opening
  | moves moves => exact movetext moves
  | movesLeftOut => exact leftOut

theorem accept_without (plain : config.annotationTemplate = none) :
    (draft.without details).accept (config.leavingOut details) token =
      (draft.accept config token).map (Step.without details) := by
  have inside := acceptStage_without details config draft token plain
  have takes := draft.takesComments_without details
  have added := draft.addComment_without details config
  have phase : (draft.without details).commentPhase = draft.commentPhase := rfl
  unfold accept
  rw [phase]
  simp only [takes, added, inside]
  cases draft.commentPhase with
  | idle =>
    simp only [apply_ite (Except.map _)]
    rfl
  | opened =>
    simp only [apply_ite (Except.map _)]
    rfl
  | filled text =>
    simp only [apply_ite (Except.map _)]
    rfl

end Draft

end Accept

end Scoresheet
