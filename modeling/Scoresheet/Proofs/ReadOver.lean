/-
This file shows what becomes of a game whose headers or moves are left out. The tokens of a part
that is left out are read over without being put together, so some are accepted that would be
refused otherwise, and none the other way round: a row of tokens that finishes a game finishes the
same game without its headers or its moves. Where the movetext is read over, this holds because
nothing in front of the marker ends it. Where the header section is read over, a token of another
kind ends it; this is where it would end otherwise, because behind a pair only another pair goes on
with it.
-/

import Scoresheet.Proofs.Alongside
import Scoresheet.Proofs.Brackets

namespace Scoresheet

/-! ### Moves -/

/-- The settings with moves left out. -/
def Config.withoutMoves (config : Config) : Config :=
  { config with skip := { config.skip with moves := true } }

def Game.withoutMoves (game : Game) : Game := { game with moves := [] }

namespace Draft

/-- The draft where the movetext is read over, its comments included. -/
def withoutMoves (draft : Draft) : Draft :=
  match draft.stage with
  | .moves _ => { draft with commentPhase := .idle, stage := .movesLeftOut }
  | _ => draft

def Step.withoutMoves : Step → Step := .change Draft.withoutMoves Game.withoutMoves

section Moves

variable {config : Config} {draft : Draft} {moves : MovesDraft} {token : Token}

theorem withoutMoves_of_stage (stage : draft.stage = .moves moves) :
    draft.withoutMoves = { draft with commentPhase := .idle, stage := .movesLeftOut } := by
  rw [withoutMoves, stage]

theorem withoutMoves_of_other (other : ∀ moves, draft.stage ≠ .moves moves) :
    draft.withoutMoves = draft := by
  unfold withoutMoves
  split
  · next moves stage => exact absurd stage (other moves)
  · rfl

/-- Outside the movetext a draft goes on as it is. -/
theorem onward_withoutMoves (other : ∀ moves, draft.stage ≠ .moves moves) :
    Within Step.withoutMoves (.ok (.onward draft)) (.ok (.onward draft)) := by
  have same := withoutMoves_of_other other
  conv => arg 3; rw [← same]
  exact .ok _

theorem finish_withoutMoves (line : Line) (phase : CommentPhase) (stage : Stage) (marker : Token) :
    Within Step.withoutMoves (draft.finish line marker)
      (Draft.finish { draft with commentPhase := phase, stage } [] marker) := by
  unfold finish
  cases Outcome.ofMarker? marker.text with
  | none => exact .refused _ _
  | some outcome => exact .ok _

theorem acceptLeftOut_withoutMoves :
    Within Step.withoutMoves (draft.acceptLeftOut token) (draft.acceptLeftOut token) :=
  .ite (fun _ => finish_withoutMoves [] draft.commentPhase draft.stage token) fun _ => .ok _

/-- A token that the movetext accepts is read over where moves are left out. -/
theorem acceptMoves_withoutMoves (stage : Stage) :
    Within Step.withoutMoves (draft.acceptMoves config moves token)
      (Draft.acceptLeftOut { draft with commentPhase := .idle, stage } token) := by
  have orderly := MovesDraft.accept_orderly config moves token
  unfold acceptMoves
  cases found : moves.accept config token with
  | error error => exact .refused _ _
  | ok step =>
    rw [found] at orderly
    cases step with
    | onward next =>
      have inside : token.kind ≠ .termination := orderly
      rw [acceptLeftOut, if_neg inside]
      exact .ok _
    | ended line =>
      have marker : token.kind = .termination := orderly
      rw [acceptLeftOut, if_pos marker]
      exact finish_withoutMoves line .idle stage token

theorem accept_of_movesLeftOut (idle : draft.commentPhase = .idle)
    (stage : draft.stage = .movesLeftOut) :
    draft.accept config token = draft.acceptLeftOut token := by
  have takes : draft.takesComments = false := by rw [takesComments, stage]
  unfold accept acceptStage
  rw [idle, takes, stage]
  dsimp only
  rw [if_neg (fun brace => Bool.false_ne_true brace.2),
    if_neg (fun line => Bool.false_ne_true line.2)]

/-- Within the movetext every token in front of the marker is read over. -/
theorem accept_withoutMoves_of_moves (stage : draft.stage = .moves moves) :
    Within Step.withoutMoves (draft.accept config token)
      (draft.withoutMoves.accept config.withoutMoves token) := by
  have whole := withoutMoves_of_stage stage
  have behind {kind : TokenKind} (next : Draft) (moves' : MovesDraft)
      (stage' : next.stage = .moves moves') (headers : next.headers = draft.headers)
      (comment : next.comment = draft.comment) (told : token.kind = kind)
      (inside : kind ≠ .termination) :
      Within Step.withoutMoves (.ok (.onward next)) (draft.withoutMoves.acceptLeftOut token) := by
    have same : next.withoutMoves = draft.withoutMoves := by
      rw [withoutMoves_of_stage stage', whole, headers, comment]
    rw [acceptLeftOut, if_neg (told ▸ inside), whole]
    rw [whole] at same
    exact same ▸ .ok (Step.onward next)
  have added (text : Bytes) : draft.addComment config text =
      { draft with stage := .moves (moves.addComment config text) } := by
    rw [addComment, stage]
  rw [@accept_of_movesLeftOut _ draft.withoutMoves _ (by rw [whole]) (by rw [whole])]
  unfold accept
  simp only [added]
  cases draft.commentPhase with
  | idle =>
    dsimp only
    split
    · next brace => exact behind _ _ stage rfl rfl brace.1 (by decide)
    · split
      · next line => exact behind _ _ rfl rfl rfl line.1 (by decide)
      · rw [acceptStage, stage, whole]
        exact acceptMoves_withoutMoves .movesLeftOut
  | opened =>
    dsimp only
    split
    · next close => exact behind _ _ rfl rfl rfl close (by decide)
    · split
      · next text => exact behind _ _ stage rfl rfl text (by decide)
      · exact .refused _ _
  | filled text =>
    dsimp only
    split
    · next close => exact behind _ _ rfl rfl rfl close (by decide)
    · exact .refused _ _

theorem acceptOpening_withoutMoves (idle : draft.commentPhase = .idle) :
    Within Step.withoutMoves (draft.acceptOpening config token)
      (draft.acceptOpening config.withoutMoves token) := by
  have leaves : draft.acceptOpening config.withoutMoves token = draft.acceptLeftOut token :=
    if_pos rfl
  rw [leaves]
  unfold acceptOpening
  split
  · exact acceptLeftOut_withoutMoves
  · have left := @acceptMoves_withoutMoves config draft .start token draft.stage
    rwa [← idle] at left

theorem acceptPreface_withoutMoves (idle : draft.commentPhase = .idle) :
    Within Step.withoutMoves (draft.acceptPreface config token)
      (draft.acceptPreface config.withoutMoves token) :=
  .ite (fun _ => .ite (fun _ => .ok _) fun _ => .ok _) fun _ => acceptOpening_withoutMoves idle

theorem acceptHeader_withoutMoves (phase : HeaderPhase) :
    Within Step.withoutMoves (draft.acceptHeader config phase token)
      (draft.acceptHeader config.withoutMoves phase token) := by
  have same : phase.accept config.withoutMoves token = phase.accept config token := rfl
  unfold acceptHeader
  rw [same]
  cases phase.accept config token with
  | error error => exact .refused _ _
  | ok next => exact .ok _

theorem acceptStage_withoutMoves (other : ∀ moves, draft.stage ≠ .moves moves)
    (idle : draft.commentPhase = .idle) :
    Within Step.withoutMoves (draft.acceptStage config token)
      (draft.acceptStage config.withoutMoves token) := by
  unfold acceptStage
  split
  · exact .ite (fun _ => acceptPreface_withoutMoves idle) fun _ => .refused _ _
  · exact acceptPreface_withoutMoves idle
  · exact .ite (fun _ => acceptOpening_withoutMoves idle) fun _ => acceptHeader_withoutMoves _
  · exact .ite (fun _ => onward_withoutMoves other) fun _ => acceptOpening_withoutMoves idle
  · exact acceptOpening_withoutMoves idle
  · next moves stage => exact absurd stage (other moves)
  · exact acceptLeftOut_withoutMoves

/-- A token that is accepted is accepted where moves are left out, and the game differs in its moves
alone. -/
theorem accept_withoutMoves (draft : Draft) (token : Token) :
    Within Step.withoutMoves (draft.accept config token)
      (draft.withoutMoves.accept config.withoutMoves token) := by
  by_cases inside : ∃ moves, draft.stage = .moves moves
  · obtain ⟨moves, stage⟩ := inside
    exact accept_withoutMoves_of_moves stage
  · have other : ∀ moves, draft.stage ≠ .moves moves := not_exists.mp inside
    have added (text : Bytes) (moves : MovesDraft) :
        (draft.addComment config text).stage ≠ .moves moves := by
      obtain ⟨headers, comment, commentPhase, stage⟩ := draft
      cases stage with
      | moves begun => exact absurd rfl (other begun)
      | _ => nofun
    have settings (text : Bytes) :
        draft.addComment config.withoutMoves text = draft.addComment config text := rfl
    rw [withoutMoves_of_other other]
    unfold accept
    simp only [settings]
    split
    · next idle =>
      exact .ite (fun _ => onward_withoutMoves other) fun _ =>
        .ite (fun _ => onward_withoutMoves (added _)) fun _ => acceptStage_withoutMoves other idle
    · exact .ite (fun _ => onward_withoutMoves (added _)) fun _ =>
        .ite (fun _ => onward_withoutMoves other) fun _ => .refused _ _
    · exact .ite (fun _ => onward_withoutMoves (added _)) fun _ => .refused _ _

end Moves

end Draft

theorem Config.carries_withoutMoves (config : Config) :
    config.Carries Game.withoutMoves config.withoutMoves :=
  fun _ _ finished => @Draft.judge_of_within config config.withoutMoves Draft.withoutMoves
    Game.withoutMoves (fun _ _ => True) (fun draft token _ _ => draft.accept_withoutMoves token)
    (fun _ _ _ _ _ _ => trivial) .start _ _ trivial finished

/-! ### Headers -/

/-- The settings with headers left out. -/
def Config.withoutHeaders (config : Config) : Config :=
  { config with skip := { config.skip with headers := true } }

def Game.withoutHeaders (game : Game) : Game := { game with headers := none }

/-- The stage where the header section is read over. -/
def Stage.withoutHeaders : Stage → Stage
  | header _ => .headersLeftOut
  | stage => stage

namespace HeaderPhase

variable {config : Config} {phase : HeaderPhase} {token : Token}

theorem isHeader_of_accept {next : HeaderPhase} (accepted : phase.accept config token = .ok next) :
    token.kind.isHeader = true := by
  unfold accept at accepted
  split at accepted
  case h_11 => cases accepted
  all_goals
    next kind =>
      rw [kind]
      rfl

/-- A header pair ends with a closing bracket. -/
theorem headerEnd_of_accept (accepted : phase.accept config token = .ok .complete) :
    token.kind = .headerEnd := by
  unfold accept at accepted
  split at accepted
  case h_3 =>
    split at accepted
    · cases accepted
    · cases accepted
  case h_8 kind => exact kind
  case h_9 kind => exact kind
  all_goals cases accepted

end HeaderPhase

namespace Draft

def withoutHeaders (draft : Draft) : Draft :=
  { draft with headers := none, stage := draft.stage.withoutHeaders }

def Step.withoutHeaders : Step → Step := .change Draft.withoutHeaders Game.withoutHeaders

section Headers

variable {config : Config} {draft : Draft} {token : Token}

theorem addComment_withoutHeaders (draft : Draft) (text : Bytes) :
    draft.withoutHeaders.addComment config.withoutHeaders text =
      (draft.addComment config text).withoutHeaders := by
  obtain ⟨headers, comment, commentPhase, stage⟩ := draft
  cases stage <;> rfl

theorem finish_withoutHeaders (line : Line) (marker : Token) :
    Within Step.withoutHeaders (draft.finish line marker)
      (draft.withoutHeaders.finish line marker) := by
  unfold finish
  cases Outcome.ofMarker? marker.text with
  | none => exact .refused _ _
  | some outcome => exact .ok _

theorem acceptLeftOut_withoutHeaders :
    Within Step.withoutHeaders (draft.acceptLeftOut token)
      (draft.withoutHeaders.acceptLeftOut token) :=
  .ite (fun _ => finish_withoutHeaders [] token) fun _ => .ok _

theorem acceptMoves_withoutHeaders (moves : MovesDraft) :
    Within Step.withoutHeaders (draft.acceptMoves config moves token)
      (draft.withoutHeaders.acceptMoves config.withoutHeaders moves token) := by
  have same : moves.accept config.withoutHeaders token = moves.accept config token := rfl
  unfold acceptMoves
  rw [same]
  cases moves.accept config token with
  | error error => exact .refused _ _
  | ok step =>
    cases step with
    | onward next => exact .ok _
    | ended line => exact finish_withoutHeaders line token

theorem acceptOpening_withoutHeaders :
    Within Step.withoutHeaders (draft.acceptOpening config token)
      (draft.withoutHeaders.acceptOpening config.withoutHeaders token) :=
  .ite (fun _ => acceptLeftOut_withoutHeaders) fun _ => acceptMoves_withoutHeaders .start

theorem acceptPreface_withoutHeaders :
    Within Step.withoutHeaders (draft.acceptPreface config token)
      (draft.withoutHeaders.acceptPreface config.withoutHeaders token) := by
  have leaves : config.withoutHeaders.skip.headers = true := rfl
  refine .ite (fun _ => ?_) fun _ => acceptOpening_withoutHeaders
  rw [if_pos leaves]
  split
  · exact .ok _
  · exact .ok _

/-- What belongs to a header pair is a token of a header section, and is read over. -/
theorem acceptHeader_withoutHeaders {phase : HeaderPhase} (stage : draft.stage = .header phase) :
    Within Step.withoutHeaders (draft.acceptHeader config phase token)
      (if token.kind.isHeader then .ok (.onward draft.withoutHeaders)
      else draft.withoutHeaders.acceptOpening config.withoutHeaders token) := by
  unfold acceptHeader
  cases found : phase.accept config token with
  | error error => exact .refused _ _
  | ok next =>
    rw [if_pos (HeaderPhase.isHeader_of_accept found), withoutHeaders, stage]
    exact .ok _

/-- Directly behind a header pair. -/
def IsBehindPair (draft : Draft) : Prop :=
  draft.commentPhase = .idle ∧ draft.stage = .header .complete

theorem acceptStage_withoutHeaders (idle : draft.commentPhase = .idle)
    (pairs : draft.IsBehindPair → token.kind.isHeader = true → token.kind = .headerBegin) :
    Within Step.withoutHeaders (draft.acceptStage config token)
      (draft.withoutHeaders.acceptStage config.withoutHeaders token) := by
  have after : draft.withoutHeaders.stage = draft.stage.withoutHeaders := rfl
  unfold acceptStage
  rw [after]
  cases stage : draft.stage with
  | start => exact .ite (fun _ => acceptPreface_withoutHeaders) fun _ => .refused _ _
  | preface => exact acceptPreface_withoutHeaders
  | header phase =>
    dsimp only [Stage.withoutHeaders]
    split
    · next behind =>
      have outside : ¬ token.kind.isHeader = true := fun header =>
        behind.2 (pairs ⟨idle, by rw [stage, behind.1]⟩ header)
      rw [if_neg outside]
      exact acceptOpening_withoutHeaders
    · exact acceptHeader_withoutHeaders stage
  | headersLeftOut => exact .ite (fun _ => .ok _) fun _ => acceptOpening_withoutHeaders
  | opening => exact acceptOpening_withoutHeaders
  | moves moves => exact acceptMoves_withoutHeaders moves
  | movesLeftOut => exact acceptLeftOut_withoutHeaders

/-- Only within a header pair the draft takes no comment although it takes one where headers are
left out. -/
theorem stage_of_takesComments
    (takes : draft.takesComments ≠ draft.withoutHeaders.takesComments) :
    ∃ phase, draft.stage = .header phase ∧ phase ≠ .complete := by
  obtain ⟨headers, comment, commentPhase, stage⟩ := draft
  cases stage with
  | header phase => exact ⟨phase, rfl, fun complete => takes (decide_eq_true complete)⟩
  | _ => exact absurd rfl takes

/-- Within a header pair only tokens of a header section are accepted. -/
theorem isHeader_of_acceptStage {phase : HeaderPhase} {step : Step}
    (stage : draft.stage = .header phase) (within : phase ≠ .complete)
    (accepted : draft.acceptStage config token = .ok step) : token.kind.isHeader = true := by
  rw [acceptStage, stage] at accepted
  dsimp only at accepted
  rw [if_neg fun behind => within behind.1, acceptHeader] at accepted
  cases found : phase.accept config token with
  | error error =>
    rw [found] at accepted
    cases accepted
  | ok next => exact HeaderPhase.isHeader_of_accept found

/-- A token that is accepted is accepted where headers are left out, and the game differs in its
headers alone. Directly behind a pair, a token of a header section has to open another one. -/
theorem accept_withoutHeaders
    (pairs : draft.IsBehindPair → token.kind.isHeader = true → token.kind = .headerBegin) :
    Within Step.withoutHeaders (draft.accept config token)
      (draft.withoutHeaders.accept config.withoutHeaders token) := by
  have phase : draft.withoutHeaders.commentPhase = draft.commentPhase := rfl
  unfold accept
  rw [phase]
  simp only [addComment_withoutHeaders]
  cases idle : draft.commentPhase with
  | idle =>
    have inside := @acceptStage_withoutHeaders config _ _ idle pairs
    by_cases takes : draft.takesComments = draft.withoutHeaders.takesComments
    · rw [← takes]
      exact .ite (fun _ => .ok _) fun _ => .ite (fun _ => .ok _) fun _ => inside
    · obtain ⟨phase, stage, within⟩ := stage_of_takesComments takes
      have none : ¬ draft.takesComments = true := by
        rw [takesComments, stage]
        simpa using within
      have other {kind : TokenKind} (outside : kind.isHeader = false)
          (header : token.kind.isHeader = true) : ¬ token.kind = kind := by
        intro told
        rw [told, outside] at header
        cases header
      intro step accepted
      dsimp only at accepted ⊢
      rw [if_neg fun brace => none brace.2, if_neg fun line => none line.2] at accepted
      have header := isHeader_of_acceptStage stage within accepted
      rw [if_neg fun brace => other rfl header brace.1, if_neg fun line => other rfl header line.1]
      exact inside step accepted
  | opened =>
    exact .ite (fun _ => .ok _) fun _ => .ite (fun _ => .ok _) fun _ => .refused _ _
  | filled text => exact .ite (fun _ => .ok _) fun _ => .refused _ _

/-! No header pair is completed behind the header section. -/

theorem not_onward_of_finish {later : Draft} {line : Line} :
    draft.finish line token ≠ .ok (.onward later) := by
  unfold finish
  split <;> nofun

theorem stage_of_acceptLeftOut {later : Draft}
    (accepted : draft.acceptLeftOut token = .ok (.onward later)) :
    later.stage ≠ .header .complete := by
  unfold acceptLeftOut at accepted
  split at accepted
  · exact absurd accepted not_onward_of_finish
  · cases accepted
    nofun

theorem stage_of_acceptMoves {later : Draft} {moves : MovesDraft}
    (accepted : draft.acceptMoves config moves token = .ok (.onward later)) :
    later.stage ≠ .header .complete := by
  unfold acceptMoves at accepted
  split at accepted
  · cases accepted
  · cases accepted
    nofun
  · exact absurd accepted not_onward_of_finish

theorem stage_of_acceptOpening {later : Draft}
    (accepted : draft.acceptOpening config token = .ok (.onward later)) :
    later.stage ≠ .header .complete := by
  unfold acceptOpening at accepted
  split at accepted
  · exact stage_of_acceptLeftOut accepted
  · exact stage_of_acceptMoves accepted

theorem stage_of_acceptPreface {later : Draft}
    (accepted : draft.acceptPreface config token = .ok (.onward later)) :
    later.stage ≠ .header .complete := by
  unfold acceptPreface at accepted
  split at accepted
  · split at accepted
    · cases accepted
      nofun
    · cases accepted
      nofun
  · exact stage_of_acceptOpening accepted

theorem headerEnd_of_acceptStage {later : Draft}
    (accepted : draft.acceptStage config token = .ok (.onward later))
    (behind : later.stage = .header .complete) : token.kind = .headerEnd := by
  unfold acceptStage at accepted
  split at accepted
  · split at accepted
    · exact absurd behind (stage_of_acceptPreface accepted)
    · cases accepted
  · exact absurd behind (stage_of_acceptPreface accepted)
  · split at accepted
    · exact absurd behind (stage_of_acceptOpening accepted)
    · next phase _ _ =>
      unfold acceptHeader at accepted
      cases found : phase.accept config token with
      | error error =>
        rw [found] at accepted
        cases accepted
      | ok next =>
        rw [found] at accepted
        cases accepted
        cases behind
        exact HeaderPhase.headerEnd_of_accept found
  · next stage =>
    split at accepted
    · cases accepted
      rw [stage] at behind
      cases behind
    · exact absurd behind (stage_of_acceptOpening accepted)
  · exact absurd behind (stage_of_acceptOpening accepted)
  · exact absurd behind (stage_of_acceptMoves accepted)
  · exact absurd behind (stage_of_acceptLeftOut accepted)

/-- A header pair is completed by a closing bracket. -/
theorem headerEnd_of_isBehindPair {later : Draft}
    (accepted : draft.accept config token = .ok (.onward later)) (behind : later.IsBehindPair) :
    token.kind = .headerEnd := by
  have stages (text : Bytes) : (draft.addComment config text).stage ≠ .header .complete := by
    obtain ⟨headers, comment, commentPhase, stage⟩ := draft
    cases stage <;> nofun
  unfold accept at accepted
  split at accepted
  · split at accepted
    · cases accepted
      cases behind.1
    · split at accepted
      · cases accepted
        exact absurd behind.2 (stages _)
      · exact headerEnd_of_acceptStage accepted behind.2
  · split at accepted
    · cases accepted
      exact absurd behind.2 (stages _)
    · split at accepted
      · cases accepted
        cases behind.1
      · cases accepted
  · split at accepted
    · cases accepted
      exact absurd behind.2 (stages _)
    · cases accepted

end Headers

end Draft

theorem Config.carries_withoutHeaders (config : Config) :
    config.Carries Game.withoutHeaders config.withoutHeaders := by
  -- Behind a pair the token before was the closing bracket, so the next one can open a pair only.
  let fine (draft : Draft) (tokens : List Token) : Prop :=
    ∃ previous, (draft.IsBehindPair → previous = .headerEnd) ∧ OpenPairs previous tokens
  intro lexer game finished
  refine @Draft.judge_of_within config config.withoutHeaders Draft.withoutHeaders
    Game.withoutHeaders fine ?_ ?_ .start _ _ ?_ finished
  · rintro draft token rest ⟨previous, behind, pairs⟩
    exact Draft.accept_withoutHeaders fun pair => pairs.1 (behind pair)
  · rintro draft later token rest ⟨previous, behind, pairs⟩ accepted
    exact ⟨token.kind, Draft.headerEnd_of_isBehindPair accepted, pairs.2⟩
  · exact ⟨.undefined, fun pair => (by cases pair.2), lexer.openPairs_segment⟩

end Scoresheet
