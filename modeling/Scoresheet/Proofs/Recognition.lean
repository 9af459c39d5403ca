/-
This file shows that whatever derives from the grammar is read as what it stands for. Each phrase
takes a line from one state to another, wherever in the movetext the line is, and a derivation is
followed phrase by phrase. The settings tolerate what the grammar allows and leave nothing out that
it speaks of.
-/

import Scoresheet.Proofs.Gathering
import Scoresheet.Proofs.Verdicts

namespace Scoresheet

/-- The settings under which the grammar is read: nothing tolerated is refused, an annotation that
means nothing is kept as the code zero, and neither headers nor moves are left out. -/
structure Config.IsLenient (config : Config) : Prop where
  strict : config.strict = false
  nags : config.nullOnInvalidNag = true
  headers : config.skip.headers = false
  moves : config.skip.moves = false

namespace Grammar

/-- Every move number is written with digits. -/
def Written (tokens : List Token) : Prop :=
  ∀ token ∈ tokens, token.kind = .moveNumber →
    token.text ≠ [] ∧ token.text.all Ascii.isDigit = true

theorem Written.left {first second : List Token} (written : Written (first ++ second)) :
    Written first :=
  fun token member => written token (List.mem_append_left second member)

theorem Written.right {first second : List Token} (written : Written (first ++ second)) :
    Written second :=
  fun token member => written token (List.mem_append_right first member)

theorem Written.tail {first : Token} {tokens : List Token} (written : Written (first :: tokens)) :
    Written tokens :=
  fun token member => written token (List.mem_cons_of_mem first member)

/-- Where a line is read: it is the main line, or the line of the innermost open variation. -/
inductive Site where
  | main
  | branch (depth : Nat) (leading : Option Bytes) (mainLine : LineDraft) (outer : List Branch)

/-- The movetext in which the line is read at the site. -/
def Site.moves (site : Site) (line : LineDraft) : MovesDraft :=
  match site with
  | .main => ⟨line, []⟩
  | .branch depth leading mainLine outer => ⟨mainLine, ⟨depth, .moves, leading, line⟩ :: outer⟩

/-- The part of a game in front of its movetext. -/
structure Front where
  headers : Option (List HeaderPair)
  comment : Option Bytes

/-- A game whose movetext is under way. -/
def Front.draft (front : Front) (moves : MovesDraft) : Draft :=
  ⟨front.headers, front.comment, .idle, .moves moves⟩

variable {config : Config} {front : Front} {site : Site} {line next : LineDraft} {token : Token}
  {tokens : List Token} {turns : List Turn}

/-! ### One token of a line -/

/-- Outside comments a token that begins none is the business of the stage. -/
theorem accept_of_idle {draft : Draft} (idle : draft.commentPhase = .idle)
    (noBrace : token.kind ≠ .commentBegin) (noLine : token.kind ≠ .lineComment) :
    draft.accept config token = draft.acceptStage config token := by
  unfold Draft.accept
  simp only [idle, noBrace, noLine, false_and, if_false]

theorem accept_of_moves {moves later : MovesDraft} (noBrace : token.kind ≠ .commentBegin)
    (noLine : token.kind ≠ .lineComment)
    (onward : moves.accept config token = .ok (.onward later)) :
    (front.draft moves).accept config token = .ok (.onward (front.draft later)) := by
  have idle : (front.draft moves).commentPhase = .idle := rfl
  rw [accept_of_idle idle noBrace noLine]
  show (front.draft moves).acceptMoves config moves token = _
  unfold Draft.acceptMoves
  rw [onward]
  rfl

/-- Behind the opening parentheses a branch leaves the token to its line. -/
theorem branch_accept_of_onward {branch : Branch} (behind : branch.lead ≠ .parens)
    (onward : branch.line.accept config token = .ok (.onward next)) :
    branch.accept config token = .ok (.onward { branch with lead := .moves, line := next }) := by
  unfold Branch.accept
  rw [if_neg fun opening => behind opening.1, onward]

theorem branch_accept_of_branch {branch : Branch} (behind : branch.lead ≠ .parens)
    (opens : branch.line.accept config token = .ok .branch) :
    branch.accept config token = .ok .branch := by
  unfold Branch.accept
  rw [if_neg fun opening => behind opening.1, opens]

theorem Site.accept_of_onward (onward : line.accept config token = .ok (.onward next)) :
    (site.moves line).accept config token = .ok (.onward (site.moves next)) := by
  unfold MovesDraft.accept
  cases site with
  | main =>
    dsimp only [Site.moves]
    rw [onward]
  | branch depth leading mainLine outer =>
    dsimp only [Site.moves]
    rw [branch_accept_of_onward (fun parens => by cases parens) onward]

theorem Site.accept_of_branch (opens : line.accept config token = .ok .branch) :
    (site.moves line).accept config token =
      .ok (.onward ⟨(site.moves line).main, .start :: (site.moves line).branches⟩) := by
  unfold MovesDraft.accept
  cases site with
  | main =>
    dsimp only [Site.moves]
    rw [opens]
  | branch depth leading mainLine outer =>
    dsimp only [Site.moves]
    rw [branch_accept_of_branch (fun parens => by cases parens) opens]

/-- A token that is no comment and takes the line on. -/
theorem judge_of_onward (noBrace : token.kind ≠ .commentBegin) (noLine : token.kind ≠ .lineComment)
    (onward : line.accept config token = .ok (.onward next)) :
    (front.draft (site.moves line)).judge config [token] =
      .unfinished (front.draft (site.moves next)) :=
  Draft.judge_cons_of_onward (accept_of_moves noBrace noLine (Site.accept_of_onward onward))

/-! ### Comments -/

/-- How far a comment has been read makes no difference to where it is added. -/
theorem addComment_commentPhase (config : Config) (text : Bytes) (draft : Draft)
    (phase : CommentPhase) :
    Draft.addComment config text { draft with commentPhase := phase } =
      { draft.addComment config text with commentPhase := phase } := by
  obtain ⟨headers, comment, _, stage⟩ := draft
  cases stage <;> rfl

/-- Where comments are taken, one is read and added. -/
theorem judge_remark {draft : Draft} {text : Bytes} (remark : Remark tokens text)
    (idle : draft.commentPhase = .idle) (takes : draft.takesComments = true) :
    draft.judge config tokens = .unfinished (draft.addComment config text) := by
  have unchanged (text : Bytes) :
      { draft.addComment config text with commentPhase := .idle } = draft.addComment config text := by
    rw [← addComment_commentPhase, ← idle]
  have opened {opening : Token} (kind : opening.kind = .commentBegin) :
      draft.accept config opening = .ok (.onward { draft with commentPhase := .opened }) := by
    simp [Draft.accept, idle, takes, kind]
  cases remark with
  | @line token kind =>
    refine Draft.judge_cons_of_onward ?_
    simp [Draft.accept, idle, takes, kind]
  | empty begins ends =>
    rw [Draft.judge_cons_of_onward (opened begins)]
    refine Draft.judge_cons_of_onward ?_
    simp [Draft.accept, ends, addComment_commentPhase, unchanged]
  | @braced opening comment closing begins inside ends =>
    have filled : Draft.accept config { draft with commentPhase := .opened } comment =
        .ok (.onward { draft with commentPhase := .filled comment.text }) := by
      simp [Draft.accept, inside]
    rw [Draft.judge_cons_of_onward (opened begins), Draft.judge_cons_of_onward filled]
    refine Draft.judge_cons_of_onward ?_
    simp [Draft.accept, ends, addComment_commentPhase, unchanged]

/-! ### Lines behind a move and between turns -/

/-- The phases of a turn behind a move, which may still grow. -/
inductive Behind : (MoveDraft → TurnPhase) → Prop where
  | white (number : UInt32) (digits : Bytes) : Behind (.white number digits)
  | black (number : UInt32) (white : Option Move) : Behind (.black number white)

section Behind

variable {phase : MoveDraft → TurnPhase} {move : MoveDraft}

theorem Behind.takesComments (behind : Behind phase) :
    (front.draft (site.moves ⟨turns, phase move⟩)).takesComments = true := by
  cases behind <;> cases site <;> rfl

theorem Behind.addComment (behind : Behind phase) (text : Bytes) :
    (front.draft (site.moves ⟨turns, phase move⟩)).addComment config text =
      front.draft (site.moves ⟨turns, phase (move.addComment config text)⟩) := by
  cases behind <;> cases site <;> rfl

theorem Behind.addVariation (behind : Behind phase) (line : Line) :
    (site.moves ⟨turns, phase move⟩).addVariation config line =
      site.moves ⟨turns, phase (move.addVariation config line)⟩ := by
  cases behind <;> cases site <;> rfl

theorem annotate_of_lenient (lenient : config.IsLenient) (token : Token) (move : MoveDraft) :
    move.annotate config token = .ok (move.note config token.text) := by
  rcases MoveDraft.annotate_eq_note_or config token move with noted | ⟨strict, _⟩
  · exact noted
  · rw [lenient.nags] at strict
    cases strict

theorem Behind.accept_nag (lenient : config.IsLenient) (behind : Behind phase)
    (kind : token.kind = .nag) :
    LineDraft.accept config ⟨turns, phase move⟩ token =
      .ok (.onward ⟨turns, phase (move.note config token.text)⟩) := by
  cases behind <;> simp [LineDraft.accept, kind, annotate_of_lenient lenient, Except.bind]

theorem Behind.accept_variation (behind : Behind phase) (kind : token.kind = .variationBegin) :
    LineDraft.accept config ⟨turns, phase move⟩ token = .ok .branch := by
  cases behind <;> simp [LineDraft.accept, kind]

end Behind

/-- A line between turns, or behind a move of black that may be the last of its turn, with the turns
that are complete then. -/
inductive AtTurn (config : Config) : LineDraft → List Turn → Prop where
  | rest (turns : List Turn) : AtTurn config ⟨turns, .rest⟩ turns
  | black (turns : List Turn) (number : UInt32) (white : Option Move) (move : MoveDraft) :
      AtTurn config ⟨turns, .black number white move⟩
        (LineDraft.blackTurn number white (move.finish config) :: turns)

/-- A line that can end where it is, with its turns. -/
inductive Settled (config : Config) : LineDraft → List Turn → Prop where
  | turn {line : LineDraft} {turns : List Turn} (between : AtTurn config line turns) :
      Settled config line turns
  | white (turns : List Turn) (number : UInt32) (digits : Bytes) (move : MoveDraft) :
      Settled config ⟨turns, .white number digits move⟩
        (.whiteOnly number (move.finish config) :: turns)

theorem acceptAtRest_number (tolerant : config.strict = false) (kind : token.kind = .moveNumber)
    (digits : token.text ≠ [] ∧ token.text.all Ascii.isDigit = true) :
    LineDraft.acceptAtRest config turns token =
      .ok (.onward ⟨turns, .numbered (number token.text) token.text⟩) := by
  have read : Bytes.number? LineDraft.largestNumber token.text =
      some (Bytes.boundedNumber LineDraft.largestNumber token.text) := if_pos digits
  unfold LineDraft.acceptAtRest
  rw [if_pos kind, read]
  simp [tolerant, ofNat_boundedNumber]

theorem AtTurn.accept_number (tolerant : config.strict = false) (between : AtTurn config line turns)
    (kind : token.kind = .moveNumber)
    (digits : token.text ≠ [] ∧ token.text.all Ascii.isDigit = true) :
    line.accept config token = .ok (.onward ⟨turns, .numbered (number token.text) token.text⟩) := by
  have fresh := @acceptAtRest_number config token
  cases between with
  | rest turns => exact fresh tolerant kind digits
  | black before number white move =>
    unfold LineDraft.accept
    simp only [kind]
    exact fresh tolerant kind digits

/-- Where a line can end, a termination marker and a closing parenthesis end it. -/
theorem Settled.accept_end (settled : Settled config line turns)
    (kind : token.kind = .termination ∨ token.kind = .variationEnd) :
    line.accept config token = .ok (.ended turns) := by
  have rest (turns : List Turn) :
      LineDraft.acceptAtRest config turns token = .ok (.ended turns) := by
    unfold LineDraft.acceptAtRest
    rw [if_neg (by rcases kind with kind | kind <;> simp [kind])]
  cases settled with
  | turn between =>
    cases between with
    | rest turns => exact rest turns
    | black before number white move =>
      rcases kind with kind | kind <;> simp only [LineDraft.accept, kind] <;> exact rest _
  | white before number digits move =>
    rcases kind with kind | kind <;> simp only [LineDraft.accept, kind] <;> exact rest _

/-! ### Variations -/

/-- The movetext in front of an open variation, and the variation on top of it. -/
def within (moves : MovesDraft) (branch : Branch) : MovesDraft :=
  ⟨moves.main, branch :: moves.branches⟩

/-- Behind its first parenthesis a variation takes in further ones. -/
theorem judge_opening {moves : MovesDraft} {depth : Nat} {opening : List Token}
    (opens : ∀ token ∈ opening, token.kind = .variationBegin) :
    (front.draft (within moves ⟨depth, .parens, none, .start⟩)).judge config opening =
      .unfinished (front.draft
        (within moves ⟨depth + opening.length, .parens, none, .start⟩)) := by
  induction opening generalizing depth with
  | nil => rfl
  | cons token rest inductionHypothesis =>
    have kind := opens token List.mem_cons_self
    have deeper : (within moves ⟨depth, .parens, none, .start⟩).accept config token =
        .ok (.onward (within moves ⟨depth + 1, .parens, none, .start⟩)) := by
      simp [within, MovesDraft.accept, Branch.accept, kind]
    rw [Draft.judge_cons_of_onward (accept_of_moves (by simp [kind]) (by simp [kind]) deeper),
      inductionHypothesis fun token member => opens token (List.mem_cons_of_mem _ member),
      List.length_cons, Nat.add_assoc, Nat.add_comm 1]

/-- What a variation has begun with, once comments were read behind its parentheses. -/
def leadOf (texts : List Bytes) : Lead := if texts = [] then .parens else .comments

theorem judge_leading {moves : MovesDraft} {depth : Nat} {leading : List Token}
    {texts : List Bytes} (comments : Many Remark leading texts) :
    (front.draft (within moves ⟨depth, .parens, none, .start⟩)).judge config leading =
      .unfinished (front.draft
        (within moves ⟨depth, leadOf texts, Comment.joined config texts, .start⟩)) := by
  induction comments with
  | none =>
    rw [Comment.joined_nil]
    rfl
  | @more tokens last texts text before next inductionHypothesis =>
    rw [Draft.judge_append_of_unfinished inductionHypothesis]
    have takes : (front.draft (within moves
        ⟨depth, leadOf texts, Comment.joined config texts, .start⟩)).takesComments = true := by
      unfold leadOf
      split <;> rfl
    rw [judge_remark next rfl takes, ← Comment.add_joined]
    unfold leadOf
    rw [if_neg (by simp : texts ++ [text] ≠ [])]
    split <;> rfl

theorem acceptAtRest_ne_branch : LineDraft.acceptAtRest config turns token ≠ .ok .branch := by
  unfold LineDraft.acceptAtRest
  repeat' split
  all_goals simp

section Congr

variable {other : LineDraft} {moves : MovesDraft} {depth : Nat} {lead : Lead}
  {leading : Option Bytes}

/-- Behind its parentheses a branch does what its line does, however it has begun. -/
theorem branch_accept_congr (closed : lead = .parens → token.kind ≠ .variationBegin)
    (same : line.accept config token = other.accept config token) :
    Branch.accept config ⟨depth, lead, leading, line⟩ token =
      Branch.accept config ⟨depth, .moves, leading, other⟩ token := by
  unfold Branch.accept
  rw [if_neg fun opening => closed opening.1 opening.2, if_neg fun opening => nomatch opening.1]
  dsimp only
  rw [same]
  rfl

theorem branch_accept_ne_branch (noBranch : line.accept config token ≠ .ok .branch) :
    Branch.accept config ⟨depth, .moves, leading, line⟩ token ≠ .ok .branch := by
  unfold Branch.accept
  rw [if_neg fun opening => nomatch opening.1]
  dsimp only
  split
  · nofun
  · nofun
  · next opens => exact absurd opens noBranch
  · repeat' split
    all_goals nofun

/-- Lines that do the same with a token do so wherever they are read, unless it opens a variation.
-/
theorem Site.accept_congr (same : line.accept config token = other.accept config token)
    (noBranch : other.accept config token ≠ .ok .branch) :
    (site.moves line).accept config token = (site.moves other).accept config token := by
  unfold MovesDraft.accept
  cases site with
  | main =>
    dsimp only [Site.moves]
    rw [same]
    split
    · rfl
    · rfl
    · next opens => exact absurd opens noBranch
    · rfl
  | branch depth leading mainLine outer =>
    dsimp only [Site.moves]
    have inner : Branch.accept config ⟨depth, .moves, leading, line⟩ token =
        Branch.accept config ⟨depth, .moves, leading, other⟩ token :=
      branch_accept_congr nofun same
    rw [inner]
    split
    · rfl
    · rfl
    · next opens => exact absurd opens (branch_accept_ne_branch noBranch)
    · rfl

/-- The same of the games they belong to. -/
theorem accept_congr (noBrace : token.kind ≠ .commentBegin) (noLine : token.kind ≠ .lineComment)
    (same : line.accept config token = other.accept config token)
    (noBranch : other.accept config token ≠ .ok .branch) :
    (front.draft (site.moves line)).accept config token =
      (front.draft (site.moves other)).accept config token := by
  rw [accept_of_idle rfl noBrace noLine, accept_of_idle rfl noBrace noLine]
  show Draft.acceptMoves config _ (site.moves line) token =
    Draft.acceptMoves config _ (site.moves other) token
  unfold Draft.acceptMoves
  rw [Site.accept_congr same noBranch]
  rfl

/-- In front of its first turn a variation is read as it is behind it. -/
theorem accept_of_lead (noBrace : token.kind ≠ .commentBegin) (noLine : token.kind ≠ .lineComment)
    (closed : lead = .parens → token.kind ≠ .variationBegin) :
    (front.draft (within moves ⟨depth, lead, leading, .start⟩)).accept config token =
      (front.draft (within moves ⟨depth, .moves, leading, .start⟩)).accept config token := by
  have branch : Branch.accept config ⟨depth, lead, leading, .start⟩ token =
      Branch.accept config ⟨depth, .moves, leading, .start⟩ token :=
    branch_accept_congr closed rfl
  have noVariation : Branch.accept config ⟨depth, .moves, leading, .start⟩ token ≠
      .ok .branch := branch_accept_ne_branch acceptAtRest_ne_branch
  rw [accept_of_idle rfl noBrace noLine, accept_of_idle rfl noBrace noLine]
  show Draft.acceptMoves config _ (within moves ⟨depth, lead, leading, .start⟩) token =
    Draft.acceptMoves config _ (within moves ⟨depth, .moves, leading, .start⟩) token
  unfold Draft.acceptMoves MovesDraft.accept
  dsimp only [within]
  rw [branch]
  cases result : Branch.accept config ⟨depth, .moves, leading, .start⟩ token with
  | error error => rfl
  | ok step =>
    cases step with
    | branch => exact absurd result noVariation
    | onward branch => rfl
    | closed line => rfl

end Congr

section Closing

variable {mainLine : LineDraft} {depth : Nat} {leading : Option Bytes} {outer : List Branch}

/-- A closing parenthesis that is not the last. -/
theorem accept_closing (settled : Settled config line turns) (kind : token.kind = .variationEnd)
    (inside : 0 < depth) :
    (front.draft (Site.moves (.branch (depth + 1) leading mainLine outer) line)).accept config
        token =
      .ok (.onward (front.draft (Site.moves (.branch depth leading mainLine outer)
        ⟨turns, .rest⟩))) := by
  refine accept_of_moves (by simp [kind]) (by simp [kind]) ?_
  have many : ¬ depth + 1 ≤ 1 := by omega
  simp [Site.moves, MovesDraft.accept, Branch.accept, settled.accept_end (.inr kind), kind, many]

/-- The last closing parenthesis. -/
theorem accept_last_closing (settled : Settled config line turns)
    (kind : token.kind = .variationEnd) :
    (front.draft (Site.moves (.branch 1 leading mainLine outer) line)).accept config token =
      .ok (.onward (front.draft
        (MovesDraft.addVariation config (led leading turns.reverse) ⟨mainLine, outer⟩))) := by
  refine accept_of_moves (by simp [kind]) (by simp [kind]) ?_
  simp [Site.moves, MovesDraft.accept, Branch.accept, settled.accept_end (.inr kind), kind,
    finish_eq_led]

end Closing

/-! ### Phrases -/

/-- What the tokens do to a line that is read at any site in any game, if they derive from the
phrase. -/
def Phrase.Runs (config : Config) (tokens : List Token) : Phrase → Prop
  | .items marks remarks asides => ∀ (front : Front) (site : Site) (turns : List Turn)
      (phase : MoveDraft → TurnPhase) (move : MoveDraft), Behind phase →
      (front.draft (site.moves ⟨turns, phase move⟩)).judge config tokens =
        .unfinished (front.draft
          (site.moves ⟨turns, phase (move.followed config marks remarks asides)⟩))
  | .half told move => ∀ (front : Front) (site : Site) (line : LineDraft) (turns : List Turn)
      (phase : MoveDraft → TurnPhase), Behind phase →
      (∀ token : Token, token.kind = told → line.accept config token =
        .ok (.onward ⟨turns, phase (.start config token.text)⟩)) →
      ∃ last, MoveDraft.finish config last = move ∧
        (front.draft (site.moves line)).judge config tokens =
          .unfinished (front.draft (site.moves ⟨turns, phase last⟩))
  | .lead number white told => ∀ (front : Front) (site : Site) (line : LineDraft)
      (turns : List Turn), AtTurn config line turns → ∃ next : LineDraft,
        (∀ token : Token, token.kind = told → next.accept config token =
          .ok (.onward ⟨turns, .black number white (.start config token.text)⟩)) ∧
        (front.draft (site.moves line)).judge config tokens =
          .unfinished (front.draft (site.moves next))
  | .turn last => ∀ (front : Front) (site : Site) (line : LineDraft) (turns : List Turn),
      AtTurn config line turns → ∃ next, AtTurn config next (last :: turns) ∧
        (front.draft (site.moves line)).judge config tokens =
          .unfinished (front.draft (site.moves next))
  | .turns more => ∀ (front : Front) (site : Site) (line : LineDraft) (turns : List Turn),
      AtTurn config line turns → ∃ next, AtTurn config next (more.reverse ++ turns) ∧
        (front.draft (site.moves line)).judge config tokens =
          .unfinished (front.draft (site.moves next))
  | .sequence more => ∀ (front : Front) (site : Site) (line : LineDraft) (turns : List Turn),
      AtTurn config line turns → ∃ next, Settled config next (more.reverse ++ turns) ∧
        (front.draft (site.moves line)).judge config tokens =
          .unfinished (front.draft (site.moves next))
  | .bodies count more => ∀ (front : Front) (leading : Option Bytes) (mainLine : LineDraft)
      (outer : List Branch) (line : LineDraft) (turns : List Turn), AtTurn config line turns →
      (∀ depth, 0 < depth → ∃ next, AtTurn config next (more.reverse ++ turns) ∧
        (front.draft (Site.moves (.branch (depth + count) leading mainLine outer) line)).judge
            config tokens =
          .unfinished (front.draft (Site.moves (.branch depth leading mainLine outer) next))) ∧
      (0 < count →
        (front.draft (Site.moves (.branch count leading mainLine outer) line)).judge config
            tokens =
          .unfinished (front.draft (MovesDraft.addVariation config
            (led leading (more.reverse ++ turns).reverse) ⟨mainLine, outer⟩)))
  | .variation line => ∀ (front : Front) (site : Site) (turns : List Turn)
      (phase : MoveDraft → TurnPhase) (move : MoveDraft), Behind phase →
      (front.draft (site.moves ⟨turns, phase move⟩)).judge config tokens =
        .unfinished (front.draft
          (site.moves ⟨turns, phase (move.addVariation config line)⟩))

section Productions

variable {last : List Token} {marks remarks : List Bytes} {asides : List Line} {told : TokenKind}

theorem runs_noItems : Phrase.Runs config [] (.items [] [] []) := by
  intro front site turns phase move behind
  rw [MoveDraft.followed_nil]
  rfl

theorem runs_nag (lenient : config.IsLenient)
    (before : Phrase.Runs config tokens (.items marks remarks asides)) (kind : token.kind = .nag) :
    Phrase.Runs config (tokens ++ [token]) (.items (marks ++ [token.text]) remarks asides) := by
  intro front site turns phase move behind
  rw [Draft.judge_append_of_unfinished (before front site turns phase move behind),
    ← MoveDraft.note_followed]
  exact judge_of_onward (by simp [kind]) (by simp [kind]) (behind.accept_nag lenient kind)

theorem runs_remark {text : Bytes}
    (before : Phrase.Runs config tokens (.items marks remarks asides)) (next : Remark last text) :
    Phrase.Runs config (tokens ++ last) (.items marks (remarks ++ [text]) asides) := by
  intro front site turns phase move behind
  rw [Draft.judge_append_of_unfinished (before front site turns phase move behind),
    judge_remark next rfl behind.takesComments, behind.addComment, MoveDraft.addComment_followed]

theorem runs_aside {line : Line}
    (before : Phrase.Runs config tokens (.items marks remarks asides))
    (next : Phrase.Runs config last (.variation line)) :
    Phrase.Runs config (tokens ++ last) (.items marks remarks (asides ++ [line])) := by
  intro front site turns phase move behind
  rw [Draft.judge_append_of_unfinished (before front site turns phase move behind),
    ← MoveDraft.addVariation_followed]
  exact next front site turns phase _ behind

theorem runs_half (moves : told = .whiteMove ∨ told = .blackMove) (kind : token.kind = told)
    (followed : Phrase.Runs config tokens (.items marks remarks asides)) :
    Phrase.Runs config (token :: tokens)
      (.half told (.composed config token.text marks remarks asides)) := by
  intro front site line turns phase behind begins
  have noBrace : token.kind ≠ .commentBegin := by rcases moves with rfl | rfl <;> simp [kind]
  have noLine : token.kind ≠ .lineComment := by rcases moves with rfl | rfl <;> simp [kind]
  refine ⟨_, MoveDraft.finish_followed config token.text marks remarks asides, ?_⟩
  rw [← List.singleton_append, Draft.judge_append_of_unfinished
    (judge_of_onward noBrace noLine (begins token kind))]
  exact followed front site turns phase _ behind

/-- A number, a dot and the move of white. -/
theorem runs_white {first dot : Token} {white : List Token} {move : Move}
    (lenient : config.IsLenient) (numbered : first.kind = .moveNumber) (dotted : dot.kind = .dot)
    (digits : first.text ≠ [] ∧ first.text.all Ascii.isDigit = true)
    (moved : Phrase.Runs config white (.half .whiteMove move)) (between : AtTurn config line turns)
    (front : Front) (site : Site) :
    ∃ last, MoveDraft.finish config last = move ∧
      (front.draft (site.moves line)).judge config (first :: dot :: white) =
        .unfinished (front.draft
          (site.moves ⟨turns, .white (number first.text) first.text last⟩)) := by
  have start := between.accept_number lenient.strict numbered digits
  have behindNumber :
      LineDraft.accept config ⟨turns, .numbered (number first.text) first.text⟩ dot =
        .ok (.onward ⟨turns, .dotted (number first.text) first.text⟩) := by
    simp [LineDraft.accept, dotted]
  obtain ⟨last, finished, read⟩ := moved front site
    ⟨turns, .dotted (number first.text) first.text⟩ turns (.white (number first.text) first.text)
    (.white _ _) fun token kind => by simp [LineDraft.accept, kind]
  refine ⟨last, finished, ?_⟩
  rw [← List.singleton_append, Draft.judge_append_of_unfinished
      (judge_of_onward (by simp [numbered]) (by simp [numbered]) start),
    ← List.singleton_append, Draft.judge_append_of_unfinished
      (judge_of_onward (by simp [dotted]) (by simp [dotted]) behindNumber)]
  exact read

theorem runs_direct {first dot : Token} {white : List Token} {move : Move}
    (lenient : config.IsLenient) (written : Written (first :: dot :: white))
    (numbered : first.kind = .moveNumber) (dotted : dot.kind = .dot)
    (moved : Phrase.Runs config white (.half .whiteMove move)) :
    Phrase.Runs config (first :: dot :: white)
      (.lead (number first.text) (some move) .blackMove) := by
  intro front site line turns between
  have digits := written first List.mem_cons_self numbered
  obtain ⟨last, rfl, read⟩ := runs_white lenient numbered dotted digits moved between front site
  exact ⟨_, fun token kind => by simp [LineDraft.accept, kind], read⟩

/-- A repeated number behind the move of white. -/
theorem accept_again {again : Token} {digits : Bytes} {move : MoveDraft}
    (lenient : config.IsLenient) (kind : again.kind = .moveNumber) :
    LineDraft.accept config ⟨turns, .white (number token.text) digits move⟩ again =
      .ok (.onward ⟨turns, .renumbered (number token.text) (move.finish config)
        (again.text == digits)⟩) := by
  by_cases same : again.text = digits
  · simp [LineDraft.accept, kind, same]
  · have differ : (again.text == digits) = false := beq_eq_false_iff_ne.mpr same
    simp [LineDraft.accept, kind, same, differ, lenient.strict]

theorem runs_deferred {first dot again ellipsis : Token} {white : List Token} {move : Move}
    (lenient : config.IsLenient) (written : Written (first :: dot :: white ++ [again, ellipsis]))
    (numbered : first.kind = .moveNumber) (dotted : dot.kind = .dot)
    (moved : Phrase.Runs config white (.half .whiteMove move))
    (renumbered : again.kind = .moveNumber) (skipped : ellipsis.kind = .ellipsis) :
    Phrase.Runs config (first :: dot :: white ++ [again, ellipsis])
      (.lead (number first.text) (some move) .blackMove) := by
  intro front site line turns between
  have digits := written first List.mem_cons_self numbered
  obtain ⟨last, rfl, read⟩ := runs_white lenient numbered dotted digits moved between front site
  refine ⟨⟨turns, .owed (number first.text) (some (last.finish config)) .black⟩,
    fun token kind => by simp [LineDraft.accept, kind, Side.moveKind], ?_⟩
  rw [Draft.judge_append_of_unfinished read, ← List.singleton_append,
    Draft.judge_append_of_unfinished (judge_of_onward (by simp [renumbered])
      (by simp [renumbered]) (accept_again lenient renumbered))]
  exact judge_of_onward (by simp [skipped]) (by simp [skipped])
    (by simp [LineDraft.accept, skipped])

theorem runs_repeated {first dot again secondDot : Token} {white : List Token} {move : Move}
    (lenient : config.IsLenient) (written : Written (first :: dot :: white ++ [again, secondDot]))
    (numbered : first.kind = .moveNumber) (dotted : dot.kind = .dot)
    (moved : Phrase.Runs config white (.half .whiteMove move))
    (renumbered : again.kind = .moveNumber) (same : again.text = first.text)
    (dottedAgain : secondDot.kind = .dot) :
    Phrase.Runs config (first :: dot :: white ++ [again, secondDot])
      (.lead (number first.text) (some move) .whiteMove) := by
  intro front site line turns between
  have digits := written first List.mem_cons_self numbered
  obtain ⟨last, rfl, read⟩ := runs_white lenient numbered dotted digits moved between front site
  refine ⟨⟨turns, .owed (number first.text) (some (last.finish config)) .white⟩,
    fun token kind => by simp [LineDraft.accept, kind, Side.moveKind], ?_⟩
  rw [Draft.judge_append_of_unfinished read, ← List.singleton_append,
    Draft.judge_append_of_unfinished (judge_of_onward (by simp [renumbered])
      (by simp [renumbered]) (accept_again lenient renumbered))]
  exact judge_of_onward (by simp [dottedAgain]) (by simp [dottedAgain])
    (by simp [LineDraft.accept, dottedAgain, same, lenient.strict])

theorem runs_skipping {first ellipsis : Token} {dots : List Token} {text : Bytes}
    (lenient : config.IsLenient) (written : Written (first :: dots ++ [ellipsis]))
    (numbered : first.kind = .moveNumber) (dotted : Optional .dot dots text)
    (skipped : ellipsis.kind = .ellipsis) :
    Phrase.Runs config (first :: dots ++ [ellipsis])
      (.lead (number first.text) none .blackMove) := by
  intro front site line turns between
  have digits := written first List.mem_cons_self numbered
  have start := between.accept_number lenient.strict numbered digits
  refine ⟨⟨turns, .owed (number first.text) none .black⟩,
    fun token kind => by simp [LineDraft.accept, kind, Side.moveKind], ?_⟩
  rw [List.cons_append, ← List.singleton_append, Draft.judge_append_of_unfinished
    (judge_of_onward (by simp [numbered]) (by simp [numbered]) start)]
  cases dotted with
  | absent =>
    exact judge_of_onward (by simp [skipped]) (by simp [skipped])
      (by simp [LineDraft.accept, skipped])
  | @present dot same =>
    have behindNumber :
        LineDraft.accept config ⟨turns, .numbered (number first.text) first.text⟩ dot =
          .ok (.onward ⟨turns, .dotted (number first.text) first.text⟩) := by
      simp [LineDraft.accept, same]
    rw [Draft.judge_append_of_unfinished
      (judge_of_onward (by simp [same]) (by simp [same]) behindNumber)]
    exact judge_of_onward (by simp [skipped]) (by simp [skipped])
      (by simp [LineDraft.accept, skipped, lenient.strict])

theorem runs_turn {number : UInt32} {white : Option Move} {black : Move}
    (led : Phrase.Runs config tokens (.lead number white told))
    (moved : Phrase.Runs config last (.half told black)) :
    Phrase.Runs config (tokens ++ last) (.turn (LineDraft.blackTurn number white black)) := by
  intro front site line turns between
  obtain ⟨middle, begins, read⟩ := led front site line turns between
  obtain ⟨final, rfl, readLast⟩ :=
    moved front site middle turns (.black number white) (.black _ _) begins
  refine ⟨⟨turns, .black number white final⟩, .black turns number white final, ?_⟩
  rw [Draft.judge_append_of_unfinished read, readLast]

theorem runs_moreTurns {line : Line} {turn : Turn} (before : Phrase.Runs config tokens (.turns line))
    (next : Phrase.Runs config last (.turn turn)) :
    Phrase.Runs config (tokens ++ last) (.turns (line ++ [turn])) := by
  intro front site start turns between
  obtain ⟨middle, betweenMiddle, read⟩ := before front site start turns between
  obtain ⟨final, betweenFinal, readLast⟩ := next front site middle _ betweenMiddle
  refine ⟨final, ?_, ?_⟩
  · rwa [List.reverse_append, List.reverse_singleton, List.singleton_append, List.cons_append]
  · rw [Draft.judge_append_of_unfinished read, readLast]

theorem runs_unanswered {line : Line} {first dot : Token} {white : List Token} {move : Move}
    (lenient : config.IsLenient) (written : Written (tokens ++ first :: dot :: white))
    (before : Phrase.Runs config tokens (.turns line)) (numbered : first.kind = .moveNumber)
    (dotted : dot.kind = .dot) (moved : Phrase.Runs config white (.half .whiteMove move)) :
    Phrase.Runs config (tokens ++ first :: dot :: white)
      (.sequence (line ++ [.whiteOnly (number first.text) move])) := by
  intro front site start turns between
  have digits := written.right first List.mem_cons_self numbered
  obtain ⟨middle, betweenMiddle, read⟩ := before front site start turns between
  obtain ⟨final, rfl, readLast⟩ :=
    runs_white lenient numbered dotted digits moved betweenMiddle front site
  refine ⟨_, ?_, (Draft.judge_append_of_unfinished read).trans readLast⟩
  rw [List.reverse_append, List.reverse_singleton, List.singleton_append, List.cons_append]
  exact .white _ _ _ final

theorem runs_moreBodies {count : Nat} {line more : Line} {closing : Token}
    (before : Phrase.Runs config tokens (.bodies count line))
    (next : Phrase.Runs config last (.sequence more)) (closes : closing.kind = .variationEnd) :
    Phrase.Runs config (tokens ++ last ++ [closing]) (.bodies (count + 1) (line ++ more)) := by
  intro front leading mainLine outer start turns between
  have readBodies := (before front leading mainLine outer start turns between).1
  have turnsEq : more.reverse ++ (line.reverse ++ turns) = (line ++ more).reverse ++ turns := by
    rw [List.reverse_append, List.append_assoc]
  have through (depth : Nat) (inside : 0 < depth) : ∃ final,
      Settled config final ((line ++ more).reverse ++ turns) ∧
        (front.draft (Site.moves (.branch (depth + count) leading mainLine outer) start)).judge
            config (tokens ++ last) =
          .unfinished (front.draft (Site.moves (.branch depth leading mainLine outer) final)) := by
    obtain ⟨middle, betweenMiddle, read⟩ := readBodies depth inside
    obtain ⟨final, settled, readLast⟩ :=
      next front (.branch depth leading mainLine outer) middle _ betweenMiddle
    exact ⟨final, turnsEq ▸ settled, (Draft.judge_append_of_unfinished read).trans readLast⟩
  constructor
  · intro depth inside
    obtain ⟨final, settled, read⟩ := through (depth + 1) (Nat.succ_pos depth)
    rw [Nat.add_right_comm] at read
    exact ⟨_, .rest _, (Draft.judge_append_of_unfinished read).trans
      (Draft.judge_cons_of_onward (accept_closing settled closes inside))⟩
  · intro _
    obtain ⟨final, settled, read⟩ := through 1 Nat.one_pos
    rw [Nat.add_comm] at read
    exact (Draft.judge_append_of_unfinished read).trans
      (Draft.judge_cons_of_onward (accept_last_closing settled closes))

/-- The tokens begin with a move number. -/
def Numbered (tokens : List Token) : Prop :=
  ∃ first rest, tokens = first :: rest ∧ first.kind = .moveNumber

/-- What the tokens of a phrase begin with, as far as it matters behind the lead of a variation. -/
def Phrase.Begins (tokens : List Token) : Phrase → Prop
  | .lead _ _ _ => Numbered tokens
  | .turn _ => Numbered tokens
  | .turns _ => tokens = [] ∨ Numbered tokens
  | .sequence _ => tokens = [] ∨ Numbered tokens
  | .bodies count _ => 0 < count → ∃ first rest, tokens = first :: rest ∧
      (first.kind = .moveNumber ∨ first.kind = .variationEnd)
  | _ => True

theorem Numbered.append (numbered : Numbered tokens) (last : List Token) :
    Numbered (tokens ++ last) := by
  obtain ⟨first, rest, rfl, kind⟩ := numbered
  exact ⟨first, rest ++ last, rfl, kind⟩

theorem begins_of_derives {phrase : Phrase} (derives : Derives config phrase tokens) :
    phrase.Begins tokens := by
  induction derives with
  | direct numbered => exact ⟨_, _, rfl, numbered⟩
  | deferred numbered => exact ⟨_, _, rfl, numbered⟩
  | repeated numbered => exact ⟨_, _, rfl, numbered⟩
  | skipping numbered => exact ⟨_, _, rfl, numbered⟩
  | both _ _ numbered => exact numbered.append _
  | blackOnly _ _ numbered => exact numbered.append _
  | noTurns => exact .inl rfl
  | moreTurns _ _ before next =>
    rcases before with rfl | numbered
    · exact .inr next
    · exact .inr (numbered.append _)
  | answered _ all => exact all
  | unanswered _ numbered _ _ before =>
    rcases before with rfl | begins
    · exact .inr ⟨_, _, rfl, numbered⟩
    · exact .inr (begins.append _)
  | noBodies => exact fun some => absurd some (Nat.lt_irrefl 0)
  | @moreBodies count line more tokens body closing before next closes beforeBegins nextBegins =>
    intro _
    by_cases some : 0 < count
    · obtain ⟨first, rest, rfl, kind⟩ := beforeBegins some
      exact ⟨first, rest ++ body ++ [closing], rfl, kind⟩
    · have none : count = 0 := Nat.eq_zero_of_not_pos some
      subst none
      cases before
      rcases nextBegins with rfl | ⟨first, rest, rfl, kind⟩
      · exact ⟨closing, [], rfl, .inr closes⟩
      · exact ⟨first, rest ++ [closing], rfl, .inl kind⟩
  | _ => trivial

theorem runs_variation {opening leading bodies : List Token} {texts : List Bytes} {line : Line}
    (opens : ∀ token ∈ opening, token.kind = .variationBegin) (some : opening ≠ [])
    (comments : Many Remark leading texts)
    (begins : (Phrase.bodies opening.length line).Begins bodies)
    (inner : Phrase.Runs config bodies (.bodies opening.length line)) :
    Phrase.Runs config (opening ++ leading ++ bodies)
      (.variation (led (Comment.joined config texts) line)) := by
  intro front site turns phase move behind
  obtain ⟨paren, opening, rfl⟩ := List.exists_cons_of_ne_nil some
  obtain ⟨first, rest, rfl, firstKind⟩ := begins (Nat.succ_pos _)
  have kind := opens paren List.mem_cons_self
  have pushed : (site.moves ⟨turns, phase move⟩).accept config paren =
      .ok (.onward (within (site.moves ⟨turns, phase move⟩) .start)) :=
    Site.accept_of_branch (behind.accept_variation kind)
  have deeper := @judge_opening config front (site.moves ⟨turns, phase move⟩) 1 opening
    fun token member => opens token (List.mem_cons_of_mem _ member)
  have led := @judge_leading config front (site.moves ⟨turns, phase move⟩)
    (1 + opening.length) _ _ comments
  have read := (inner front (Comment.joined config texts) (site.moves ⟨turns, phase move⟩).main
    (site.moves ⟨turns, phase move⟩).branches .start [] (.rest [])).2 (Nat.succ_pos _)
  rw [List.append_assoc, List.cons_append, Draft.judge_cons_of_onward
      (accept_of_moves (by simp [kind]) (by simp [kind]) pushed)]
  rw [show Branch.start = ⟨1, .parens, none, .start⟩ from rfl,
    Draft.judge_append_of_unfinished deeper, Draft.judge_append_of_unfinished led]
  rw [Draft.judge, accept_of_lead (by rcases firstKind with kind | kind <;> simp [kind])
    (by rcases firstKind with kind | kind <;> simp [kind])
    (fun _ => by rcases firstKind with kind | kind <;> simp [kind])]
  rw [← behind.addVariation]
  rw [List.length_cons, Nat.add_comm] at read
  rw [List.append_nil, List.reverse_reverse] at read
  exact read

end Productions

/-- Tokens that derive from a phrase do to a line what the phrase stands for. -/
theorem runs_of_derives (lenient : config.IsLenient) {phrase : Phrase}
    (derives : Derives config phrase tokens) (written : Written tokens) :
    phrase.Runs config tokens := by
  induction derives with
  | noItems => exact runs_noItems
  | nag _ kind before => exact runs_nag lenient (before written.left) kind
  | remark _ next before => exact runs_remark (before written.left) next
  | aside _ _ before next => exact runs_aside (before written.left) (next written.right)
  | half moves kind _ followed => exact runs_half moves kind (followed written.tail)
  | direct numbered dotted _ moved =>
    exact runs_direct lenient written numbered dotted (moved written.tail.tail)
  | deferred numbered dotted _ renumbered skipped moved =>
    exact runs_deferred lenient written numbered dotted (moved written.left.tail.tail) renumbered
      skipped
  | repeated numbered dotted _ renumbered same dottedAgain moved =>
    exact runs_repeated lenient written numbered dotted (moved written.left.tail.tail) renumbered
      same dottedAgain
  | skipping numbered dotted skipped =>
    exact runs_skipping lenient written numbered dotted skipped
  | both _ _ led moved => exact runs_turn (led written.left) (moved written.right)
  | blackOnly _ _ led moved => exact runs_turn (led written.left) (moved written.right)
  | noTurns => exact fun _ _ line _ between => ⟨line, between, rfl⟩
  | moreTurns _ _ before next =>
    exact runs_moreTurns (before written.left) (next written.right)
  | answered _ all =>
    intro front site line turns between
    obtain ⟨next, settled, read⟩ := all written front site line turns between
    exact ⟨next, .turn settled, read⟩
  | unanswered _ numbered dotted _ before moved =>
    exact runs_unanswered lenient written (before written.left) numbered dotted
      (moved written.right.tail.tail)
  | noBodies =>
    exact fun _ _ _ _ line _ between =>
      ⟨fun _ _ => ⟨line, between, rfl⟩, fun some => absurd some (Nat.lt_irrefl 0)⟩
  | moreBodies _ _ closes before next =>
    exact runs_moreBodies (before written.left.left) (next written.left.right) closes
  | variation opens some comments bodies inner =>
    exact runs_variation opens some comments (begins_of_derives bodies) (inner written.right)

end Grammar

end Scoresheet
