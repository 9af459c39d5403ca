/-
This file assembles a game from its tokens, one token at a time. A game consists of comments, a
header section, comments again, the movetext and a termination marker, of which all but the marker
may be missing. The parts that are left out are read over: a header section up to the first token
of another kind, the movetext up to the marker.

A draft never reads past a termination marker, and a token that does not fit is refused with the
kinds that would have fitted. The recursive descent, which has a function for each phrase instead,
reads the same (`Descent.read_eq_draft_read`).
-/

import Scoresheet.Draft.Header
import Scoresheet.Draft.Moves
import Scoresheet.Game

namespace Scoresheet

/-- Which part of a game is being read. -/
inductive Stage where
  /-- Before the first token. -/
  | start
  /-- Behind comments that may precede headers. -/
  | preface
  | header (phase : HeaderPhase)
  /-- In a header section that is left out. -/
  | headersLeftOut
  /-- Behind the comments that follow the headers. -/
  | opening
  | moves (draft : MovesDraft)
  /-- In a movetext that is left out. -/
  | movesLeftOut

/-- A game under way. -/
structure Draft where
  /-- The header pairs so far, latest first. -/
  headers : Option (List HeaderPair)
  comment : Option Bytes
  commentPhase : CommentPhase
  stage : Stage

namespace Draft

def start : Draft := ⟨none, none, .idle, .start⟩

/-- The kinds of tokens a game can start with. -/
def gameStart : List TokenKind :=
  [.headerBegin, .commentBegin, .lineComment, .moveNumber, .termination]

/-- The tokens the movetext can start with. -/
def movetextStart (config : Config) : List TokenKind :=
  if config.skip.moves then [.termination] else [.moveNumber]

/-- The tokens that have to follow unless something else can be added. -/
def expected (config : Config) (draft : Draft) : List TokenKind :=
  match draft.commentPhase with
  | .idle =>
    match draft.stage with
    | .start => gameStart
    | .preface => movetextStart config
    | .header .complete => movetextStart config
    | .header phase => phase.expected
    | .headersLeftOut => movetextStart config
    | .opening => movetextStart config
    | .moves moves => moves.expected
    | .movesLeftOut => [.termination]
  | phase => phase.expected

/-- The header pair that is known once the given token has come. -/
def recorded? (draft : Draft) (token : Token) : Option HeaderPair :=
  match draft.stage with
  | .header phase => phase.recorded? token
  | _ => none

/-- What becomes of a draft with the next token. -/
inductive Step where
  | onward (draft : Draft)
  | finished (game : Game)

/-- The game that ends with the given marker. -/
def finish (draft : Draft) (line : Line) (marker : Token) : Except ReadError Step :=
  match Outcome.ofMarker? marker.text with
  | some outcome =>
    .ok (.finished ⟨draft.headers.map List.reverse, draft.comment, line, outcome⟩)
  | none => .error (.invalidOutcome marker.text marker.position)

/-- The next token in a movetext that is left out. -/
def acceptLeftOut (draft : Draft) (token : Token) : Except ReadError Step :=
  if token.kind = .termination then draft.finish [] token
  else .ok (.onward { draft with stage := .movesLeftOut })

/-- The next token in a movetext. -/
def acceptMoves (config : Config) (draft : Draft) (moves : MovesDraft) (token : Token) :
    Except ReadError Step :=
  match moves.accept config token with
  | .error error => .error error
  | .ok (.onward moves) => .ok (.onward { draft with stage := .moves moves })
  | .ok (.ended line) => draft.finish line token

/-- The first token of the movetext. -/
def acceptOpening (config : Config) (draft : Draft) (token : Token) : Except ReadError Step :=
  if config.skip.moves then draft.acceptLeftOut token
  else draft.acceptMoves config .start token

/-- The next token where a header section can begin. -/
def acceptPreface (config : Config) (draft : Draft) (token : Token) : Except ReadError Step :=
  if token.kind = .headerBegin then
    if config.skip.headers then .ok (.onward { draft with stage := .headersLeftOut })
    else .ok (.onward { draft with headers := some [], stage := .header .begun })
  else draft.acceptOpening config token

/-- The next token in a header section. -/
def acceptHeader (config : Config) (draft : Draft) (phase : HeaderPhase) (token : Token) :
    Except ReadError Step :=
  match phase.accept config token with
  | .error error => .error error
  | .ok next =>
    let headers := (phase.recorded? token).toList ++ draft.headers.getD []
    .ok (.onward { draft with headers := some headers, stage := .header next })

/-- Whether a comment can follow. -/
def takesComments (draft : Draft) : Bool :=
  match draft.stage with
  | .start => true
  | .preface => true
  | .header phase => phase = .complete
  | .headersLeftOut => true
  | .opening => true
  | .moves moves => moves.takesComments
  | .movesLeftOut => false

/-- Adds a comment to the move it follows or to the variation it opens, and one before the movetext
to the game. -/
def addComment (config : Config) (text : Bytes) (draft : Draft) : Draft :=
  match draft.stage with
  | .moves moves => { draft with stage := .moves (moves.addComment config text) }
  | .start => { draft with comment := Comment.add config draft.comment text, stage := .preface }
  | .preface => { draft with comment := Comment.add config draft.comment text }
  | _ => { draft with comment := Comment.add config draft.comment text, stage := .opening }

/-- The next token outside comments. -/
def acceptStage (config : Config) (draft : Draft) (token : Token) : Except ReadError Step :=
  match draft.stage with
  | .start =>
    if token.kind ∈ gameStart then draft.acceptPreface config token
    else .error (token.unexpected gameStart)
  | .preface => draft.acceptPreface config token
  | .header phase =>
    if phase = .complete ∧ token.kind ≠ .headerBegin then draft.acceptOpening config token
    else draft.acceptHeader config phase token
  | .headersLeftOut =>
    if token.kind.isHeader then .ok (.onward draft) else draft.acceptOpening config token
  | .opening => draft.acceptOpening config token
  | .moves moves => draft.acceptMoves config moves token
  | .movesLeftOut => draft.acceptLeftOut token

/-- The next token. -/
def accept (config : Config) (draft : Draft) (token : Token) : Except ReadError Step :=
  let closed (text : Bytes) : Draft :=
    { draft.addComment config text with commentPhase := .idle }
  match draft.commentPhase with
  | .idle =>
    if token.kind = .commentBegin ∧ draft.takesComments then
      .ok (.onward { draft with commentPhase := .opened })
    else if token.kind = .lineComment ∧ draft.takesComments then
      .ok (.onward (draft.addComment config token.text))
    else draft.acceptStage config token
  | .opened =>
    if token.kind = .commentEnd then .ok (.onward (closed []))
    else if token.kind = .comment then
      .ok (.onward { draft with commentPhase := .filled token.text })
    else .error (token.unexpected CommentPhase.opened.expected)
  | .filled text =>
    if token.kind = .commentEnd then .ok (.onward (closed text))
    else .error (token.unexpected (CommentPhase.filled text).expected)

end Draft

end Scoresheet
