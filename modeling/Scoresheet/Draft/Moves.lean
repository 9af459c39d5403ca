/-
This file assembles the movetext of a game: its main line, and the variations that are open inside
one another. A variation may be wrapped in several parentheses; the lines between their closing
ones form one variation. Comments between the opening parentheses and the first move belong to that
move. A closed variation is added to the move in front of which it was opened.
-/

import Scoresheet.Draft.Line

namespace Scoresheet

/-- What a variation has begun with. -/
inductive Lead where
  /-- Opening parentheses only. -/
  | parens
  /-- Comments behind the parentheses. -/
  | comments
  /-- More than that. -/
  | moves
  deriving DecidableEq, Repr

/-- An open variation. -/
structure Branch where
  /-- The number of parentheses that are open. -/
  depth : Nat
  lead : Lead
  /-- The comments in front of the first move. -/
  leading : Option Bytes
  line : LineDraft

namespace Branch

/-- Behind an opening parenthesis. -/
def start : Branch := ⟨1, .parens, none, .start⟩

/-- Whether a comment can follow. -/
def takesComments (branch : Branch) : Bool :=
  match branch.lead with
  | .moves => branch.line.isBehindMove
  | _ => true

def addComment (config : Config) (text : Bytes) (branch : Branch) : Branch :=
  match branch.lead with
  | .moves => { branch with line := branch.line.mapMove (·.addComment config text) }
  | _ => { branch with lead := .comments, leading := Comment.add config branch.leading text }

/-- The variation, once its last parenthesis is closed. -/
def finish (branch : Branch) (turns : List Turn) : Line :=
  match branch.leading with
  | none => turns.reverse
  | some comment => Line.prependComment comment turns.reverse

/-- What becomes of an open variation with the next token. -/
inductive Step where
  | onward (branch : Branch)
  /-- The token opens a variation of the move that was just read. -/
  | branch
  /-- The token closes the last parenthesis. -/
  | closed (line : Line)

/-- The next token. -/
def accept (config : Config) (branch : Branch) (token : Token) : Except ReadError Step :=
  if branch.lead = .parens ∧ token.kind = .variationBegin then
    .ok (.onward { branch with depth := branch.depth + 1 })
  else
    match branch.line.accept config token with
    | .error error => .error error
    | .ok (.onward line) => .ok (.onward { branch with lead := .moves, line })
    | .ok .branch => .ok .branch
    | .ok (.ended turns) =>
      if token.kind = .variationEnd then
        if branch.depth ≤ 1 then .ok (.closed (branch.finish turns))
        else .ok (.onward { branch with
          depth := branch.depth - 1, lead := .moves, line := ⟨turns, .rest⟩ })
      else .error (token.unexpected [.moveNumber])

end Branch

/-- The movetext under way. -/
structure MovesDraft where
  main : LineDraft
  /-- The open variations, innermost first. -/
  branches : List Branch

namespace MovesDraft

def start : MovesDraft := ⟨.start, []⟩

/-- The tokens that can follow, those aside that add to a move or to the lead of a variation. -/
def expected (draft : MovesDraft) : List TokenKind :=
  match draft.branches with
  | [] => draft.main.expected
  | branch :: _ => branch.line.expected

/-- Whether a comment can follow. -/
def takesComments (draft : MovesDraft) : Bool :=
  match draft.branches with
  | [] => draft.main.isBehindMove
  | branch :: _ => branch.takesComments

def addComment (config : Config) (text : Bytes) (draft : MovesDraft) : MovesDraft :=
  match draft.branches with
  | [] => { draft with main := draft.main.mapMove (·.addComment config text) }
  | branch :: outer => { draft with branches := branch.addComment config text :: outer }

/-- Adds a variation to the move it is an alternative to. -/
def addVariation (config : Config) (line : Line) (draft : MovesDraft) : MovesDraft :=
  match draft.branches with
  | [] => { draft with main := draft.main.mapMove (·.addVariation config line) }
  | branch :: outer =>
    let branch := { branch with line := branch.line.mapMove (·.addVariation config line) }
    { draft with branches := branch :: outer }

/-- What becomes of the movetext with the next token. -/
inductive Step where
  | onward (draft : MovesDraft)
  /-- The token is a termination marker. -/
  | ended (line : Line)

/-- The next token. -/
def accept (config : Config) (draft : MovesDraft) (token : Token) : Except ReadError Step :=
  match draft.branches with
  | [] =>
    match draft.main.accept config token with
    | .error error => .error error
    | .ok (.onward main) => .ok (.onward ⟨main, []⟩)
    | .ok .branch => .ok (.onward ⟨draft.main, [.start]⟩)
    | .ok (.ended turns) =>
      if token.kind = .termination then .ok (.ended turns.reverse)
      else .error (token.unexpected [.moveNumber])
  | branch :: outer =>
    match branch.accept config token with
    | .error error => .error error
    | .ok (.onward branch) => .ok (.onward ⟨draft.main, branch :: outer⟩)
    | .ok .branch => .ok (.onward ⟨draft.main, .start :: branch :: outer⟩)
    | .ok (.closed line) =>
      .ok (.onward (MovesDraft.addVariation config line ⟨draft.main, outer⟩))

end MovesDraft

end Scoresheet
