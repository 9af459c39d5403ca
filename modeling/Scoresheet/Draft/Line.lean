/-
This file assembles turns into a line. A move number is followed by the move of white, or by an
ellipsis and the move of black. Behind the move of white the number may be repeated before the move
of black, with an ellipsis or, where that is tolerated and the digits are the same, with a dot. A
turn is complete when a token comes that continues neither of its moves.
-/

import Scoresheet.Draft.Move

namespace Scoresheet

/-- The side a move is told to be of. -/
inductive Side where
  | white
  | black
  deriving DecidableEq, Repr

/-- The kind of a move of the side. -/
def Side.moveKind : Side → TokenKind
  | white => .whiteMove
  | black => .blackMove

/-- How far a turn has been read. -/
inductive TurnPhase where
  /-- Between turns. -/
  | rest
  | numbered (number : UInt32) (digits : Bytes)
  /-- Behind the dot of a move number. -/
  | dotted (number : UInt32) (digits : Bytes)
  /-- Behind the move of white. -/
  | white (number : UInt32) (digits : Bytes) (move : MoveDraft)
  /-- Behind a repeated move number, with the same digits or not. -/
  | renumbered (number : UInt32) (white : Move) (same : Bool)
  /-- Before a move of black that has to follow and is told to be of the given side. -/
  | owed (number : UInt32) (white : Option Move) (told : Side)
  /-- Behind the move of black. -/
  | black (number : UInt32) (white : Option Move) (move : MoveDraft)

/-- A line under way. -/
structure LineDraft where
  /-- The complete turns, latest first. -/
  turns : List Turn
  phase : TurnPhase

namespace LineDraft

def start : LineDraft := ⟨[], .rest⟩

/-- The tokens that can follow, those aside that add to a move. -/
def expected (draft : LineDraft) : List TokenKind :=
  match draft.phase with
  | .rest => [.moveNumber]
  | .numbered _ _ => [.dot, .ellipsis]
  | .dotted _ _ => [.whiteMove]
  | .white _ _ _ => [.moveNumber]
  | .renumbered _ _ _ => [.ellipsis]
  | .owed _ _ told => [told.moveKind]
  | .black _ _ _ => [.moveNumber]

/-- Whether a move was just read, so that comments and variations can follow. -/
def isBehindMove (draft : LineDraft) : Bool :=
  match draft.phase with
  | .white _ _ _ => true
  | .black _ _ _ => true
  | _ => false

/-- The line with a change to the move that was just read. -/
def mapMove (change : MoveDraft → MoveDraft) (draft : LineDraft) : LineDraft :=
  match draft.phase with
  | .white number digits move => { draft with phase := .white number digits (change move) }
  | .black number white move => { draft with phase := .black number white (change move) }
  | _ => draft

/-- The turn of a black move and of the white move before it, if there is one. -/
def blackTurn (number : UInt32) (white : Option Move) (black : Move) : Turn :=
  match white with
  | none => .blackOnly number black
  | some white => .both number white black

/-- What becomes of a line with the next token. -/
inductive Step where
  /-- The token belongs to the line. -/
  | onward (draft : LineDraft)
  /-- The token opens a variation of the move that was just read. -/
  | branch
  /-- The last turn is complete, and the token begins no further one. -/
  | ended (turns : List Turn)

/-- The largest move number. -/
def largestNumber : Nat := 4294967295

/-- The next token between turns. -/
def acceptAtRest (config : Config) (turns : List Turn) (token : Token) : Except ReadError Step :=
  if token.kind = .moveNumber then
    match Bytes.number? largestNumber token.text with
    | none => .error (token.unexpected [.moveNumber])
    | some number =>
      if config.strict ∧ number = 0 then .error (token.unexpected [.moveNumber])
      else .ok (.onward ⟨turns, .numbered (UInt32.ofNat number) token.text⟩)
  else .ok (.ended turns)

/-- The next token. -/
def accept (config : Config) (draft : LineDraft) (token : Token) : Except ReadError Step :=
  let onward (phase : TurnPhase) : Except ReadError Step := .ok (.onward ⟨draft.turns, phase⟩)
  match draft.phase with
  | .rest => acceptAtRest config draft.turns token
  | .numbered number digits =>
    match token.kind with
    | .dot => onward (.dotted number digits)
    | .ellipsis => onward (.owed number none .black)
    | _ => .error (token.unexpected draft.expected)
  | .dotted number digits =>
    if token.kind = .whiteMove then onward (.white number digits (.start config token.text))
    else if token.kind = .ellipsis ∧ config.strict = false then
      onward (.owed number none .black)
    else .error (token.unexpected draft.expected)
  | .white number digits move =>
    match token.kind with
    | .nag => (move.annotate config token).bind fun move => onward (.white number digits move)
    | .variationBegin => .ok .branch
    | .moveNumber =>
      if token.text = digits then onward (.renumbered number (move.finish config) true)
      else if config.strict then .error (token.unexpected [.ellipsis])
      else onward (.renumbered number (move.finish config) false)
    | .blackMove =>
      onward (.black number (some (move.finish config)) (.start config token.text))
    | _ => acceptAtRest config (.whiteOnly number (move.finish config) :: draft.turns) token
  | .renumbered number white same =>
    if token.kind = .ellipsis then onward (.owed number (some white) .black)
    else if token.kind = .dot ∧ same ∧ config.strict = false then
      onward (.owed number (some white) .white)
    else .error (token.unexpected draft.expected)
  | .owed number white told =>
    if token.kind = told.moveKind then onward (.black number white (.start config token.text))
    else .error (token.unexpected draft.expected)
  | .black number white move =>
    match token.kind with
    | .nag => (move.annotate config token).bind fun move => onward (.black number white move)
    | .variationBegin => .ok .branch
    | _ => acceptAtRest config (blackTurn number white (move.finish config) :: draft.turns) token

end LineDraft

end Scoresheet
