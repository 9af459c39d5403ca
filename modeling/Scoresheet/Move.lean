/-
This file defines moves and turns. A move is kept as it is written, together with the comment, the
annotation codes and the variations that follow it, if there are any; a variation is an alternative
to the move and consists of turns of its own. A turn is a move number with the move of white, of
black, or of both, so a turn without any move does not exist.
-/

import Scoresheet.Nag

namespace Scoresheet

mutual

/-- A move as written, with what follows it if something does. -/
structure Move where
  text : Bytes
  details : Option MoveDetails

/-- What follows a move. -/
structure MoveDetails where
  comment : Option Bytes
  nags : List Nag
  variations : List (List Turn)

/-- A move number with the moves made under it. -/
inductive Turn where
  | whiteOnly (number : UInt32) (white : Move)
  | blackOnly (number : UInt32) (black : Move)
  | both (number : UInt32) (white black : Move)

end

/-- A run of turns: the main line of a game, or a variation. -/
abbrev Line := List Turn

namespace Move

/-- A move that nothing follows. -/
def bare (text : Bytes) : Move := ⟨text, none⟩

/-- A move with what follows it. Details without anything in them are not kept. -/
def of (text : Bytes) (comment : Option Bytes) (nags : List Nag) (variations : List Line) :
    Move where
  text := text
  details :=
    if comment.isNone && nags.isEmpty && variations.isEmpty then none
    else some ⟨comment, nags, variations⟩

def comment (move : Move) : Option Bytes :=
  match move.details with
  | none => none
  | some details => details.comment

def nags (move : Move) : List Nag :=
  match move.details with
  | none => []
  | some details => details.nags

def variations (move : Move) : List Line :=
  match move.details with
  | none => []
  | some details => details.variations

def isBare (move : Move) : Bool := move.details.isNone

/-- The move with a text in front of its comment. -/
def prependComment (comment : Bytes) (move : Move) : Move :=
  let details := move.details.getD ⟨none, [], []⟩
  { move with
    details := some { details with comment := some (comment ++ details.comment.getD []) } }

section Details

variable (text : Bytes) (comment : Option Bytes) (nags : List Nag) (variations : List Line)

/-- Whether something is kept or not, a move has what it was given. -/
theorem of_eq_bare_or :
    (comment = none ∧ nags = [] ∧ variations = [] ∧
        of text comment nags variations = bare text) ∨
      (¬ (comment = none ∧ nags = [] ∧ variations = []) ∧
        of text comment nags variations = ⟨text, some ⟨comment, nags, variations⟩⟩) := by
  unfold of
  split
  · next nothing =>
    simp only [Bool.and_eq_true, Option.isNone_iff_eq_none, List.isEmpty_iff] at nothing
    exact .inl ⟨nothing.1.1, nothing.1.2, nothing.2, rfl⟩
  · next something =>
    simp only [Bool.and_eq_true, Option.isNone_iff_eq_none, List.isEmpty_iff] at something
    exact .inr ⟨fun nothing => something ⟨⟨nothing.1, nothing.2.1⟩, nothing.2.2⟩, rfl⟩

@[simp] theorem text_of : (of text comment nags variations).text = text := rfl

@[simp] theorem comment_of : (of text comment nags variations).comment = comment := by
  obtain ⟨rfl, rfl, rfl, same⟩ | ⟨_, same⟩ := of_eq_bare_or text comment nags variations
  · rfl
  · rw [same]
    rfl

@[simp] theorem nags_of : (of text comment nags variations).nags = nags := by
  obtain ⟨rfl, rfl, rfl, same⟩ | ⟨_, same⟩ := of_eq_bare_or text comment nags variations
  · rfl
  · rw [same]
    rfl

@[simp] theorem variations_of : (of text comment nags variations).variations = variations := by
  obtain ⟨rfl, rfl, rfl, same⟩ | ⟨_, same⟩ := of_eq_bare_or text comment nags variations
  · rfl
  · rw [same]
    rfl

theorem of_eq_bare_iff :
    of text comment nags variations = bare text ↔ comment = none ∧ nags = [] ∧ variations = [] := by
  obtain ⟨rfl, rfl, rfl, same⟩ | ⟨something, same⟩ := of_eq_bare_or text comment nags variations
  · exact ⟨fun _ => ⟨rfl, rfl, rfl⟩, fun _ => same⟩
  · refine ⟨fun bare => ?_, fun nothing => absurd nothing something⟩
    cases same.symm.trans bare

theorem isBare_iff_eq_bare (move : Move) : move.isBare = true ↔ move = bare move.text := by
  match move with
  | ⟨_, none⟩ => exact ⟨fun _ => rfl, fun _ => rfl⟩
  | ⟨_, some _⟩ => exact ⟨nofun, nofun⟩

/-- A move is bare if it was given nothing to follow it. -/
theorem isBare_of_iff :
    (of text comment nags variations).isBare = true ↔
      comment = none ∧ nags = [] ∧ variations = [] :=
  (isBare_iff_eq_bare _).trans (of_eq_bare_iff ..)

end Details

/-- Nothing but the comment changes. -/
theorem prependComment_eq (comment : Bytes) (move : Move) :
    move.prependComment comment =
      .of move.text (some (comment ++ move.comment.getD [])) move.nags move.variations := by
  match move with
  | ⟨_, none⟩ => rfl
  | ⟨_, some _⟩ => rfl

end Move

namespace Turn

/-- The turn with the given moves, unless both are missing. -/
def ofSides? (number : UInt32) : Option Move → Option Move → Option Turn
  | none, none => none
  | some white, none => some (.whiteOnly number white)
  | none, some black => some (.blackOnly number black)
  | some white, some black => some (.both number white black)

def number : Turn → UInt32
  | whiteOnly number _ => number
  | blackOnly number _ => number
  | both number _ _ => number

def white? : Turn → Option Move
  | whiteOnly _ white => some white
  | blackOnly _ _ => none
  | both _ white _ => some white

def black? : Turn → Option Move
  | whiteOnly _ _ => none
  | blackOnly _ black => some black
  | both _ _ black => some black

/-- The turn with its first move changed. -/
def mapFirst (change : Move → Move) : Turn → Turn
  | whiteOnly number white => .whiteOnly number (change white)
  | blackOnly number black => .blackOnly number (change black)
  | both number white black => .both number (change white) black

theorem ofSides?_self (turn : Turn) :
    ofSides? turn.number turn.white? turn.black? = some turn := by
  cases turn <;> rfl

end Turn

/-- The line with a text in front of the comment of its first move. -/
def Line.prependComment (comment : Bytes) : Line → Line
  | [] => []
  | turn :: rest => turn.mapFirst (·.prependComment comment) :: rest

/-! ### Agreement

Two turns agree if their numbers are equal and the sides that both of them have agree, so a turn
with a missing move agrees with every completion of it. Moves agree if they are written alike and
followed by the same comment and codes and by variations that agree turn by turn. -/

mutual

def Move.agrees : Move → Move → Bool
  | ⟨text, none⟩, other => text == other.text && other.isBare
  | ⟨text, some ⟨comment, nags, variations⟩⟩, other =>
    text == other.text &&
      (match other.details with
        | none => false
        | some others =>
          comment == others.comment && nags == others.nags &&
            variationsAgree variations others.variations)

def Turn.agrees : Turn → Turn → Bool
  | .whiteOnly number white, other =>
    number == other.number &&
      (match other.white? with
        | none => true
        | some otherWhite => white.agrees otherWhite)
  | .blackOnly number black, other =>
    number == other.number &&
      (match other.black? with
        | none => true
        | some otherBlack => black.agrees otherBlack)
  | .both number white black, other =>
    number == other.number &&
      (match other.white? with
        | none => true
        | some otherWhite => white.agrees otherWhite) &&
      (match other.black? with
        | none => true
        | some otherBlack => black.agrees otherBlack)

def linesAgree : List Turn → List Turn → Bool
  | [], [] => true
  | turn :: rest, other :: others => turn.agrees other && linesAgree rest others
  | _, _ => false

def variationsAgree : List (List Turn) → List (List Turn) → Bool
  | [], [] => true
  | line :: rest, other :: others => linesAgree line other && variationsAgree rest others
  | _, _ => false

end

end Scoresheet
