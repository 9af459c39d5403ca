/-
This file defines a game: its header pairs in order of appearance, the comment before its first
move, its main line and its outcome. Header names may repeat, and looking one up finds the first.
-/

import Scoresheet.HeaderPair
import Scoresheet.Move
import Scoresheet.Outcome

namespace Scoresheet

structure Game where
  /-- Missing if the game has no header section, or if headers are left out. -/
  headers : Option (List HeaderPair)
  comment : Option Bytes
  moves : Line
  outcome : Outcome

namespace Game

/-- The first header pair with the given name. -/
def header? (game : Game) (name : Bytes) : Option HeaderPair :=
  (game.headers.getD []).find? (·.name == name)

/-- Whether two games are alike up to moves that one of them lacks. -/
def agrees (game other : Game) : Bool :=
  game.headers == other.headers && game.comment == other.comment &&
    linesAgree game.moves other.moves && game.outcome == other.outcome

end Game

end Scoresheet
