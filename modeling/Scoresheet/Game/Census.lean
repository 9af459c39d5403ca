/-
This file counts what a game holds: the moves on all levels, and how deeply variations are nested.
A main line without variations has depth zero.
-/

import Scoresheet.Game

namespace Scoresheet

mutual

def Move.count : Move → Nat
  | ⟨_, none⟩ => 1
  | ⟨_, some ⟨_, _, variations⟩⟩ => 1 + countVariations variations

def Turn.count : Turn → Nat
  | .whiteOnly _ white => white.count
  | .blackOnly _ black => black.count
  | .both _ white black => white.count + black.count

def countLine : List Turn → Nat
  | [] => 0
  | turn :: rest => turn.count + countLine rest

def countVariations : List (List Turn) → Nat
  | [] => 0
  | line :: rest => countLine line + countVariations rest

end

mutual

def Move.depth : Move → Nat
  | ⟨_, none⟩ => 0
  | ⟨_, some ⟨_, _, variations⟩⟩ => depthVariations variations

def Turn.depth : Turn → Nat
  | .whiteOnly _ white => white.depth
  | .blackOnly _ black => black.depth
  | .both _ white black => max white.depth black.depth

def depthLine : List Turn → Nat
  | [] => 0
  | turn :: rest => max turn.depth (depthLine rest)

def depthVariations : List (List Turn) → Nat
  | [] => 0
  | line :: rest => max (1 + depthLine line) (depthVariations rest)

end

/-- The number of moves of a game, those in variations included. -/
def Game.moveCount (game : Game) : Nat := countLine game.moves

/-- The deepest level of variations. -/
def Game.depth (game : Game) : Nat := depthLine game.moves

end Scoresheet
