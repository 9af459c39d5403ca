/-
This file defines how a game can end. Each outcome has one marker, and reading a marker accepts
exactly those four.
-/

import Scoresheet.Bytes

namespace Scoresheet

inductive Outcome where
  | whiteWins
  | blackWins
  | draw
  /-- The game is in progress, was abandoned, or its result is not known. -/
  | unknown
  deriving DecidableEq, Repr

namespace Outcome

open Ascii

/-- The termination marker of an outcome. -/
def marker : Outcome → Bytes
  | whiteWins => [one, minus, zero]
  | blackWins => [zero, minus, one]
  | draw => [one, slash, two, minus, one, slash, two]
  | unknown => [star]

/-- The marker as text. -/
def message : Outcome → String
  | whiteWins => "1-0"
  | blackWins => "0-1"
  | draw => "1/2-1/2"
  | unknown => "*"

/-- The outcome with the given marker. -/
def ofMarker? (text : Bytes) : Option Outcome :=
  [whiteWins, blackWins, draw, unknown].find? (·.marker == text)

/-- Whether the game was won or drawn. -/
def isKnown : Outcome → Bool
  | unknown => false
  | _ => true

theorem ofMarker?_marker (outcome : Outcome) : ofMarker? outcome.marker = some outcome := by
  cases outcome <;> rfl

theorem marker_of_ofMarker? {text : Bytes} {outcome : Outcome}
    (found : ofMarker? text = some outcome) : outcome.marker = text := by
  unfold ofMarker? at found
  have named := List.find?_some found
  exact beq_iff_eq.mp named

/-- What a text that is no marker is answered with. -/
def invalidMessage : String := "invalid outcome"

end Outcome

end Scoresheet
