/-
This file lists what can go wrong while a game is read. A token may not fit, the input may end too
early, an annotation or a termination marker may mean nothing, and the source may fail to deliver
its bytes. After an end of input or a failed source there is no next game to go on with.
-/

import Scoresheet.Position
import Scoresheet.Text.Quoted
import Scoresheet.Text.Utf8
import Scoresheet.Token.Kind

namespace Scoresheet

/-- Why a source could not be read, in its own words. -/
structure Failure where
  reason : String
  deriving DecidableEq, Repr

inductive ReadError where
  | unexpectedToken (found : TokenKind) (expected : List TokenKind) (position : Position)
  | unexpectedEnd (expected : List TokenKind) (position : Position)
  | invalidNag (text : Bytes) (position : Position)
  | invalidOutcome (text : Bytes) (position : Position)
  | sourceFailed (failure : Failure)
  deriving DecidableEq, Repr

namespace ReadError

/-- Where the error occurred, if it has a place in the input. -/
def position? : ReadError → Option Position
  | unexpectedToken _ _ position => some position
  | unexpectedEnd _ position => some position
  | invalidNag _ position => some position
  | invalidOutcome _ position => some position
  | sourceFailed _ => none

/-- Whether reading cannot go on with the next game. -/
def isFatal : ReadError → Bool
  | unexpectedEnd _ _ => true
  | sourceFailed _ => true
  | _ => false

/-- The failure behind the error, if there is one. -/
def cause? : ReadError → Option Failure
  | sourceFailed failure => some failure
  | _ => none

/-- No failure is behind an error that can be recovered from. -/
theorem cause?_of_recoverable {error : ReadError} (recoverable : error.isFatal = false) :
    error.cause? = none := by
  cases error with
  | sourceFailed failure => cases recoverable
  | _ => rfl

def message : ReadError → String
  | unexpectedToken found expected position =>
    "unexpected " ++ found.name ++ " at " ++ position.message ++ ", expected " ++
      TokenKind.listing expected
  | unexpectedEnd expected position =>
    "unexpected end of input at " ++ position.message ++ ", expected " ++
      TokenKind.listing expected
  | invalidNag text position =>
    "invalid annotation " ++ Quoted.shown (Utf8.decodeLossy text) ++ " at " ++ position.message
  | invalidOutcome text position =>
    "invalid game termination " ++ Quoted.shown (Utf8.decodeLossy text) ++ " at " ++
      position.message
  | sourceFailed failure => "i/o error reading pgn: " ++ failure.reason

end ReadError

end Scoresheet
