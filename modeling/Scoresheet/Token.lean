/-
This file defines a token: its kind, the bytes it covers, and where it starts. Delimiters such as
quotes and braces cover no bytes.
-/

import Scoresheet.Error

namespace Scoresheet

structure Token where
  kind : TokenKind
  text : Bytes
  position : Position
  deriving DecidableEq, Repr

/-- The complaint about a token that is of none of the kinds that could follow. -/
def Token.unexpected (token : Token) (expected : List TokenKind) : ReadError :=
  .unexpectedToken token.kind expected token.position

end Scoresheet
