/-
This file defines what can be asked of a lexer and of a reader from outside, what they answer, and
what is seen of them afterwards. A theorem about every use of a lexer or of a reader is a theorem
about every list of requests.
-/

import Scoresheet.Proofs.Passes

namespace Scoresheet

namespace Lexer

/-- What can be asked of a lexer. -/
inductive Request where
  | advance
  | skipUntil (kind : TokenKind)
  | close
  deriving DecidableEq, Repr

/-- The lexer behind a request, and whether the source failed. -/
def answer (request : Request) (lexer : Lexer) : Except Failure Unit × Lexer :=
  match request with
  | .advance => Scan.advance.run lexer
  | .skipUntil kind => lexer.skipUntil kind
  | .close => (.ok (), lexer.close)

/-- What is seen of a lexer. -/
structure View where
  token : Token
  scope : Scope
  isExhausted : Bool
  deriving DecidableEq, Repr

def view (lexer : Lexer) : View := ⟨lexer.token, lexer.scope, lexer.isExhausted⟩

/-- The results of requests made one after the other, and what is seen after each. -/
def answers : List Request → Lexer → List (Except Failure Unit × View)
  | [], _ => []
  | request :: rest, lexer =>
    let answer := lexer.answer request
    (answer.1, answer.2.view) :: answers rest answer.2

end Lexer

namespace Reader

/-- What can be asked of a reader. -/
inductive Request where
  | next
  | skipGame
  | close
  deriving DecidableEq, Repr

/-- What a request returns. -/
inductive Reply where
  | game (result : Option (Except ReadError Entry))
  | skipped (result : Except ReadError Bool)
  | closed

theorem config_skipGame (reader : Reader) : reader.skipGame.2.config = reader.config := by
  unfold skipGame
  repeat' split
  all_goals rfl

variable [Hashable HeaderPair]

/-- The reader behind a request, and what the request returns. -/
def answer (request : Request) (reader : Reader) : Reply × Reader :=
  match request with
  | .next => (.game reader.next.1, reader.next.2)
  | .skipGame => (.skipped reader.skipGame.1, reader.skipGame.2)
  | .close => (.closed, reader.close)

/-- No request changes the settings. -/
theorem config_answer (request : Request) (reader : Reader) :
    (reader.answer request).2.config = reader.config := by
  cases request with
  | next => exact config_next reader
  | skipGame => exact config_skipGame reader
  | close => rfl

/-- What requests made one after the other return, with the recorded errors and the number of games
read after each. -/
def answers : List Request → Reader → List (Reply × List ReadError × Nat)
  | [], _ => []
  | request :: rest, reader =>
    let answer := reader.answer request
    (answer.1, answer.2.errors, answer.2.gamesRead) :: answers rest answer.2

end Reader

end Scoresheet
