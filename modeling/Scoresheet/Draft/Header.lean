/-
This file assembles header pairs. A pair is a name and a quoted value between brackets, with blanks
between the two unless their absence is tolerated. The value is known as soon as its text was read;
that a value is empty shows only when its closing quote is behind.
-/

import Scoresheet.Config
import Scoresheet.HeaderPair
import Scoresheet.Token

namespace Scoresheet

/-- How far a header section has been read. -/
inductive HeaderPhase where
  /-- Behind an opening bracket. -/
  | begun
  | named (name : Bytes)
  | separated (name : Bytes)
  /-- Behind an opening quote. -/
  | opened (name : Bytes)
  /-- Behind the text of a value. -/
  | valued
  /-- Behind the closing quote of an empty value. -/
  | emptied (name : Bytes)
  /-- Behind the closing quote of any other value. -/
  | closed
  /-- Behind a closing bracket. -/
  | complete
  deriving DecidableEq, Repr

namespace HeaderPhase

/-- The tokens that can follow inside a pair. -/
def expected : HeaderPhase → List TokenKind
  | begun => [.headerName]
  | named _ => [.separator]
  | separated _ => [.valueBegin]
  | opened _ => [.value, .valueEnd]
  | valued => [.valueEnd]
  | emptied _ => [.headerEnd]
  | closed => [.headerEnd]
  | complete => [.headerBegin]

/-- The pair that is known once the given token has come. -/
def recorded? : HeaderPhase → Token → Option HeaderPair
  | opened name, token => if token.kind = .value then some ⟨name, token.text⟩ else none
  | emptied name, _ => some ⟨name, []⟩
  | _, _ => none

/-- The phase behind the next token of the section. -/
def accept (config : Config) (phase : HeaderPhase) (token : Token) :
    Except ReadError HeaderPhase :=
  match phase, token.kind with
  | begun, .headerName => .ok (.named token.text)
  | named name, .separator => .ok (.separated name)
  | named name, .valueBegin =>
    if config.strict then .error (token.unexpected phase.expected) else .ok (.opened name)
  | separated name, .valueBegin => .ok (.opened name)
  | opened _, .value => .ok .valued
  | opened name, .valueEnd => .ok (.emptied name)
  | valued, .valueEnd => .ok .closed
  | emptied _, .headerEnd => .ok .complete
  | closed, .headerEnd => .ok .complete
  | complete, .headerBegin => .ok .begun
  | phase, _ => .error (token.unexpected phase.expected)

end HeaderPhase

end Scoresheet
