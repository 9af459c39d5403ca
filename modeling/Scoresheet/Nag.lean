/-
This file defines the numeric annotation glyphs: codes from 0 to 255 that say what an annotator
thinks of a move or a position. A code is written as a dollar sign and its number, and the most
common ones have a glyph of their own, such as an exclamation mark for a good move.
-/

import Scoresheet.Bytes

namespace Scoresheet

structure Nag where
  code : UInt8
  deriving DecidableEq, Repr

namespace Nag

open Ascii

/-- The code that stands for an annotation nobody understands. -/
def null : Nag := ⟨0⟩
def goodMove : Nag := ⟨1⟩
def mistake : Nag := ⟨2⟩
def brilliantMove : Nag := ⟨3⟩
def blunder : Nag := ⟨4⟩
def speculativeMove : Nag := ⟨5⟩
def dubiousMove : Nag := ⟨6⟩
def equalPosition : Nag := ⟨10⟩
def whiteSlightAdvantage : Nag := ⟨14⟩
def blackSlightAdvantage : Nag := ⟨15⟩
def whiteModerateAdvantage : Nag := ⟨16⟩
def blackModerateAdvantage : Nag := ⟨17⟩
def whiteDecisiveAdvantage : Nag := ⟨18⟩
def blackDecisiveAdvantage : Nag := ⟨19⟩
def editorialComment : Nag := ⟨145⟩
def novelty : Nag := ⟨146⟩

def message (nag : Nag) : String := s!"${nag.code.toNat}"

/-! ### Glyphs -/

/-- The glyphs that may stand for a code as a token of their own. -/
def glyphs : List (Bytes × Nag) :=
  [([exclamation, exclamation], brilliantMove),
    ([question, question], blunder),
    ([exclamation, question], speculativeMove),
    ([question, exclamation], dubiousMove),
    ([plus, slash, minus], whiteModerateAdvantage),
    ([minus, slash, plus], blackModerateAdvantage),
    ([plus, minus], whiteDecisiveAdvantage),
    ([minus, plus], blackDecisiveAdvantage),
    ([plus, equals], whiteSlightAdvantage),
    ([equals, plus], blackSlightAdvantage),
    ([exclamation], goodMove),
    ([question], mistake),
    ([equals], equalPosition)]

/-- The code a glyph stands for. -/
def ofGlyph? (text : Bytes) : Option Nag :=
  (glyphs.find? (·.1 == text)).map (·.2)

/-- The code written by a run of digits, if it is one and not too large. -/
def ofDigits? (digits : Bytes) : Option Nag :=
  if digits ≠ [] ∧ digits.all isDigit ∧ Bytes.boundedNumber 256 digits < 256 then
    some ⟨UInt8.ofNat (Bytes.boundedNumber 256 digits)⟩
  else none

/-- The code written by a text: a dollar sign and a number, or a glyph. -/
def ofText? (text : Bytes) : Option Nag :=
  match text with
  | dollar :: digit :: rest => ofDigits? (digit :: rest)
  | _ => ofGlyph? text

/-- What a text that writes no code is answered with. -/
def invalidMessage : String := "invalid nag"

end Nag

end Scoresheet
