/-
This file fixes the alphabet of a score sheet. Game files carry no declared encoding, so every
text is a list of bytes, and the library gives a meaning to the ASCII bytes only: the marks that
delimit tokens, the digits and letters, and the two notions of white space -- the four bytes that
separate tokens, and the five that are trimmed from a comment.
-/

namespace Scoresheet

/-- A text as it stands in the input. -/
abbrev Bytes := List UInt8

/-! ### The bytes with a meaning of their own -/

namespace Ascii

@[match_pattern] abbrev tab : UInt8 := 0x09
@[match_pattern] abbrev lineFeed : UInt8 := 0x0A
@[match_pattern] abbrev formFeed : UInt8 := 0x0C
@[match_pattern] abbrev carriageReturn : UInt8 := 0x0D
@[match_pattern] abbrev space : UInt8 := 0x20
@[match_pattern] abbrev exclamation : UInt8 := 0x21
@[match_pattern] abbrev quote : UInt8 := 0x22
@[match_pattern] abbrev dollar : UInt8 := 0x24
@[match_pattern] abbrev percent : UInt8 := 0x25
@[match_pattern] abbrev openParen : UInt8 := 0x28
@[match_pattern] abbrev closeParen : UInt8 := 0x29
@[match_pattern] abbrev star : UInt8 := 0x2A
@[match_pattern] abbrev plus : UInt8 := 0x2B
@[match_pattern] abbrev minus : UInt8 := 0x2D
@[match_pattern] abbrev dot : UInt8 := 0x2E
@[match_pattern] abbrev slash : UInt8 := 0x2F
@[match_pattern] abbrev zero : UInt8 := 0x30
@[match_pattern] abbrev one : UInt8 := 0x31
@[match_pattern] abbrev two : UInt8 := 0x32
@[match_pattern] abbrev eight : UInt8 := 0x38
@[match_pattern] abbrev nine : UInt8 := 0x39
@[match_pattern] abbrev semicolon : UInt8 := 0x3B
@[match_pattern] abbrev equals : UInt8 := 0x3D
@[match_pattern] abbrev question : UInt8 := 0x3F
@[match_pattern] abbrev capitalN : UInt8 := 0x4E
@[match_pattern] abbrev capitalR : UInt8 := 0x52
@[match_pattern] abbrev openBracket : UInt8 := 0x5B
@[match_pattern] abbrev backslash : UInt8 := 0x5C
@[match_pattern] abbrev closeBracket : UInt8 := 0x5D
@[match_pattern] abbrev openBrace : UInt8 := 0x7B
@[match_pattern] abbrev closeBrace : UInt8 := 0x7D

/-! ### Classes of bytes -/

def isDigit (byte : UInt8) : Bool := 0x30 ≤ byte && byte ≤ 0x39

def isLetter (byte : UInt8) : Bool :=
  (0x41 ≤ byte && byte ≤ 0x5A) || (0x61 ≤ byte && byte ≤ 0x7A)

/-- The files of the board, `a` to `h`. -/
def isBoardFile (byte : UInt8) : Bool := 0x61 ≤ byte && byte ≤ 0x68

/-- The bytes that part a header name from its value. -/
def isBlank (byte : UInt8) : Bool := byte == space || byte == tab

/-- The bytes that separate tokens. -/
def isSpace (byte : UInt8) : Bool :=
  byte == space || byte == tab || byte == carriageReturn || byte == lineFeed

/-- The bytes trimmed from the ends of a comment: a form feed is one of them, although it
separates no tokens. -/
def isTrimmed (byte : UInt8) : Bool := isSpace byte || byte == formFeed

/-- The bytes that end a move, a number or an annotation. -/
def isDelimiter (byte : UInt8) : Bool :=
  isSpace byte || byte == openBrace || byte == closeBrace || byte == openParen ||
    byte == closeParen || byte == openBracket || byte == closeBracket || byte == dollar ||
    byte == semicolon || byte == quote || byte == dot || byte == star

/-- The decimal value of a digit. -/
def digitValue (byte : UInt8) : Nat := byte.toNat - 48

end Ascii

/-! ### Operations on texts -/

namespace Bytes

/-- The text of a string, each character in its standard encoding. -/
def ofString (text : String) : Bytes := text.toUTF8.toList

/-- The text without the white space at its two ends. -/
def trim (text : Bytes) : Bytes :=
  ((text.dropWhile Ascii.isTrimmed).reverse.dropWhile Ascii.isTrimmed).reverse

/-- The texts one after the other, with the separator between neighbours. -/
def join (separator : Bytes) : List Bytes → Bytes
  | [] => []
  | [text] => text
  | text :: rest => text ++ separator ++ join separator rest

/-- The number written by a run of digits, or the largest allowed one if that is smaller. -/
def boundedNumber (largest : Nat) (digits : Bytes) : Nat :=
  digits.foldl (fun value digit => min (value * 10 + Ascii.digitValue digit) largest) 0

/-- The number a text writes, bounded in the same way, unless the text is empty or holds anything
but digits. -/
def number? (largest : Nat) (text : Bytes) : Option Nat :=
  if text ≠ [] ∧ text.all Ascii.isDigit then some (boundedNumber largest text) else none

theorem take_length_takeWhile (onward : UInt8 → Bool) (text : Bytes) :
    text.take (text.takeWhile onward).length = text.takeWhile onward :=
  (List.prefix_iff_eq_take.mp (List.takeWhile_prefix onward)).symm

theorem drop_length_takeWhile (onward : UInt8 → Bool) (text : Bytes) :
    text.drop (text.takeWhile onward).length = text.dropWhile onward := by
  have parts : (text.takeWhile onward ++ text.dropWhile onward).drop _ = _ := List.drop_left
  rwa [List.takeWhile_append_dropWhile] at parts

end Bytes

end Scoresheet
