/-
This file reads bytes as UTF-8, one byte at a time. The machine remembers the character it is in
the middle of: how many continuation bytes it is owed and in which range the next one must lie.
The narrowed ranges after the first bytes E0, ED, F0 and F4 are what rules out overlong forms,
surrogates and values past the last character. A byte that does not fit ends the ill-formed part
before it and is read again as a first byte, so an ill-formed part is always a longest prefix of
some well-formed character.
-/

import Scoresheet.Bytes

namespace Scoresheet.Utf8

/-! ### The machine -/

/-- What a text consists of. The numbers are lengths in bytes. -/
inductive Piece where
  | char (value : Char) (length : Nat)
  | malformed (length : Nat)
  | truncated (length : Nat)
  deriving DecidableEq, Repr

/-- A character that has begun: its bits so far, the number of bytes read and owed, and the range
of the next byte. -/
structure Partial where
  bits : Nat
  read : Nat
  owed : Nat
  low : UInt8
  high : UInt8
  deriving DecidableEq, Repr

/-- What the first byte of a character announces. -/
inductive Lead where
  | single (value : Char)
  | several (start : Partial)
  | never
  deriving DecidableEq, Repr

/-- The reading of a byte at the start of a character. -/
def Lead.of (byte : UInt8) : Lead :=
  let several (bits owed : Nat) (low high : UInt8) : Lead := .several ⟨bits, 1, owed, low, high⟩
  if byte ≤ 0x7F then .single (Char.ofNat byte.toNat)
  else if byte < 0xC2 then .never
  else if byte ≤ 0xDF then several (byte.toNat - 0xC0) 1 0x80 0xBF
  else if byte = 0xE0 then several 0 2 0xA0 0xBF
  else if byte = 0xED then several 13 2 0x80 0x9F
  else if byte ≤ 0xEF then several (byte.toNat - 0xE0) 2 0x80 0xBF
  else if byte = 0xF0 then several 0 3 0x90 0xBF
  else if byte ≤ 0xF3 then several (byte.toNat - 0xF0) 3 0x80 0xBF
  else if byte = 0xF4 then several 4 3 0x80 0x8F
  else .never

/-- One byte between characters: the pieces it completes and the character it begins. -/
def beginWith (byte : UInt8) : List Piece × Option Partial :=
  match Lead.of byte with
  | .single value => ([.char value 1], none)
  | .several start => ([], some start)
  | .never => ([.malformed 1], none)

/-- One byte inside a character. -/
def continueWith (part : Partial) (byte : UInt8) : List Piece × Option Partial :=
  if part.low ≤ byte ∧ byte ≤ part.high then
    let bits := part.bits * 64 + (byte.toNat - 0x80)
    if part.owed ≤ 1 then ([.char (Char.ofNat bits) (part.read + 1)], none)
    else ([], some ⟨bits, part.read + 1, part.owed - 1, 0x80, 0xBF⟩)
  else
    let (pieces, next) := beginWith byte
    (.malformed part.read :: pieces, next)

/-- One byte. -/
def feed (pending : Option Partial) (byte : UInt8) : List Piece × Option Partial :=
  match pending with
  | none => beginWith byte
  | some part => continueWith part byte

/-- The pieces of a text that starts inside the given character. -/
def piecesFrom (pending : Option Partial) : Bytes → List Piece
  | [] =>
    match pending with
    | none => []
    | some part => [.truncated part.read]
  | byte :: rest => (feed pending byte).1 ++ piecesFrom (feed pending byte).2 rest

/-- The pieces of a text, in order. -/
def pieces (text : Bytes) : List Piece := piecesFrom none text

/-! ### Decoding -/

/-- The first ill-formed part of a text: where it begins, and its length unless it is a character
that the end of the text cuts off. -/
structure Fault where
  index : Nat
  length : Option Nat
  deriving DecidableEq, Repr

def Fault.message (fault : Fault) : String :=
  match fault.length with
  | some length => s!"invalid utf-8 sequence of {length} bytes from index {fault.index}"
  | none => s!"incomplete utf-8 byte sequence from index {fault.index}"

/-- The characters of the pieces, the first of which stands at the given index. -/
def charsFrom (index : Nat) : List Piece → Except Fault (List Char)
  | [] => .ok []
  | .char value length :: rest => (charsFrom (index + length) rest).map (value :: ·)
  | .malformed length :: _ => .error ⟨index, some length⟩
  | .truncated _ :: _ => .error ⟨index, none⟩

/-- The string a text encodes. -/
def decode (text : Bytes) : Except Fault String :=
  (charsFrom 0 (pieces text)).map String.ofList

/-- What stands in for an ill-formed part. -/
def replacement : Char := '\uFFFD'

def Piece.shown : Piece → Char
  | .char value _ => value
  | .malformed _ => replacement
  | .truncated _ => replacement

/-- The string a text encodes, with each ill-formed part replaced by one character. -/
def decodeLossy (text : Bytes) : String :=
  String.ofList ((pieces text).map Piece.shown)

end Scoresheet.Utf8
