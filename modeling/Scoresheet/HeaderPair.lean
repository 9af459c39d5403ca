/-
This file defines a header pair such as `[Event "Casual game"]`. The value is kept as written,
without its quotes; decoding it replaces the two escapes, a backslash before a backslash and a
backslash before a quote, by their second byte and leaves any other backslash alone.

Few values have escapes, so decoding goes from backslash to backslash and copies what lies between
two escapes at once. A value in which nothing is replaced is not copied at all.
-/

import Scoresheet.Text.Quoted
import Scoresheet.Text.Utf8

namespace Scoresheet

structure HeaderPair where
  name : Bytes
  value : Bytes
  deriving DecidableEq, Repr

namespace HeaderPair

open Ascii

/-- Whether a byte behind a backslash makes an escape with it. -/
def isEscapable (byte : UInt8) : Bool := byte == backslash || byte == quote

/-- Where the backslashes of a text are. -/
def backslashes (text : Bytes) : List Nat :=
  (text.zipIdx.filter (·.1 == backslash)).map Prod.snd

/-- How far the escapes of a value were replaced: what was copied, where the part begins that is
still to be copied, and the end of the last escape. -/
structure Decoding where
  copied : Array UInt8
  head : Nat
  escapedUntil : Nat
  deriving DecidableEq, Repr

namespace Decoding

/-- Before the first backslash. -/
def start : Decoding := ⟨#[], 0, 0⟩

/-- Looks at a backslash of the value. If it makes an escape with the byte behind it, and is not the
second byte of an escape itself, what comes before it is copied and it is left out. -/
def look (value : Array UInt8) (decoding : Decoding) (escape : Nat) : Decoding :=
  match value[escape + 1]? with
  | none => decoding
  | some byte =>
    if decoding.escapedUntil ≤ escape ∧ isEscapable byte then
      ⟨decoding.copied ++ value.extract decoding.head escape, escape + 1, escape + 2⟩
    else decoding

/-- What was copied, and the rest of the value. -/
def finish (value : Array UInt8) (decoding : Decoding) : Bytes :=
  (decoding.copied ++ value.extract decoding.head).toList

end Decoding

/-- Looks at all backslashes of the value in turn. -/
def decoding (pair : HeaderPair) : Decoding :=
  (backslashes pair.value).foldl (Decoding.look pair.value.toArray) .start

/-- Whether decoding replaces nothing, so that the value as written can be used. The copy then still
begins where the value does. -/
def isPlain (pair : HeaderPair) : Bool := pair.decoding.head == 0

/-- The value with its escapes replaced. -/
def decode (pair : HeaderPair) : Bytes :=
  if pair.isPlain then pair.value else pair.decoding.finish pair.value.toArray

/-- The decoded value as a string, if it encodes one. -/
def decodeUtf8 (pair : HeaderPair) : Except Utf8.Fault String := Utf8.decode pair.decode

/-- The decoded value as a string, with the parts that encode nothing replaced. -/
def decodeLossy (pair : HeaderPair) : String := Utf8.decodeLossy pair.decode

/-- The pair as a diagnostic display shows it. -/
def display (pair : HeaderPair) : String :=
  s!"[{Utf8.decodeLossy pair.name} {Quoted.shown pair.decodeLossy}]"

end HeaderPair

end Scoresheet
