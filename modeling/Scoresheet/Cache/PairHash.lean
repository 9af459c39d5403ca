/-
This file defines one hash of header pairs. A byte string is folded to one word by multiplying its
words, taken in pairs and mixed with fixed constants, to double width and adding the two halves bit
by bit. The hash of a pair then combines the lengths and the folded words of its two parts in a
polynomial. Words are read with their lowest byte first, and arithmetic is modulo the word size.

Different pairs may have the same hash, for example two values of sixteen bytes whose first eight
cancel the first constant.
-/

import Scoresheet.HeaderPair

namespace Scoresheet.PairHash

/-- The two halves of a double-width product, added bit by bit. -/
def multiplyMix (left right : UInt64) : UInt64 :=
  let product := left.toNat * right.toNat
  UInt64.ofNat product ^^^ UInt64.ofNat (product / 0x10000000000000000)

/-- The number written by bytes, lowest first. -/
def word (text : Bytes) : UInt64 :=
  text.foldr (fun byte rest => rest * 256 + byte.toUInt64) 0

def firstSeed : UInt64 := 0x243f6a8885a308d3
def secondSeed : UInt64 := 0x13198a2e03707344
def chunkSeed : UInt64 := 0xa4093822299f31d0
def multiplier : UInt64 := 0xf1357aea2e62a9c5

/-- Mixes in chunks of sixteen bytes until at most sixteen bytes are left. The first argument
bounds the number of chunks. -/
def mixChunks : Nat → UInt64 × UInt64 → Bytes → UInt64 × UInt64
  | 0, seeds, _ => seeds
  | count + 1, (first, second), text =>
    if text.drop 16 = [] then (first, second)
    else
      let mixed := multiplyMix (first ^^^ word (text.take 8))
        (chunkSeed ^^^ word ((text.drop 8).take 8))
      mixChunks count (second, mixed) (text.drop 16)

/-- The word a byte string is folded to. -/
def fold (text : Bytes) : UInt64 :=
  let length := text.length
  let last (count : Nat) : UInt64 := word (text.drop (length - count))
  let (first, second) :=
    if 16 < length then
      let (first, second) := mixChunks length (firstSeed, secondSeed) text
      (first ^^^ word ((text.drop (length - 16)).take 8), second ^^^ last 8)
    else if 8 ≤ length then (firstSeed ^^^ word (text.take 8), secondSeed ^^^ last 8)
    else if 4 ≤ length then (firstSeed ^^^ word (text.take 4), secondSeed ^^^ last 4)
    else if 1 ≤ length then
      let middle := (text.getD (length / 2) 0).toUInt64
      let final := (text.getD (length - 1) 0).toUInt64
      (firstSeed ^^^ (text.getD 0 0).toUInt64, secondSeed ^^^ (final * 256 ||| middle))
    else (firstSeed, secondSeed)
  multiplyMix first second ^^^ UInt64.ofNat length

/-- The hash of a pair. -/
def hash (pair : HeaderPair) : UInt64 :=
  let parts := [UInt64.ofNat pair.name.length, fold pair.name, UInt64.ofNat pair.value.length,
    fold pair.value]
  parts.foldl (fun sum part => (sum + part) * multiplier) 0

scoped instance : Hashable HeaderPair := ⟨hash⟩

end Scoresheet.PairHash
