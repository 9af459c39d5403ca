/-
This file splits glyphs off the end of a move they are written against. The first two bytes always
belong to the move. From the third on, a two-byte glyph is preferred to a one-byte one wherever
both fit, bytes that begin no glyph are stepped over, and the move ends where the first glyph
begins. A trailing `N` marks a novelty unless it is the piece a pawn is promoted to.
-/

import Scoresheet.Nag

namespace Scoresheet.Nag

open Ascii

/-- The glyphs that may be written against a move, longer ones first. -/
def inlineGlyphs : List (Bytes × Nag) :=
  [([exclamation, exclamation], brilliantMove),
    ([question, question], blunder),
    ([exclamation, question], speculativeMove),
    ([question, exclamation], dubiousMove),
    ([plus, minus], whiteDecisiveAdvantage),
    ([minus, plus], blackDecisiveAdvantage),
    ([plus, equals], whiteSlightAdvantage),
    ([equals, plus], blackSlightAdvantage),
    ([capitalR, capitalR], editorialComment),
    ([exclamation], goodMove),
    ([question], mistake)]

/-- The number of different glyphs taken from one move. -/
def inlineLimit : Nat := 8

/-- Whether the last `N` of a move marks a novelty, given the first byte of the move and the one
before it: behind an equals sign, or behind the last rank in a move of a pawn, it is a piece. -/
def marksNovelty (first previous : UInt8) : Bool :=
  if previous = equals then false
  else if previous = one ∨ previous = eight then !isBoardFile first
  else true

/-- The glyph at the start of a text, with its length, given the first byte of the move and the
one before the text. -/
def inlineGlyph? (first previous : UInt8) (text : Bytes) : Option (Nat × Nag) :=
  match inlineGlyphs.find? (·.1.isPrefixOf text) with
  | some (glyph, nag) => some (glyph.length, nag)
  | none => if text = [capitalN] ∧ marksNovelty first previous then some (1, novelty) else none

/-- Adds a code to those already found, once, at the end. -/
def addOnce (nags : List Nag) (nag : Nag) : List Nag :=
  if nags.contains nag then nags else nags ++ [nag]

/-- The different codes met from here on, after those already found. The first argument counts
the bytes of a glyph that are still to be passed. -/
def gatherInline (first : UInt8) : Nat → List Nag → UInt8 → Bytes → List Nag
  | _, nags, _, [] => nags
  | passing + 1, nags, _, byte :: rest => gatherInline first passing nags byte rest
  | 0, nags, previous, byte :: rest =>
    if nags.length ≥ inlineLimit then nags
    else
      match inlineGlyph? first previous (byte :: rest) with
      | some (length, nag) => gatherInline first (length - 1) (addOnce nags nag) byte rest
      | none => gatherInline first 0 nags byte rest

/-- The part of a text before its first glyph, and the codes from there on. -/
def splitAtGlyph (first : UInt8) (previous : UInt8) : Bytes → Bytes × List Nag
  | [] => ([], [])
  | byte :: rest =>
    match inlineGlyph? first previous (byte :: rest) with
    | some _ => ([], gatherInline first 0 [] previous (byte :: rest))
    | none =>
      let (text, nags) := splitAtGlyph first byte rest
      (byte :: text, nags)

/-- The move without the glyphs written against it, and their codes in order of appearance. -/
def splitInline : Bytes → Bytes × List Nag
  | first :: second :: rest =>
    let (text, nags) := splitAtGlyph first second rest
    (first :: second :: text, nags)
  | text => (text, [])

end Scoresheet.Nag
