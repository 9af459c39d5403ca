/-
This file says how the next token is told. The scope is found first, at the beginning of the input
and behind each header pair, termination marker and leading comment: a bracket opens a header
section, and letters, digits, braces, semicolons and stars open the movetext. Within a scope the
next byte that matters decides the kind of the token, except that a bare run of letters is a white
move, a black move or nothing by the kind of the token before it.
-/

import Scoresheet.Lexer.Runs
import Scoresheet.Outcome

namespace Scoresheet

open Ascii

/-! ### What a run means -/

/-- The mark a text in this encoding may begin with. -/
def byteOrderMark : Bytes := [0xEF, 0xBB, 0xBF]

/-- The termination markers that begin with a digit, longest first. -/
def numericMarkers : List Bytes :=
  [Outcome.draw.marker, Outcome.whiteWins.marker, Outcome.blackWins.marker]

/-- The glyphs that are annotations although a move could begin like them. -/
def standaloneGlyphs : List Bytes :=
  [[plus, minus], [minus, plus], [plus, equals], [equals, plus], [plus, slash, minus],
    [minus, slash, plus], [equals]]

/-- The tokens of the movetext that are a single delimiter. -/
def delimiterKind? (byte : UInt8) : Option TokenKind :=
  if byte = openBrace then some .commentBegin
  else if byte = closeBrace then some .commentEnd
  else if byte = openParen then some .variationBegin
  else if byte = closeParen then some .variationEnd
  else none

/-- The kind of a move run behind a token: the side to move, if there can be a move. -/
def TokenKind.moveKindAfter : TokenKind → TokenKind
  | dot | undefined | blackMove => whiteMove
  | whiteMove | commentEnd | variationEnd | nag | ellipsis | lineComment => blackMove
  | _ => undefined

/-- Whether a byte opens the movetext. -/
def opensMovetext (byte : UInt8) : Bool :=
  isDigit byte || isLetter byte || byte == openBrace || byte == semicolon || byte == star

namespace Lexer

/-- The state at the end of the input, or of what can be read as tokens. -/
def finish (lexer : Lexer) : Lexer :=
  { lexer with scope := .outside, unsettled := false, start := lexer.place.position }

/-- Counts the first line from behind a byte order mark. -/
def passMark (lexer : Lexer) : Lexer :=
  if byteOrderMark.isPrefixOf lexer.source.buffer then
    let passed := lexer.pass byteOrderMark.length
    { passed with place := { passed.place with lineStart := passed.place.offset } }
  else lexer

/-- Finds the scope from the next byte that matters. The movetext starts fresh, so that a bare run
in front of it is a white move. -/
def settle (next : Option UInt8) (lexer : Lexer) : Lexer :=
  match next with
  | none => { lexer with scope := .outside }
  | some byte =>
    if byte = openBracket then { lexer with scope := .header }
    else if lexer.scope = .movetext ∨ opensMovetext byte then
      { lexer with scope := .movetext, kind := .undefined, opening := true }
    else { lexer with scope := .outside }

/-- Enters the scope behind a termination marker. -/
def terminate (lexer : Lexer) : Lexer := { lexer with scope := .termination, unsettled := true }

/-- Tells from the kind of a new token whether headers may still follow. -/
def closeOpening (kind : TokenKind) (lexer : Lexer) : Lexer :=
  if lexer.opening then
    match kind with
    | .commentBegin | .comment => lexer
    | .commentEnd | .lineComment => { lexer with unsettled := true }
    | _ => { lexer with opening := false }
  else lexer

end Lexer

/-! ### Telling the next token -/

namespace Scan

def finish : Scan TokenKind := do
  change Lexer.finish
  return .undefined

def passByteOrderMark : Scan Unit := do
  if (← look (·.place.offset)) = 0 then
    fill
    change Lexer.passMark

def findScope : Scan Unit := do
  change ({ · with unsettled := false })
  let next ← passSpace
  change (Lexer.settle next)

/-- A token that is one byte. -/
def delimiter (kind : TokenKind) : Scan TokenKind := do
  pass 1
  return kind

def terminate : Scan TokenKind := do
  change Lexer.terminate
  return .termination

/-- Text that a certain byte closes, or that byte. -/
def quotedToken (closing : UInt8) (text close : TokenKind) : Scan TokenKind := do
  markStart
  match ← peek with
  | none => finish
  | some byte =>
    if byte = closing then delimiter close
    else
      captureQuoted closing
      return text

/-- A token of the header section that begins with the given byte. -/
def headerTokenAt (byte : UInt8) : Scan TokenKind := do
  let previous ← look (·.kind)
  if byte = openBracket then delimiter .headerBegin
  else if byte = closeBracket then
    pass 1
    change ({ · with unsettled := true })
    return .headerEnd
  else if byte = quote then
    delimiter (if previous = .value then .valueEnd else .valueBegin)
  else
    captureUntil fun next =>
      isSpace next || next == quote || next == closeBracket || next == openBracket
    return if previous = .headerBegin then .headerName else .value

/-- A token behind white space. -/
def spacedToken (token : UInt8 → Scan TokenKind) : Scan TokenKind := do
  match ← passSpace with
  | none => finish
  | some byte =>
    markStart
    token byte

/-- The blanks behind a header name. -/
def separatorToken : Scan TokenKind := do
  markStart
  captureUntil (!isBlank ·)
  return .separator

def headerToken : Scan TokenKind := do
  match ← look (·.kind) with
  | .valueBegin => quotedToken quote .value .valueEnd
  | .headerName =>
    match ← peek with
    | some byte => if isBlank byte then separatorToken else spacedToken headerTokenAt
    | none => spacedToken headerTokenAt
  | _ => spacedToken headerTokenAt

/-- The kind of the move that was just kept. -/
def moveKind : Scan TokenKind := look (·.kind.moveKindAfter)

/-- What a run of digits is, by the byte behind it: a move number, or the beginning of a move whose
castling is written with zeros. -/
def behindDigits (next : Option UInt8) : Scan TokenKind :=
  match next with
  | some byte =>
    if byte = minus ∨ isLetter byte then do
      captureUntil isDelimiter
      moveKind
    else return .moveNumber
  | none => return .moveNumber

/-- A run that begins with a digit and is no termination marker. -/
def numberToken : Scan TokenKind := do
  captureUntil (!isDigit ·)
  behindDigits (← peek)

/-- A run that begins with a digit: a termination marker, or a number. -/
def digitToken : Scan TokenKind := do
  let buffer ← look (·.source.buffer)
  match numericMarkers.find? (·.isPrefixOf buffer) with
  | some marker =>
    capture marker.length
    terminate
  | none => numberToken

/-- A run that begins like a move: a standalone glyph, or a move. -/
def moveToken : Scan TokenKind := do
  captureUntil isDelimiter
  if standaloneGlyphs.contains (← look (·.span)) then return .nag
  else moveKind

/-- A token of the movetext that begins with the given byte. -/
def movetextTokenAt (byte : UInt8) : Scan TokenKind := do
  match delimiterKind? byte with
  | some kind => delimiter kind
  | none =>
    if byte = semicolon then
      pass 1
      captureLine
      return .lineComment
    else if byte = dollar then
      capture 1
      captureUntil isDelimiter
      return .nag
    else if byte = exclamation ∨ byte = question then
      captureUntil fun next => !(next == exclamation || next == question)
      return .nag
    else if byte = star then
      capture 1
      terminate
    else if byte = dot then
      captureUntil (· != dot)
      return if (← look (·.captured)) = [dot] then .dot else .ellipsis
    else if isDigit byte then digitToken
    else if byte = openBracket ∨ byte = closeBracket ∨ byte = quote then
      capture 1
      return .undefined
    else moveToken

def movetextToken : Scan TokenKind := do
  if (← look (·.kind)) = .commentBegin then quotedToken closeBrace .comment .commentEnd
  else spacedToken movetextTokenAt

/-- A token of the scope that was found. -/
def scopedToken : Scan TokenKind := do
  match ← look (·.scope) with
  | .outside => finish
  | .header => headerToken
  | .movetext | .termination =>
    let kind ← movetextToken
    change (Lexer.closeOpening kind)
    return kind

def nextToken : Scan TokenKind := do
  if ← look (·.unsettled) then
    passByteOrderMark
    findScope
  scopedToken

/-- Makes the next token the current one. If the source fails, the current kind stays, unless the
movetext was entered before. -/
def advance : Scan Unit := do
  change ({ · with captured := [] })
  let kind ← nextToken
  change ({ · with kind })

end Scan

end Scoresheet
