/-
This file gives the grammar of a game, apart from any way of reading it. A production says from
which tokens a phrase derives and what the phrase stands for: a comment its text, a header its pair,
a sequence its turns. Tokens are told apart by their kinds alone, except that a move number which is
repeated before a move told to be of white has to be written alike.

Every phrase grows at its end: what may be repeated is a shorter row with one more phrase behind it.
What follows a move is gathered in three rows, and only the whole rows say what the move has: the
numbers, codes, comments and lines are given here outright and not by what a reader does with one
token after the other.
-/

import Mathlib.Data.List.DropRight
import Mathlib.Data.Nat.Digits.Defs
import Scoresheet.Config
import Scoresheet.Game
import Scoresheet.Nag.Description
import Scoresheet.Nag.Inline
import Scoresheet.Token

namespace Scoresheet

/-! ### What rows of texts stand for -/

/-- The value of a run of digits. -/
def Bytes.decimalValue (digits : Bytes) : Nat :=
  Nat.ofDigits 10 (digits.map fun digit => digit.toNat - 48).reverse

namespace Comment

open Ascii

/-- The bytes that are trimmed from the ends of a comment. -/
def blanks : List UInt8 := [space, tab, lineFeed, formFeed, carriageReturn]

/-- A comment as it is kept: without the blanks at its ends if they are trimmed, and then cut to the
greatest length. -/
def kept (config : Config) (text : Bytes) : Bytes :=
  let trimmed :=
    if config.trimComments then (text.dropWhile blanks.contains).rdropWhile blanks.contains
    else text
  match config.commentMaxLength with
  | none => trimmed
  | some length => trimmed.take length

/-- The comments one behind the other, each as it is kept. -/
def joined (config : Config) (texts : List Bytes) : Option Bytes :=
  if config.skip.comments ∨ texts = [] then none else some (texts.flatMap (kept config))

/-- A comment with descriptions behind it, and the separator between them unless one is missing. -/
def glossed (separator : Bytes) (comment described : Option Bytes) : Option Bytes :=
  match described with
  | none => comment
  | some text =>
    if comment.getD [] = [] then some text else some (comment.getD [] ++ separator ++ text)

end Comment

namespace Nag

/-- The codes with one more, unless it is there and may not be repeated. -/
def put (config : Config) (held : List Nag) (nag : Nag) : List Nag :=
  if config.allowDuplicateAnnotations || !held.contains nag then held ++ [nag] else held

/-- The codes with that of an annotation, or the code zero for one that means nothing. Once the
limit is reached annotations are ignored, whatever they are. -/
def noted (config : Config) (held : List Nag) (text : Bytes) : List Nag :=
  if config.annotationLimit ≤ held.length then held
  else put config held ((Nag.ofText? text).getD .null)

end Nag

/-- The variations that are not empty. -/
def Line.kept (config : Config) (lines : List Line) : List Line :=
  if config.skip.variations then [] else lines.filter (!·.isEmpty)

namespace Move

/-- The text of a move and the codes of the glyphs written against it, if these are split off. -/
def split (config : Config) (text : Bytes) : Bytes × List Nag :=
  if config.extractInlineAnnotations then Nag.splitInline text else (text, [])

/-- A move with what follows it. There are no details where nothing does. -/
def withDetails (text : Bytes) : Option Bytes → List Nag → List Line → Move
  | none, [], [] => ⟨text, none⟩
  | comment, nags, variations => ⟨text, some ⟨comment, nags, variations⟩⟩

/-- The move that is written as the text, with the annotations, the comments and the variations that
follow it. -/
def composed (config : Config) (text : Bytes) (marks remarks : List Bytes) (asides : List Line) :
    Move :=
  let nags := marks.foldl (Nag.noted config) (split config text).2
  let comment := Comment.joined config remarks
  let described :=
    match config.annotationTemplate.map Bytes.ofString with
    | none => comment
    | some separator => Comment.glossed separator comment (Nag.rendered separator nags)
  withDetails (split config text).1 described nags (Line.kept config asides)

/-- The move with a comment in front of its own, if there is one. -/
def preceded : Option Bytes → Move → Move
  | none, move => move
  | some opening, ⟨text, none⟩ => ⟨text, some ⟨some opening, [], []⟩⟩
  | some opening, ⟨text, some ⟨own, nags, variations⟩⟩ =>
    ⟨text, some ⟨some (opening ++ own.getD []), nags, variations⟩⟩

end Move

namespace Grammar

/-! ### Phrases without inner structure -/

/-- `LineComment | CommentBegin Comment? CommentEnd`, with the text of the comment. -/
inductive Remark : List Token → Bytes → Prop where
  | line {token : Token} (kind : token.kind = .lineComment) : Remark [token] token.text
  | empty {opening closing : Token} (opens : opening.kind = .commentBegin)
      (closes : closing.kind = .commentEnd) : Remark [opening, closing] []
  | braced {opening text closing : Token} (opens : opening.kind = .commentBegin)
      (inside : text.kind = .comment) (closes : closing.kind = .commentEnd) :
      Remark [opening, text, closing] text.text

/-- A token of the kind, with its text, or nothing. -/
inductive Optional (kind : TokenKind) : List Token → Bytes → Prop where
  | absent : Optional kind [] []
  | present {token : Token} (same : token.kind = kind) : Optional kind [token] token.text

/-- `HeaderBegin HeaderName NameValueSeparator? ValueBegin Value? ValueEnd HeaderEnd`. -/
inductive Header : List Token → HeaderPair → Prop where
  | pair {bracket name quote endQuote endBracket : Token} {separator value : List Token}
      {blanks text : Bytes} (begins : bracket.kind = .headerBegin) (named : name.kind = .headerName)
      (separated : Optional .separator separator blanks) (opens : quote.kind = .valueBegin)
      (valued : Optional .value value text) (closes : endQuote.kind = .valueEnd)
      (ends : endBracket.kind = .headerEnd) :
      Header (bracket :: name :: separator ++ quote :: value ++ [endQuote, endBracket])
        ⟨name.text, text⟩

/-- Any number of phrases of one kind. -/
inductive Many {Value : Type} (phrase : List Token → Value → Prop) :
    List Token → List Value → Prop where
  | none : Many phrase [] []
  | more {tokens last : List Token} {values : List Value} {value : Value}
      (before : Many phrase tokens values) (next : phrase last value) :
      Many phrase (tokens ++ last) (values ++ [value])

/-! ### The movetext -/

/-- The number of a turn that begins with the digits, or the largest one if that is smaller. -/
def number (digits : Bytes) : UInt32 := UInt32.ofNat (min digits.decimalValue 4294967295)

/-- The header section a game is kept with, which is missing if it has no pairs. -/
def kept (pairs : List HeaderPair) : Option (List HeaderPair) :=
  if pairs = [] then none else some pairs

/-- A variation, with the comments in front of its first move. -/
def led (leading : Option Bytes) : Line → Line
  | [] => []
  | .whiteOnly number white :: rest => .whiteOnly number (white.preceded leading) :: rest
  | .blackOnly number black :: rest => .blackOnly number (black.preceded leading) :: rest
  | .both number white black :: rest => .both number (white.preceded leading) black :: rest

/-- The phrases of the movetext. -/
inductive Phrase where
  /-- What follows a move: the texts of its annotations, its comments and its variations. -/
  | items (marks remarks : List Bytes) (asides : List Line)
  /-- A move with what follows it, told by a token of the given kind. -/
  | half (told : TokenKind) (move : Move)
  /-- What stands before the move of black: the number, and the move of white if there is one. The
  move of black is told by a token of the given kind. -/
  | lead (number : UInt32) (white : Option Move) (told : TokenKind)
  /-- A number with the move of black and perhaps one of white. -/
  | turn (turn : Turn)
  | turns (line : Line)
  /-- Turns of which the last may lack the move of black. -/
  | sequence (line : Line)
  /-- Sequences with a closing parenthesis behind each. -/
  | bodies (count : Nat) (line : Line)
  | variation (line : Line)

/-- The tokens derive from the phrase. -/
inductive Derives (config : Config) : Phrase → List Token → Prop where
  | noItems : Derives config (.items [] [] []) []
  | nag {marks remarks : List Bytes} {asides : List Line} {tokens : List Token} {token : Token}
      (before : Derives config (.items marks remarks asides) tokens) (kind : token.kind = .nag) :
      Derives config (.items (marks ++ [token.text]) remarks asides) (tokens ++ [token])
  | remark {marks remarks : List Bytes} {asides : List Line} {tokens last : List Token}
      {text : Bytes} (before : Derives config (.items marks remarks asides) tokens)
      (next : Remark last text) :
      Derives config (.items marks (remarks ++ [text]) asides) (tokens ++ last)
  | aside {marks remarks : List Bytes} {asides : List Line} {tokens last : List Token} {line : Line}
      (before : Derives config (.items marks remarks asides) tokens)
      (next : Derives config (.variation line) last) :
      Derives config (.items marks remarks (asides ++ [line])) (tokens ++ last)
  | half {told : TokenKind} {token : Token} {items : List Token} {marks remarks : List Bytes}
      {asides : List Line} (moves : told = .whiteMove ∨ told = .blackMove)
      (kind : token.kind = told) (followed : Derives config (.items marks remarks asides) items) :
      Derives config (.half told (.composed config token.text marks remarks asides))
        (token :: items)
  | direct {first dot : Token} {white : List Token} {move : Move}
      (numbered : first.kind = .moveNumber) (dotted : dot.kind = .dot)
      (moved : Derives config (.half .whiteMove move) white) :
      Derives config (.lead (number first.text) (some move) .blackMove) (first :: dot :: white)
  | deferred {first dot again ellipsis : Token} {white : List Token} {move : Move}
      (numbered : first.kind = .moveNumber) (dotted : dot.kind = .dot)
      (moved : Derives config (.half .whiteMove move) white)
      (renumbered : again.kind = .moveNumber) (skipped : ellipsis.kind = .ellipsis) :
      Derives config (.lead (number first.text) (some move) .blackMove)
        (first :: dot :: white ++ [again, ellipsis])
  | repeated {first dot again secondDot : Token} {white : List Token} {move : Move}
      (numbered : first.kind = .moveNumber) (dotted : dot.kind = .dot)
      (moved : Derives config (.half .whiteMove move) white)
      (renumbered : again.kind = .moveNumber) (same : again.text = first.text)
      (dottedAgain : secondDot.kind = .dot) :
      Derives config (.lead (number first.text) (some move) .whiteMove)
        (first :: dot :: white ++ [again, secondDot])
  | skipping {first ellipsis : Token} {dots : List Token} {text : Bytes}
      (numbered : first.kind = .moveNumber) (dotted : Optional .dot dots text)
      (skipped : ellipsis.kind = .ellipsis) :
      Derives config (.lead (number first.text) none .blackMove) (first :: dots ++ [ellipsis])
  | both {number : UInt32} {white black : Move} {told : TokenKind} {lead tokens : List Token}
      (led : Derives config (.lead number (some white) told) lead)
      (moved : Derives config (.half told black) tokens) :
      Derives config (.turn (.both number white black)) (lead ++ tokens)
  | blackOnly {number : UInt32} {black : Move} {told : TokenKind} {lead tokens : List Token}
      (led : Derives config (.lead number none told) lead)
      (moved : Derives config (.half told black) tokens) :
      Derives config (.turn (.blackOnly number black)) (lead ++ tokens)
  | noTurns : Derives config (.turns []) []
  | moreTurns {line : Line} {turn : Turn} {tokens last : List Token}
      (before : Derives config (.turns line) tokens) (next : Derives config (.turn turn) last) :
      Derives config (.turns (line ++ [turn])) (tokens ++ last)
  | answered {line : Line} {tokens : List Token} (all : Derives config (.turns line) tokens) :
      Derives config (.sequence line) tokens
  | unanswered {line : Line} {tokens white : List Token} {first dot : Token} {move : Move}
      (before : Derives config (.turns line) tokens) (numbered : first.kind = .moveNumber)
      (dotted : dot.kind = .dot) (moved : Derives config (.half .whiteMove move) white) :
      Derives config (.sequence (line ++ [.whiteOnly (number first.text) move]))
        (tokens ++ first :: dot :: white)
  | noBodies : Derives config (.bodies 0 []) []
  | moreBodies {count : Nat} {line more : Line} {tokens body : List Token} {closing : Token}
      (before : Derives config (.bodies count line) tokens)
      (next : Derives config (.sequence more) body) (closes : closing.kind = .variationEnd) :
      Derives config (.bodies (count + 1) (line ++ more)) (tokens ++ body ++ [closing])
  | variation {opening leading bodies : List Token} {texts : List Bytes} {line : Line}
      (opens : ∀ token ∈ opening, token.kind = .variationBegin) (some : opening ≠ [])
      (comments : Many Remark leading texts)
      (inner : Derives config (.bodies opening.length line) bodies) :
      Derives config (.variation (led (Comment.joined config texts) line))
        (opening ++ leading ++ bodies)

/-- `C* H* C* Seq Termination`, with the game it stands for. -/
inductive Played (config : Config) : List Token → Game → Prop where
  | game {first headers second moves : List Token} {marker : Token} {texts more : List Bytes}
      {pairs : List HeaderPair} {line : Line} {outcome : Outcome}
      (before : Many Remark first texts) (sectioned : Many Header headers pairs)
      (behind : Many Remark second more) (moved : Derives config (.sequence line) moves)
      (ended : marker.kind = .termination) (named : outcome.marker = marker.text) :
      Played config (first ++ headers ++ second ++ moves ++ [marker])
        ⟨kept pairs, Comment.joined config (texts ++ more), line, outcome⟩

end Grammar

end Scoresheet
