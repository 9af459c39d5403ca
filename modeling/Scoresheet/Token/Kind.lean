/-
This file names the tokens of a score sheet. A token kind says what a run of bytes means where it
stands, and a scope says which of the two languages of a game file is being read: the header
section with its bracketed pairs, or the movetext up to the termination marker.
-/

namespace Scoresheet

/-- What a token is. An undefined token stands for the end of the input and for a run of bytes that
means nothing where it stands. -/
inductive TokenKind where
  | undefined
  | headerBegin
  | headerName
  | separator
  | valueBegin
  | value
  | valueEnd
  | headerEnd
  | moveNumber
  | dot
  | ellipsis
  | whiteMove
  | blackMove
  | commentBegin
  | comment
  | commentEnd
  | lineComment
  | variationBegin
  | variationEnd
  | nag
  | termination
  deriving DecidableEq, Repr

namespace TokenKind

/-- The kind as messages call it. -/
def name : TokenKind → String
  | undefined => "undefined"
  | headerBegin => "header begin"
  | headerName => "header name"
  | separator => "name/value separator"
  | valueBegin => "value begin"
  | value => "value"
  | valueEnd => "value end"
  | headerEnd => "header end"
  | moveNumber => "move number"
  | dot => "dot"
  | ellipsis => "skip previous move"
  | whiteMove => "white move"
  | blackMove => "black move"
  | commentBegin => "comment begin"
  | comment => "comment"
  | commentEnd => "comment end"
  | lineComment => "line comment"
  | variationBegin => "variation begin"
  | variationEnd => "variation end"
  | nag => "annotation"
  | termination => "game termination"

/-- Whether the token occurs in a header section only. -/
def isHeader : TokenKind → Bool
  | headerBegin | headerName | separator | valueBegin | value | valueEnd | headerEnd => true
  | _ => false

/-- Several kinds as an alternative: commas between them, and a word before the last. -/
def listing : List TokenKind → String
  | [] => ""
  | [kind] => kind.name
  | [first, last] => first.name ++ " or " ++ last.name
  | kind :: rest => kind.name ++ ", " ++ listing rest

end TokenKind

/-- The language being read. -/
inductive Scope where
  /-- Nothing that could be read as a token follows. -/
  | outside
  | header
  | movetext
  /-- Directly behind a termination marker. -/
  | termination
  deriving DecidableEq, Repr

end Scoresheet
