/-
This file assembles comments. A braced comment consists of a brace, at most one text and a closing
brace; a line comment is a single token. Every comment is trimmed and cut to its greatest length on
its own before it is added, without a separator, to those before it.
-/

import Scoresheet.Config
import Scoresheet.Token

namespace Scoresheet

/-- How far a braced comment has been read. -/
inductive CommentPhase where
  /-- Outside a comment. -/
  | idle
  /-- Behind the opening brace. -/
  | opened
  /-- Behind the text. -/
  | filled (text : Bytes)
  deriving DecidableEq, Repr

namespace CommentPhase

/-- The tokens that can follow inside a comment. -/
def expected : CommentPhase → List TokenKind
  | idle => []
  | opened => [.comment, .commentEnd]
  | filled _ => [.commentEnd]

end CommentPhase

namespace Comment

/-- A comment as it is kept. -/
def tidy (config : Config) (text : Bytes) : Bytes :=
  let trimmed := if config.trimComments then text.trim else text
  match config.commentMaxLength with
  | none => trimmed
  | some length => trimmed.take length

/-- Adds a comment to those before it, unless comments are left out. -/
def add (config : Config) (comment : Option Bytes) (text : Bytes) : Option Bytes :=
  if config.skip.comments then comment else some (comment.getD [] ++ tidy config text)

end Comment

end Scoresheet
