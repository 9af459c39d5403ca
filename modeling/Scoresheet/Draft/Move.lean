/-
This file assembles a move and what follows it. Annotations, comments and variations may follow in
any order; each kind is gathered on its own. When the move is complete, the descriptions of its
annotations are added to its comment if a separator for them is set.
-/

import Scoresheet.Draft.Comment
import Scoresheet.Move
import Scoresheet.Nag.Description
import Scoresheet.Nag.Inline

namespace Scoresheet

/-- A move under way. -/
structure MoveDraft where
  text : Bytes
  comment : Option Bytes
  nags : List Nag
  /-- The variations so far, latest first. -/
  variations : List Line

namespace MoveDraft

/-- A move as it is written, with the glyphs written against it split off if asked for. -/
def start (config : Config) (text : Bytes) : MoveDraft :=
  if config.extractInlineAnnotations then
    let (text, nags) := Nag.splitInline text
    ⟨text, none, nags, []⟩
  else ⟨text, none, [], []⟩

/-- Adds a code, unless it is there and may not be repeated. -/
def addNag (config : Config) (nag : Nag) (draft : MoveDraft) : MoveDraft :=
  if config.allowDuplicateAnnotations || !draft.nags.contains nag then
    { draft with nags := draft.nags ++ [nag] }
  else draft

/-- Adds an annotation. Those beyond the limit are dropped, whatever they are. -/
def annotate (config : Config) (token : Token) (draft : MoveDraft) : Except ReadError MoveDraft :=
  if draft.nags.length < config.annotationLimit then
    match Nag.ofText? token.text with
    | some nag => .ok (draft.addNag config nag)
    | none =>
      if config.nullOnInvalidNag then .ok (draft.addNag config .null)
      else .error (.invalidNag token.text token.position)
  else .ok draft

def addComment (config : Config) (text : Bytes) (draft : MoveDraft) : MoveDraft :=
  { draft with comment := Comment.add config draft.comment text }

/-- Adds a variation, unless it is empty or variations are left out. -/
def addVariation (config : Config) (line : Line) (draft : MoveDraft) : MoveDraft :=
  if config.skip.variations || line.isEmpty then draft
  else { draft with variations := line :: draft.variations }

/-- The comment with the descriptions of the annotations behind it. -/
def describe (template : Bytes) (nags : List Nag) (comment : Option Bytes) : Option Bytes :=
  match Nag.rendered template nags with
  | none => comment
  | some rendered =>
    match comment with
    | none => some rendered
    | some [] => some rendered
    | some text => some (text ++ template ++ rendered)

/-- The complete move. -/
def finish (config : Config) (draft : MoveDraft) : Move :=
  let comment :=
    match config.annotationTemplate with
    | none => draft.comment
    | some template => describe (Bytes.ofString template) draft.nags draft.comment
  .of draft.text comment draft.nags draft.variations.reverse

@[simp] theorem variations_finish (config : Config) (draft : MoveDraft) :
    (draft.finish config).variations = draft.variations.reverse := Move.variations_of ..

end MoveDraft

end Scoresheet
