/-
This file shows games on one line for diagnostics. A value is shown as its type name with its
fields between braces, lists stand in square brackets with commas, and an optional part is either
`None` or stands in parentheses. Moves and their comments are shown as quoted strings and leave
out what they do not have; the comment of a game is shown byte by byte.
-/

import Scoresheet.Game.Record

namespace Scoresheet.Display

/-- Items with a comma and a space between neighbours. -/
def commas : List String → String
  | [] => ""
  | [item] => item
  | item :: rest => item ++ ", " ++ commas rest

def list (items : List String) : String := "[" ++ commas items ++ "]"

/-- A type name with the fields of a value. -/
def fields (name : String) (items : List (String × String)) : String :=
  name ++ " \x7b " ++ commas (items.map fun item => item.1 ++ ": " ++ item.2) ++ " \x7d"

def option : Option String → String
  | none => "None"
  | some text => "Some(" ++ text ++ ")"

def quoted (text : Bytes) : String := Quoted.shown (Utf8.decodeLossy text)

def bytes (text : Bytes) : String := list (text.map fun byte => toString byte.toNat)

def nag (nag : Nag) : String := "Nag(" ++ toString nag.code.toNat ++ ")"

mutual

def move : Move → String
  | ⟨text, none⟩ => fields "Move" [("text", quoted text)]
  | ⟨text, some ⟨comment, nags, variations⟩⟩ =>
    fields "Move"
      ([("text", quoted text)]
        ++ (match comment with
          | none => []
          | some comment => [("comment", quoted comment)])
        ++ (if nags.isEmpty then [] else [("nags", list (nags.map nag))])
        ++ (if variations.isEmpty then []
          else [("variations", list (variationItems variations))]))

def turn : Turn → String
  | .whiteOnly number white =>
    fields "MoveText" [("number", toString number.toNat), ("white", option (some (move white))),
      ("black", option none)]
  | .blackOnly number black =>
    fields "MoveText" [("number", toString number.toNat), ("white", option none),
      ("black", option (some (move black)))]
  | .both number white black =>
    fields "MoveText" [("number", toString number.toNat), ("white", option (some (move white))),
      ("black", option (some (move black)))]

def turnItems : List Turn → List String
  | [] => []
  | item :: rest => turn item :: turnItems rest

def variationItems : List (List Turn) → List String
  | [] => []
  | line :: rest => list (turnItems line) :: variationItems rest

end

def game (game : Game) : String :=
  fields "Game"
    [("headers", option (game.headers.map fun pairs => list (pairs.map HeaderPair.display))),
      ("comment", option (game.comment.map bytes)),
      ("moves", list (turnItems game.moves)),
      ("outcome", game.outcome.name)]

end Scoresheet.Display
