/-
This file gives the plain data form in which games are handed to other programs. A record lists
its named fields in a fixed order, missing parts are written out as absent, and texts are lists of
byte values, so nothing about a game depends on how its text is encoded.
-/

import Scoresheet.Game

namespace Scoresheet

/-- Plain data. -/
inductive Datum where
  | absent
  | number (value : Nat)
  | name (text : String)
  | list (items : List Datum)
  | record (fields : List (String × Datum))

namespace Datum

def ofBytes (text : Bytes) : Datum := .list (text.map fun byte => .number byte.toNat)

def ofOption {Value : Type} (write : Value → Datum) : Option Value → Datum
  | none => .absent
  | some value => write value

end Datum

def HeaderPair.toDatum (pair : HeaderPair) : Datum :=
  .record [("name", .ofBytes pair.name), ("value", .ofBytes pair.value)]

/-- The name of an outcome in plain data and displays. -/
def Outcome.name : Outcome → String
  | whiteWins => "WhiteWins"
  | blackWins => "BlackWins"
  | draw => "Draw"
  | unknown => "Unknown"

mutual

def Move.toDatum : Move → Datum
  | ⟨text, none⟩ => .record [("text", .ofBytes text), ("details", .absent)]
  | ⟨text, some ⟨comment, nags, variations⟩⟩ =>
    .record [("text", .ofBytes text),
      ("details",
        .record [("comment", .ofOption .ofBytes comment),
          ("nags", .list (nags.map fun nag => .number nag.code.toNat)),
          ("variations", .list (variationsToData variations))])]

def Turn.toDatum : Turn → Datum
  | .whiteOnly number white =>
    .record [("number", .number number.toNat), ("white", white.toDatum), ("black", .absent)]
  | .blackOnly number black =>
    .record [("number", .number number.toNat), ("white", .absent), ("black", black.toDatum)]
  | .both number white black =>
    .record [("number", .number number.toNat), ("white", white.toDatum),
      ("black", black.toDatum)]

def lineToData : List Turn → List Datum
  | [] => []
  | turn :: rest => turn.toDatum :: lineToData rest

def variationsToData : List (List Turn) → List Datum
  | [] => []
  | line :: rest => .list (lineToData line) :: variationsToData rest

end

def Game.toDatum (game : Game) : Datum :=
  .record [("headers", .ofOption (fun pairs => .list (pairs.map HeaderPair.toDatum)) game.headers),
    ("comment", .ofOption .ofBytes game.comment),
    ("moves", .list (lineToData game.moves)),
    ("outcome", .name game.outcome.name)]

end Scoresheet
