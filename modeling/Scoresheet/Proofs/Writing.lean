/-
This file writes games as text, in the form that is read back without loss. A header pair stands on
a line of its own, and an empty line ends the section. The rest of a game is one line: the comment
on the game, the turns and the termination marker, with single spaces in between. What follows a
move is written in the order annotations, comment, variations. Before a move of black the number of
the turn may be repeated or not; the writer is told for which moves of white it is.

Not every game can be written. Texts that are quoted or put between braces have to leave the closing
byte to the writer, a move has to look like a move, and a turn without a move of black can only be
the last of its line.
-/

import Scoresheet.Game
import Scoresheet.Proofs.Content

namespace Scoresheet

open Ascii

/-! ### The text of a game -/

/-- The decimal digits of a number. -/
def Bytes.decimal (value : Nat) : Bytes :=
  (Nat.toDigits 10 value).map fun digit => UInt8.ofNat digit.toNat

/-- A header pair, with its line feed. -/
def HeaderPair.write (pair : HeaderPair) : Bytes :=
  openBracket :: pair.name ++ space :: quote :: pair.value ++ [quote, closeBracket, lineFeed]

/-- A comment between braces. -/
def Comment.write (text : Bytes) : Bytes := openBrace :: text ++ [closeBrace]

def Nag.write (nag : Nag) : Bytes := dollar :: Bytes.decimal nag.code.toNat

/-- The number of a turn with the dots behind it, in front of a move. -/
def Turn.writeNumber (number : UInt32) (dots : Bytes) : Bytes :=
  Bytes.decimal number.toNat ++ dots ++ [space]

/-- The dots in front of a move of black. -/
def Turn.skippingDots : Bytes := [dot, dot, dot]

/-- The annotations and the comment behind a move, with a space in front of each. -/
def Move.writeRemarks (nags : List Nag) (comment : Option Bytes) : Bytes :=
  nags.flatMap (fun nag => space :: nag.write) ++
    comment.toList.flatMap fun text => space :: Comment.write text

section Moves

variable (repeats : Move → Bool)

mutual

def Move.write : Move → Bytes
  | ⟨text, none⟩ => text
  | ⟨text, some ⟨comment, nags, variations⟩⟩ =>
    text ++ Move.writeRemarks nags comment ++ writeVariations variations

def Turn.write : Turn → Bytes
  | .whiteOnly number white => Turn.writeNumber number [dot] ++ white.write
  | .blackOnly number black => Turn.writeNumber number Turn.skippingDots ++ black.write
  | .both number white black =>
    Turn.writeNumber number [dot] ++ white.write ++ space ::
      ((if repeats white then Turn.writeNumber number Turn.skippingDots else []) ++ black.write)

def writeTurns : List Turn → List Bytes
  | [] => []
  | turn :: rest => turn.write :: writeTurns rest

def writeVariations : List (List Turn) → Bytes
  | [] => []
  | line :: rest =>
    space :: openParen :: Bytes.join [space] (writeTurns line) ++ closeParen ::
      writeVariations rest

end

/-- The header section of a game, if there is one, with the empty line behind it. -/
def Game.writeHeaders : Option (List HeaderPair) → Bytes
  | none => []
  | some pairs => pairs.flatMap HeaderPair.write ++ [lineFeed]

def Game.write (game : Game) : Bytes :=
  Game.writeHeaders game.headers ++
    (Bytes.join [space] (game.comment.toList.map Comment.write ++
      (writeTurns repeats game.moves ++ [game.outcome.marker])) ++ [lineFeed])

end Moves

/-! ### What can be written -/

/-- Whether the closing byte behind the text is the first one that is not behind a backslash, and is
not behind one either. -/
def Bytes.isEnclosable (closing : UInt8) : Bytes → Bool
  | [] => true
  | [byte] => byte != closing && byte != backslash
  | byte :: next :: rest =>
    byte != closing &&
      if byte = backslash then isEnclosable closing rest else isEnclosable closing (next :: rest)

/-- Whether a byte can stand in the name of a header pair. -/
def HeaderPair.isNameByte (byte : UInt8) : Bool :=
  !(isSpace byte || byte == quote || byte == closeBracket || byte == openBracket)

def HeaderPair.isWritable (pair : HeaderPair) : Bool :=
  !pair.name.isEmpty && pair.name.all isNameByte && pair.value.isEnclosable quote

/-- Whether a comment can be written: nothing is trimmed from it. -/
def Comment.isWritable (text : Bytes) : Bool :=
  text.isEnclosable closeBrace && !text.head?.any isTrimmed && !text.getLast?.any isTrimmed

/-- Whether a move can begin with the byte. -/
def Move.isFirstByte (byte : UInt8) : Bool :=
  !(isDigit byte || byte == exclamation || byte == question)

/-- Whether the text is that of a move. -/
def Move.isMoveText (text : Bytes) : Bool :=
  text.head?.any isFirstByte && text.all (!isDelimiter ·) && !standaloneGlyphs.contains text

mutual

/-- Whether a move can be written: details of it, if there are any, have something in them. -/
def Move.isWritable : Move → Bool
  | ⟨text, none⟩ => Move.isMoveText text
  | ⟨text, some ⟨comment, nags, variations⟩⟩ =>
    (comment.isSome || !nags.isEmpty || !variations.isEmpty) &&
      Move.isMoveText text && comment.all Comment.isWritable && decide (nags.length ≤ 8) &&
      decide nags.Nodup && variationsWritable variations

def Turn.isWritable : Turn → Bool
  | .whiteOnly _ white => white.isWritable
  | .blackOnly _ black => black.isWritable
  | .both _ white black => white.isWritable && black.isWritable

def lineWritable : List Turn → Bool
  | [] => true
  | turn :: rest =>
    turn.isWritable && (rest.isEmpty || turn.black?.isSome) && lineWritable rest

def variationsWritable : List (List Turn) → Bool
  | [] => true
  | line :: rest => !line.isEmpty && lineWritable line && variationsWritable rest

end

/-- Whether the headers of a game can be written: a section has at least one pair. -/
def Game.headersWritable : Option (List HeaderPair) → Bool
  | none => true
  | some pairs => !pairs.isEmpty && pairs.all HeaderPair.isWritable

def Game.isWritable (game : Game) : Bool :=
  Game.headersWritable game.headers && game.comment.all Comment.isWritable &&
    lineWritable game.moves

/-! ### Reading the parts back -/

namespace Bytes

/-- The digit of a value below ten. -/
def digit (value : Nat) : UInt8 := UInt8.ofNat (Nat.digitChar value).toNat

theorem decimal_eq (value : Nat) :
    decimal value =
      if value < 10 then [digit value] else decimal (value / 10) ++ [digit (value % 10)] := by
  unfold decimal
  rw [Nat.toDigits_eq_if (by decide)]
  split
  · rfl
  · rw [List.map_append]
    rfl

theorem digit_spec {value : Nat} (small : value < 10) :
    isDigit (digit value) = true ∧ digitValue (digit value) = value := by
  revert value
  decide

/-- The digits of a number are digits, there is at least one, and they write the number. -/
theorem decimal_spec (value : Nat) :
    (decimal value).all isDigit = true ∧ decimal value ≠ [] ∧
      ∀ largest, value ≤ largest → boundedNumber largest (decimal value) = value := by
  induction value using Nat.strongRecOn with
  | ind value inductionHypothesis =>
    rw [decimal_eq]
    by_cases small : value < 10
    · obtain ⟨isDigit, digitValue⟩ := digit_spec small
      rw [if_pos small]
      refine ⟨by simp [isDigit], List.cons_ne_nil _ _, fun largest bounded => ?_⟩
      simp [boundedNumber, digitValue, bounded]
    · obtain ⟨isDigit, digitValue⟩ := digit_spec (Nat.mod_lt value (by decide : 0 < 10))
      obtain ⟨digits, _, written⟩ := inductionHypothesis (value / 10) (by omega)
      rw [if_neg small]
      refine ⟨by simp [isDigit, digits], by simp, fun largest bounded => ?_⟩
      have front := written largest (by omega)
      unfold boundedNumber at front ⊢
      rw [List.foldl_append, front]
      show min (value / 10 * 10 + _) largest = value
      rw [digitValue]
      omega

/-- Text that can be enclosed is the quoted text in front of the closing byte. -/
theorem quoted_of_isEnclosable {closing : UInt8} {text : Bytes}
    (enclosable : text.isEnclosable closing = true) (rest : Bytes) :
    quoted closing (text ++ closing :: rest) = text := by
  fun_induction isEnclosable closing text with
  | case1 => exact quoted_closing
  | case2 byte =>
    rw [Bool.and_eq_true, bne_iff_ne, bne_iff_ne] at enclosable
    rw [List.singleton_append, quoted_cons enclosable.1 enclosable.2, quoted_closing]
  | case3 byte next tail behindNext behindByte =>
    rw [Bool.and_eq_true, bne_iff_ne] at enclosable
    obtain ⟨onward, enclosed⟩ := enclosable
    by_cases escape : byte = backslash
    · rw [if_pos escape] at enclosed
      subst escape
      rw [List.cons_append, quoted_backslash onward]
      exact congrArg (backslash :: next :: ·) (behindNext enclosed)
    · rw [if_neg escape] at enclosed
      rw [List.cons_append, quoted_cons onward escape, behindByte enclosed]

theorem join_cons {separator text : Bytes} {texts : List Bytes} (more : texts ≠ []) :
    join separator (text :: texts) = text ++ separator ++ join separator texts := by
  obtain ⟨next, rest, rfl⟩ := List.exists_cons_of_ne_nil more
  rfl

theorem join_append {separator : Bytes} {texts more : List Bytes} (some : more ≠ []) :
    join separator (texts ++ more) =
      texts.flatMap (fun text => text ++ separator) ++ join separator more := by
  induction texts with
  | nil => rfl
  | cons text texts inductionHypothesis =>
    rw [List.cons_append, join_cons (by simp [some]), inductionHypothesis, List.flatMap_cons]
    simp

theorem join_concat {separator last : Bytes} {texts : List Bytes} (some : texts ≠ []) :
    join separator (texts ++ [last]) = join separator texts ++ separator ++ last := by
  induction texts with
  | nil => exact absurd rfl some
  | cons text texts inductionHypothesis =>
    rw [List.cons_append, join_cons (by simp)]
    by_cases empty : texts = []
    · subst empty
      rfl
    · rw [inductionHypothesis empty, join_cons empty]
      simp

theorem dropWhile_of_head {onward : UInt8 → Bool} {text : Bytes}
    (kept : text.head?.any onward = false) : text.dropWhile onward = text := by
  cases text with
  | nil => rfl
  | cons byte rest => exact List.dropWhile_cons_of_neg (Bool.eq_false_iff.mp kept)

/-- Nothing is trimmed from a comment that can be written. -/
theorem trim_of_isWritable {text : Bytes} (writable : Comment.isWritable text = true) :
    text.trim = text := by
  simp only [Comment.isWritable, Bool.and_eq_true, Bool.not_eq_true'] at writable
  obtain ⟨⟨_, front⟩, back⟩ := writable
  unfold trim
  rw [dropWhile_of_head front, dropWhile_of_head (List.head?_reverse ▸ back), List.reverse_reverse]

end Bytes

end Scoresheet
