/-
This file says how the move of black may be put off in the text of a turn, and what the lexer tells
of such a text. Behind the move of white and whatever follows that one, the move of black may come at
once, behind any number with dots, or behind the number of the turn and one dot; and without a move
of white it may come behind the dots of the number, or behind further dots. The lexer tells the same
run to be a move of either side by the token in front of it, so behind one dot it is told to be of
white.
-/

import Scoresheet.Proofs.Trailing

namespace Scoresheet

open Ascii

/-! ### Spellings -/

namespace Bytes

def IsNumber (text : Bytes) : Prop := text ≠ [] ∧ text.all isDigit = true

/-- Two dots or more. -/
def IsEllipsis (text : Bytes) : Prop := 2 ≤ text.length ∧ text.all (· == dot) = true

/-- The text of a move that is told as one wherever in the movetext it stands, even where a line
begins. -/
def IsMoveRun (text : Bytes) : Prop := Move.isMoveText text = true ∧ text.head? ≠ some percent

end Bytes

/-- How the move of black is put off behind the move of white and what follows it. -/
inductive Deferral where
  /-- Not at all: `12. e4 e5`. -/
  | direct
  /-- Behind some number with two dots or more: `12. e4 12... e5`. -/
  | ellipsis {number dots gap : Bytes} (digits : number.IsNumber) (many : dots.IsEllipsis)
      (blank : gap.all isSpace = true)
  /-- Behind the number of the turn and one dot: `12. e4 12. e5`. -/
  | dot {gap : Bytes} (blank : gap.all isSpace = true)

namespace Deferral

/-- What is written in front of the move of black in the turn of the given number. -/
def text (digits : Bytes) : Deferral → Bytes
  | direct => []
  | @ellipsis number dots gap _ _ _ => number ++ (dots ++ gap)
  | @dot gap _ => digits ++ ([Ascii.dot] ++ gap)

def lexemes (digits : Bytes) : Deferral → List Lexeme
  | direct => []
  | @ellipsis number dots _ _ _ _ => [(.moveNumber, number), (.ellipsis, dots)]
  | @dot _ _ => [(.moveNumber, digits), (.dot, [Ascii.dot])]

/-- The side the move of black is told to be of. -/
def told : Deferral → Side
  | direct => .black
  | ellipsis _ _ _ => .black
  | dot _ => .white

end Deferral

/-- What is written between the number of a turn and its only move, one of black. -/
inductive Omission where
  /-- Two dots or more: `12... e5`. -/
  | ellipsis {dots gap : Bytes} (many : dots.IsEllipsis) (blank : gap.all isSpace = true)
  /-- One dot, white space, and then two dots or more: `12. ... e5`. -/
  | dot {gap dots behind : Bytes} (some : gap ≠ []) (blank : gap.all isSpace = true)
      (many : dots.IsEllipsis) (blankBehind : behind.all isSpace = true)

namespace Omission

def text : Omission → Bytes
  | @ellipsis dots gap _ _ => dots ++ gap
  | @dot gap dots behind _ _ _ _ => [Ascii.dot] ++ (gap ++ (dots ++ behind))

def lexemes : Omission → List Lexeme
  | @ellipsis dots _ _ _ => [(.ellipsis, dots)]
  | @dot _ dots _ _ _ _ _ => [(.dot, [Ascii.dot]), (.ellipsis, dots)]

end Omission

/-! ### What the lexer tells -/

section Words

variable {rest gap text dots digits : Bytes} {area : Area} {kind : TokenKind}

theorem Bytes.IsMoveRun.exists_head (run : text.IsMoveRun) :
    ∃ byte tail, text = byte :: tail ∧ isDelimiter byte = false := by
  obtain ⟨isMove, _⟩ := run
  cases text with
  | nil => cases isMove
  | cons byte tail =>
    simp only [Move.isMoveText, List.all_cons, Bool.and_eq_true, Bool.not_eq_true'] at isMove
    exact ⟨byte, tail, rfl, isMove.1.2.1⟩

theorem Bytes.IsMoveRun.noDot (run : text.IsMoveRun) : text.head?.any (· != dot) = true := by
  obtain ⟨byte, tail, rfl, inside⟩ := run.exists_head
  have other : byte ≠ dot := ne_of_apply_ne isDelimiter (by rw [inside]; decide)
  simpa using other

theorem Bytes.noDot_of_blank (some : gap ≠ []) (blank : gap.all isSpace = true) :
    gap.head?.any (· != dot) = true := by
  obtain ⟨byte, gap, rfl⟩ := List.exists_cons_of_ne_nil some
  rw [List.all_cons, Bool.and_eq_true] at blank
  have other : byte ≠ dot := ne_of_apply_ne isSpace (by rw [blank.1]; decide)
  simpa using other

/-- White space in front of what begins with no dot changes nothing about that. -/
theorem Bytes.noDot_append (blank : gap.all isSpace = true)
    (noDot : rest.head?.any (· != dot) = true) : (gap ++ rest).head?.any (· != dot) = true := by
  by_cases empty : gap = []
  · rw [empty]
    exact noDot
  · exact Bytes.any_head_append (Bytes.noDot_of_blank empty blank) rest

theorem words_number (number : digits.IsNumber) (ends : rest.head?.any Scan.endsNumber = true) :
    Words area area.GoesOn (· = .moveNumber) digits rest [(.moveNumber, digits)] := by
  obtain ⟨byte, later, rfl, ends⟩ := Bytes.exists_head ends
  exact .one nofun fun _ _ _ goesOn blank =>
    Scan.advance_number goesOn blank number.2 number.1 ends

theorem words_dots (some : dots ≠ []) (all : dots.all (· == dot) = true)
    (stopped : rest.head?.any (· != dot) = true) (aside : kind ≠ .commentBegin) :
    Words .moves (· = kind) (· = if dots = [dot] then .dot else .ellipsis) dots rest
      [(if dots = [dot] then .dot else .ellipsis, dots)] :=
  (Piece.dots some all stopped).words aside

/-- A number with one dot, and white space behind it. -/
theorem words_numbered (number : digits.IsNumber) (blank : gap.all isSpace = true)
    (noDot : rest.head?.any (· != dot) = true) :
    Words area area.GoesOn (· = .dot) (digits ++ ([dot] ++ gap)) rest
      [(.moveNumber, digits), (.dot, [dot])] := by
  have first := @words_number ([dot] ++ gap ++ rest) digits area number rfl
  have dotted := @words_dots (gap ++ rest) [dot] .moveNumber (List.cons_ne_nil _ _) rfl
    (Bytes.noDot_append blank noDot) nofun
  exact first.append (dotted.append (Words.blank blank))

theorem Bytes.IsEllipsis.words (many : dots.IsEllipsis)
    (stopped : rest.head?.any (· != dot) = true) (aside : kind ≠ .commentBegin) :
    Words .moves (· = kind) (· = .ellipsis) dots rest [(.ellipsis, dots)] := by
  obtain ⟨long, all⟩ := many
  have some : dots ≠ [] := by
    rintro rfl
    cases long
  have several : dots ≠ [dot] := by
    rintro rfl
    exact absurd long (by decide)
  have words := words_dots some all stopped aside
  rwa [if_neg several] at words

theorem Bytes.IsMoveRun.words {starts : TokenKind → Prop} {side : Side} (run : text.IsMoveRun)
    (stopped : rest.head?.any isDelimiter = true)
    (tells : ∀ kind, starts kind → kind.moveKindAfter = side.moveKind) :
    Words .moves starts (· = side.moveKind) text rest [(side.moveKind, text)] := by
  refine .one (by cases side <;> nofun) fun kind gap span starting blank => ?_
  have told := tells kind starting
  have aside : kind ≠ .commentBegin := by
    rintro rfl
    cases side <;> cases told
  rw [← told]
  exact Scan.advance_move run.1 (Bytes.not_any_head stopped) aside blank
    fun escape => absurd escape run.2

end Words

section Deferred

variable {rest digits black : Bytes} {starts : TokenKind → Prop}

theorem Bytes.IsEllipsis.endsNumber {dots : Bytes} (many : dots.IsEllipsis) (rest : Bytes) :
    (dots ++ rest).head?.any Scan.endsNumber = true := by
  obtain ⟨long, all⟩ := many
  cases dots with
  | nil => cases long
  | cons byte dots =>
    rw [List.all_cons, Bool.and_eq_true, beq_iff_eq] at all
    obtain ⟨rfl, _⟩ := all
    rfl

/-- Behind what puts it off a move is told to be of the side it is expected to be of. -/
theorem Deferral.words (deferral : Deferral) (number : digits.IsNumber)
    (noDot : rest.head?.any (· != Ascii.dot) = true)
    (moved : ∀ kind, starts kind → kind.moveKindAfter = .blackMove) :
    Words .moves starts (·.moveKindAfter = deferral.told.moveKind) (deferral.text digits) rest
      (deferral.lexemes digits) := by
  have goesOn : ∀ kind, starts kind → Area.moves.GoesOn kind := fun kind starting =>
    .inr ⟨rfl, by rintro rfl; cases moved _ starting⟩
  cases deferral with
  | direct => exact (Words.blank rfl).imp moved fun _ => id
  | @ellipsis number dots gap digits many blank =>
    have first := (words_number digits (many.endsNumber (gap ++ rest))).imp goesOn fun _ => id
    rw [← List.append_assoc] at first
    have dotted := @many.words _ _ .moveNumber (Bytes.noDot_append blank noDot) nofun
    refine first.append (dotted.append ((Words.blank blank).imp (fun _ => id) ?_))
    rintro _ rfl
    rfl
  | @dot gap blank =>
    refine ((words_numbered number blank noDot).imp goesOn ?_)
    rintro _ rfl
    rfl

theorem Omission.words (omission : Omission) (noDot : rest.head?.any (· != Ascii.dot) = true) :
    Words .moves (· = .moveNumber) (·.moveKindAfter = .blackMove) omission.text rest
      omission.lexemes := by
  have behind {kind : TokenKind} {dots gap : Bytes} (many : dots.IsEllipsis)
      (blank : gap.all isSpace = true) (aside : kind ≠ .commentBegin) :
      Words .moves (· = kind) (·.moveKindAfter = .blackMove) (dots ++ gap) rest
        [(.ellipsis, dots)] := by
    refine (many.words (Bytes.noDot_append blank noDot) aside).append
      ((Words.blank blank).imp (fun _ => id) ?_)
    rintro _ rfl
    rfl
  cases omission with
  | ellipsis many blank => exact behind many blank nofun
  | @dot gap dots after some blank many blankBehind =>
    have visible : (gap ++ (dots ++ after) ++ rest).head?.any (· != Ascii.dot) = true :=
      Bytes.any_head_append (Bytes.any_head_append (Bytes.noDot_of_blank some blank) _) _
    exact (@words_dots _ [Ascii.dot] .moveNumber (List.cons_ne_nil _ _) rfl visible nofun).append
      ((Words.blank blank).append (behind many blankBehind nofun))

end Deferred

namespace Grammar

variable {config : Config} {digits gap white black first second text rest : Bytes} {area : Area}
  {items early late : List Item} {side : Side} {starts : TokenKind → Prop}

end Grammar

end Scoresheet
