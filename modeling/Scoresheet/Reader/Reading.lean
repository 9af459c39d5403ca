/-
This file reads one game: it takes tokens from a lexer until a draft is finished, refused or cut
short. Header pairs are interned as soon as they are known, so a game that is refused afterwards
may still have left its pairs in the cache.

A refusal that is not fatal leaves less to read than there was, so going on after it comes to an
end.
-/

import Scoresheet.Cache
import Scoresheet.Draft
import Scoresheet.Lexer.Progress

namespace Scoresheet

/-- A game that was read, and the allocations of its header pairs in order. -/
structure Entry where
  game : Game
  allocations : List Nat

/-- What reading one game leads to. The input may also hold no further game. -/
abbrev Reading := Except ReadError (Option Entry)

namespace Interner

variable [Hashable HeaderPair]

/-- Interns the pair that has become known, if there is one, and notes its allocation. -/
def note (pair : Option HeaderPair) (allocations : List Nat) (interner : Interner) :
    List Nat × Interner :=
  match pair with
  | none => (allocations, interner)
  | some pair =>
    let (shared, interner) := interner.intern pair
    (shared.allocation :: allocations, interner)

end Interner

namespace Draft

/-- What an input leads to that has no more tokens. -/
def conclude (config : Config) (draft : Draft) (position : Position) : Reading :=
  match draft.commentPhase, draft.stage with
  | .idle, .start => .ok none
  | _, _ => .error (.unexpectedEnd (draft.expected config) position)

/-- At the end of the input there is no further game, or an early end of the one that was begun. -/
theorem conclude_eq (config : Config) (draft : Draft) (position : Position) :
    draft.conclude config position = .ok none ∨
      draft.conclude config position =
        .error (.unexpectedEnd (draft.expected config) position) := by
  unfold conclude
  split
  · exact .inl rfl
  · exact .inr rfl

theorem conclude_fatal {config : Config} {draft : Draft} {position : Position} {error : ReadError}
    (refused : draft.conclude config position = .error error) : error.isFatal = true := by
  rcases draft.conclude_eq config position with nothing | ended
  · rw [nothing] at refused
    cases refused
  · rw [ended] at refused
    cases refused
    rfl

variable [Hashable HeaderPair]

/-- Reads on until the game is finished, refused or cut short. The allocations of the pairs
interned so far are given latest first. -/
def readOn (config : Config) (draft : Draft) (allocations : List Nat) (interner : Interner)
    (lexer : Lexer) : Reading × Interner × Lexer :=
  match _ : Scan.advance.run lexer with
  | (.error failure, after) => (.error (.sourceFailed failure), interner, after)
  | (.ok (), after) =>
    let noted := interner.note (draft.recorded? after.token) allocations
    if _ : after.isExhausted then (draft.conclude config after.start, noted.2, after)
    else
      match draft.accept config after.token with
      | .error error => (.error error, noted.2, after)
      | .ok (.finished game) => (.ok (some ⟨game, noted.1.reverse⟩), noted.2, after)
      | .ok (.onward draft) => readOn config draft noted.1 noted.2 after
termination_by lexer.source.content.length
decreasing_by
  exact Lexer.content_lt_of_advance ‹_› (Bool.eq_false_iff.mpr ‹_›)

/-- Reads the next game. -/
def read (config : Config) (interner : Interner) (lexer : Lexer) : Reading × Interner × Lexer :=
  start.readOn config [] interner lexer

/-! ### One step of reading on -/

section Step

variable {config : Config} {draft : Draft} {allocations : List Nat} {interner : Interner}
  {lexer after : Lexer}

theorem readOn_of_failed {failure : Failure}
    (failed : Scan.advance.run lexer = (.error failure, after)) :
    draft.readOn config allocations interner lexer =
      (.error (.sourceFailed failure), interner, after) := by
  rw [readOn]
  split
  · next again =>
    rw [failed] at again
    cases again
    rfl
  · next success =>
    rw [failed] at success
    cases success

theorem readOn_of_advance (success : Scan.advance.run lexer = (.ok (), after)) :
    draft.readOn config allocations interner lexer =
      (let noted := interner.note (draft.recorded? after.token) allocations
      if after.isExhausted then (draft.conclude config after.start, noted.2, after)
      else
        match draft.accept config after.token with
        | .error error => (.error error, noted.2, after)
        | .ok (.finished game) => (.ok (some ⟨game, noted.1.reverse⟩), noted.2, after)
        | .ok (.onward draft) => readOn config draft noted.1 noted.2 after) := by
  conv => lhs; rw [readOn]
  split
  · next failed =>
    rw [success] at failed
    cases failed
  · next found again =>
    rw [success] at again
    cases again
    rfl

theorem readOn_of_last (success : Scan.advance.run lexer = (.ok (), after))
    (last : after.isExhausted = true) :
    draft.readOn config allocations interner lexer =
      (draft.conclude config after.start,
        (interner.note (draft.recorded? after.token) allocations).2, after) := by
  rw [readOn_of_advance success]
  dsimp only
  rw [if_pos last]

theorem readOn_of_token (success : Scan.advance.run lexer = (.ok (), after))
    (more : after.isExhausted = false) :
    draft.readOn config allocations interner lexer =
      (let noted := interner.note (draft.recorded? after.token) allocations
      match draft.accept config after.token with
      | .error error => (.error error, noted.2, after)
      | .ok (.finished game) => (.ok (some ⟨game, noted.1.reverse⟩), noted.2, after)
      | .ok (.onward draft) => readOn config draft noted.1 noted.2 after) := by
  rw [readOn_of_advance success]
  dsimp only
  rw [if_neg (Bool.eq_false_iff.mp more)]

end Step

/-! ### What is left to read -/

/-- After an error that is not fatal there is less to read. -/
theorem content_lt_of_readOn {config : Config} {draft : Draft} {allocations : List Nat}
    {interner : Interner} {lexer : Lexer} {error : ReadError}
    (refused : (draft.readOn config allocations interner lexer).1 = .error error)
    (recoverable : error.isFatal = false) :
    (draft.readOn config allocations interner lexer).2.2.source.content.length <
      lexer.source.content.length := by
  fun_induction readOn config draft allocations interner lexer with
  | case1 draft allocations interner lexer failure after cut =>
    cases refused
    cases recoverable
  | case2 draft allocations interner lexer after success noted last =>
    rw [conclude_fatal refused] at recoverable
    cases recoverable
  | case3 draft allocations interner lexer after success noted more =>
    exact Lexer.content_lt_of_advance success (Bool.eq_false_iff.mpr more)
  | case4 draft allocations interner lexer after success noted more =>
    cases refused
  | case5 draft allocations interner lexer after success noted more next _ inductionHypothesis =>
    exact Nat.lt_trans (inductionHypothesis refused)
      (Lexer.content_lt_of_advance success (Bool.eq_false_iff.mpr more))

end Draft

namespace Lexer

/-- Discarding tokens adds nothing to read. -/
theorem content_skipUntil_le (kind : TokenKind) (lexer : Lexer) :
    (lexer.skipUntil kind).2.source.content.length ≤ lexer.source.content.length := by
  fun_induction skipUntil kind lexer with
  | case1 => exact Nat.le_refl _
  | case2 lexer _ failure after cut =>
    exact (consumes_of_advance cut).content_le
  | case3 lexer _ after success =>
    exact (consumes_of_advance success).content_le
  | case4 lexer _ after success more inductionHypothesis =>
    exact Nat.le_trans inductionHypothesis
      (Nat.le_of_lt (content_lt_of_advance success (Bool.eq_false_iff.mpr more)))

end Lexer

end Scoresheet
