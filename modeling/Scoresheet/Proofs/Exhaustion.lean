/-
This file shows that reading comes to an end, whatever the input is and whatever its source does. A
token takes at least one byte unless it is the last, so a call asks for no more tokens than there
are bytes left, and two more that find nothing. What a call returns has taken at least one byte, or
tells that the source failed, and nothing is returned behind a failure. So only as many calls
return something as there are bytes, and one more.
-/

import Scoresheet.Proofs.Passes
import Scoresheet.Proofs.Segments

namespace Scoresheet

namespace Lexer

/-- The lexer once the given number of further tokens was asked for, whether they came or failed. -/
def ahead : Nat → Lexer → Lexer
  | 0, lexer => lexer
  | count + 1, lexer => ahead count (Scan.advance.run lexer).2

theorem ahead_add (first second : Nat) (lexer : Lexer) :
    lexer.ahead (first + second) = (lexer.ahead first).ahead second := by
  induction first generalizing lexer with
  | zero => rw [Nat.zero_add]; rfl
  | succ first inductionHypothesis =>
    rw [Nat.succ_add]
    exact inductionHypothesis _

theorem consumes_ahead (count : Nat) (lexer : Lexer) : lexer.Consumes (lexer.ahead count) := by
  induction count generalizing lexer with
  | zero => exact .refl lexer
  | succ count inductionHypothesis =>
    exact (Scan.Consuming.advance lexer).trans (inductionHypothesis _)

/-- The second lexer is reached from the first by asking for tokens, and all but the given number of
them took at least one byte. -/
def Reaches (spare : Nat) (before after : Lexer) : Prop :=
  ∃ count, after = before.ahead count ∧
    count + after.source.content.length ≤ before.source.content.length + spare

variable {spare more : Nat} {lexer before middle after : Lexer}

theorem Reaches.refl (lexer : Lexer) : Reaches 0 lexer lexer :=
  ⟨0, rfl, by omega⟩

theorem Reaches.trans (left : Reaches spare before middle) (right : Reaches more middle after) :
    Reaches (spare + more) before after := by
  obtain ⟨early, rfl, earlyBound⟩ := left
  obtain ⟨late, rfl, lateBound⟩ := right
  exact ⟨early + late, (ahead_add early late before).symm, by omega⟩

theorem Reaches.mono (reaches : Reaches spare before after) (le : spare ≤ more) :
    Reaches more before after := by
  obtain ⟨count, same, bound⟩ := reaches
  exact ⟨count, same, by omega⟩

theorem Reaches.consumes (reaches : Reaches spare before after) : before.Consumes after := by
  obtain ⟨count, rfl, _⟩ := reaches
  exact consumes_ahead count before

theorem Reaches.count_le (reaches : Reaches spare before after) :
    ∃ count ≤ before.source.content.length + spare, after = before.ahead count := by
  obtain ⟨count, same, bound⟩ := reaches
  exact ⟨count, by omega, same⟩

/-- Asking for one token, whatever comes of it. -/
theorem Reaches.attempt {result : Except Failure Unit}
    (asked : Scan.advance.run lexer = (result, after)) : Reaches 1 lexer after := by
  have rest := (consumes_of_advance asked).content_le
  exact ⟨1, by rw [ahead, asked]; rfl, by omega⟩

/-- A token that is not the last. -/
theorem Reaches.advance (success : Scan.advance.run lexer = (.ok (), after))
    (more : after.isExhausted = false) : Reaches 0 lexer after := by
  have rest := content_lt_of_advance success more
  exact ⟨1, by rw [ahead, success]; rfl, by omega⟩

/-- Discarding tokens comes to an end with the last token or a failure, or each token took at least
one byte. -/
theorem skipUntil_reaches (kind : TokenKind) (lexer : Lexer) :
    Reaches 1 lexer (lexer.skipUntil kind).2 ∧
      ((lexer.skipUntil kind).1 = .ok () → (lexer.skipUntil kind).2.isExhausted = false →
        Reaches 0 lexer (lexer.skipUntil kind).2) := by
  fun_induction skipUntil kind lexer with
  | case1 lexer => exact ⟨(Reaches.refl lexer).mono (Nat.zero_le 1), fun _ _ => .refl lexer⟩
  | case2 lexer _ failure after cut => exact ⟨.attempt cut, fun found => by cases found⟩
  | case3 lexer _ after success last =>
    refine ⟨.attempt success, fun _ more => ?_⟩
    rw [last] at more
    cases more
  | case4 lexer _ after success more inductionHypothesis =>
    have first : Reaches 0 lexer after := .advance success (Bool.eq_false_iff.mpr more)
    exact ⟨first.trans inductionHypothesis.1, fun found rest =>
      first.trans (inductionHypothesis.2 found rest)⟩

end Lexer

namespace Draft

variable {config : Config} {interner : Interner} {lexer : Lexer}

variable [Hashable HeaderPair]

/-- Reading a game asks for no token that takes nothing, except for the last one it asks for; a
refusal that can be recovered from asks for no such token at all. -/
theorem readOn_reaches (config : Config) (draft : Draft) (allocations : List Nat)
    (interner : Interner) (lexer : Lexer) :
    lexer.Reaches 1 (draft.readOn config allocations interner lexer).2.2 ∧
      ∀ error, (draft.readOn config allocations interner lexer).1 = .error error →
        error.isFatal = false →
          lexer.Reaches 0 (draft.readOn config allocations interner lexer).2.2 := by
  fun_induction readOn config draft allocations interner lexer with
  | case1 draft allocations interner lexer failure after cut =>
    refine ⟨.attempt cut, fun error refused recoverable => ?_⟩
    cases refused
    cases recoverable
  | case2 draft allocations interner lexer after success noted last =>
    refine ⟨.attempt success, fun error refused recoverable => ?_⟩
    rw [conclude_fatal refused] at recoverable
    cases recoverable
  | case3 draft allocations interner lexer after success noted more =>
    exact ⟨.attempt success, fun _ _ _ => .advance success (Bool.eq_false_iff.mpr more)⟩
  | case4 draft allocations interner lexer after success noted more =>
    exact ⟨.attempt success, fun _ _ _ => .advance success (Bool.eq_false_iff.mpr more)⟩
  | case5 draft allocations interner lexer after success noted more next _ inductionHypothesis =>
    have first : lexer.Reaches 0 after := .advance success (Bool.eq_false_iff.mpr more)
    exact ⟨first.trans inductionHypothesis.1, fun error refused recoverable =>
      first.trans (inductionHypothesis.2 error refused recoverable)⟩

/-- A game that was read has taken at least one byte, and so has an error that is not due to the
source. -/
theorem offset_lt_read
    (told : (∃ entry, (read config interner lexer).1 = .ok (some entry)) ∨
      ∃ error, (read config interner lexer).1 = .error error ∧ error.cause? = none) :
    lexer.place.offset < (read config interner lexer).2.2.place.offset := by
  unfold read at told ⊢
  cases advanced : Scan.advance.run lexer with
  | mk result after =>
    cases result with
    | error failure =>
      rw [readOn_of_failed advanced] at told
      rcases told with ⟨entry, found⟩ | ⟨error, refused, own⟩
      · cases found
      · cases refused
        cases own
    | ok _ =>
      cases ended : after.isExhausted with
      | true =>
        rw [readOn_of_last advanced ended] at told
        rcases told with ⟨entry, found⟩ | ⟨error, refused, _⟩
        · cases found
        · cases refused
      | false =>
        refine Nat.lt_of_lt_of_le (Lexer.offset_lt_of_advance advanced ended) ?_
        rw [readOn_of_token advanced ended]
        dsimp only
        split
        · exact Nat.le_refl _
        · exact Nat.le_refl _
        · exact (readOn_reaches config _ _ _ after).1.consumes.offset_le

end Draft

namespace Reader

variable {reader after : Reader}

/-- Passing a game over asks for at most one token that takes nothing. -/
theorem skipGame_reaches (reader : Reader) : reader.lexer.Reaches 1 reader.skipGame.2.lexer := by
  unfold skipGame
  split
  · exact (Lexer.Reaches.refl _).mono (Nat.zero_le 1)
  · split
    · next cut => exact .attempt cut
    · next after advanced =>
      split
      · exact .attempt advanced
      · next more =>
        have first : reader.lexer.Reaches 0 after := .advance advanced (Bool.eq_false_iff.mpr more)
        have rest := (Lexer.skipUntil_reaches .termination after).1
        split
        · next skipped =>
          rw [skipped] at rest
          exact first.trans rest
        · next skipped =>
          rw [skipped] at rest
          exact first.trans rest

variable [Hashable HeaderPair]

/-- A pass asks for at most one token that takes nothing. If it calls for another pass, it either
asked for none or came to the end of the input. -/
theorem pass_reaches (reader : Reader) :
    reader.lexer.Reaches 1 reader.pass.2.lexer ∧
      (reader.pass.1 = none → reader.pass.2.lexer.isExhausted = false →
        reader.lexer.Reaches 0 reader.pass.2.lexer) := by
  obtain ⟨read, refusal⟩ :=
    Draft.readOn_reaches reader.config .start [] reader.interner reader.lexer
  unfold pass settle Draft.read
  dsimp only
  split
  · exact ⟨read, nofun⟩
  · exact ⟨read, nofun⟩
  · next error refused =>
    split
    · exact ⟨read, nofun⟩
    · split
      · exact ⟨read, nofun⟩
      · next recoverable =>
        have early := refusal error refused (Bool.eq_false_iff.mpr recoverable)
        have late := Lexer.skipUntil_reaches .termination
          (Draft.start.readOn reader.config [] reader.interner reader.lexer).2.2
        split
        · next skipped =>
          rw [skipped] at late
          exact ⟨early.trans late.1, nofun⟩
        · next skipped =>
          rw [skipped] at late
          exact ⟨early.trans late.1, fun _ more => early.trans (late.2 rfl more)⟩

/-- A pass over nothing finds that there is no further game. -/
theorem pass_of_isExhausted (exhausted : reader.lexer.isExhausted = true) :
    reader.pass.1 = some none := by
  obtain ⟨after, advanced, last⟩ := Lexer.advance_of_isExhausted exhausted
  unfold pass Draft.read
  rw [Draft.readOn_of_last advanced last]
  rfl

/-- The search for the next game asks for at most two tokens that take nothing: the last one of a
game that was refused, and one more that shows that no game follows. -/
theorem next_reaches (reader : Reader) :
    reader.lexer.Reaches 2 reader.next.2.lexer ∧
      (reader.lexer.isExhausted = true → reader.lexer.Reaches 1 reader.next.2.lexer) := by
  have nothing (reader : Reader) : reader.lexer.Reaches 2 reader.lexer ∧
      (reader.lexer.isExhausted = true → reader.lexer.Reaches 1 reader.lexer) :=
    ⟨(Lexer.Reaches.refl _).mono (Nat.zero_le 2),
      fun _ => (Lexer.Reaches.refl _).mono (Nat.zero_le 1)⟩
  induction reader using next_induction with
  | done reader done =>
    rw [next_of_isDone done]
    exact nothing reader
  | limit reader running limit =>
    rw [next_of_atLimit running limit]
    exact nothing reader
  | answered reader result after running room passed =>
    have reaches := (pass_reaches reader).1
    rw [next_of_answered running room passed]
    rw [passed] at reaches
    exact ⟨reaches.mono (Nat.le_succ 1), fun _ => reaches⟩
  | again reader after running room passed inductionHypothesis =>
    obtain ⟨reaches, onward⟩ := pass_reaches reader
    rw [next_of_again running room passed]
    rw [passed] at reaches onward
    refine ⟨?_, fun exhausted => ?_⟩
    · cases ended : after.lexer.isExhausted with
      | false => exact (onward rfl ended).trans inductionHypothesis.1
      | true => exact reaches.trans (inductionHypothesis.2 ended)
    · have last := pass_of_isExhausted exhausted
      rw [passed] at last
      cases last

/-! ### What is returned -/

/-- The result tells of a failure of the source. -/
def IsFailure (result : Except ReadError Entry) : Prop :=
  ∃ failure, result = .error (.sourceFailed failure)

/-- What a pass returns has taken at least one byte, unless the source failed. -/
theorem offset_lt_of_pass {result : Except ReadError Entry}
    (passed : reader.pass = (some (some result), after)) (own : ¬ IsFailure result) :
    reader.lexer.place.offset < after.lexer.place.offset := by
  have read := @Draft.offset_lt_read reader.config reader.interner reader.lexer
  unfold pass settle at passed
  dsimp only at passed
  split at passed
  · next entry found =>
    cases passed
    exact read (.inl ⟨entry, found⟩)
  · cases passed
  · next error refused =>
    split at passed
    · cases passed
      refine read (.inr ⟨error, refused, ?_⟩)
      cases error with
      | sourceFailed failure => exact absurd ⟨failure, rfl⟩ own
      | _ => rfl
    · split at passed
      · cases passed
      · split at passed
        · next failure _ _ =>
          cases passed
          exact absurd ⟨failure, rfl⟩ own
        · cases passed

/-- What is returned has taken at least one byte, unless the source failed. -/
theorem offset_lt_of_next {result : Except ReadError Entry}
    (returned : reader.next.1 = some result) (own : ¬ IsFailure result) :
    reader.lexer.place.offset < reader.next.2.lexer.place.offset := by
  induction reader using next_induction with
  | done reader done =>
    rw [next_of_isDone done] at returned
    cases returned
  | limit reader running limit =>
    rw [next_of_atLimit running limit] at returned
    cases returned
  | answered reader found after running room passed =>
    rw [next_of_answered running room passed] at returned ⊢
    cases returned
    exact offset_lt_of_pass passed own
  | again reader after running room passed inductionHypothesis =>
    have reaches := (pass_reaches reader).1
    rw [passed] at reaches
    rw [next_of_again running room passed] at returned ⊢
    exact Nat.lt_of_le_of_lt reaches.consumes.offset_le (inductionHypothesis returned)

/-- A pass that ends the search without a game leaves nothing to search. -/
theorem isDone_of_pass {result : Option (Except ReadError Entry)}
    (passed : reader.pass = (some result, after)) (last : ∀ entry, result ≠ some (.ok entry)) :
    after.isDone = true := by
  unfold pass settle at passed
  dsimp only at passed
  split at passed
  · next entry _ =>
    cases passed
    exact absurd rfl (last entry)
  · cases passed
    rfl
  · split at passed
    · cases passed
      rfl
    · split at passed
      · cases passed
        rfl
      · split at passed
        · cases passed
          rfl
        · cases passed

/-- A search that returns no game is the last one. -/
theorem isDone_of_next (last : ∀ entry, reader.next.1 ≠ some (.ok entry)) :
    reader.next.2.isDone = true := by
  induction reader using next_induction with
  | done reader done => rwa [next_of_isDone done]
  | limit reader running limit => rw [next_of_atLimit running limit]
  | answered reader found after running room passed =>
    rw [next_of_answered running room passed] at last ⊢
    exact isDone_of_pass passed last
  | again reader after running room passed inductionHypothesis =>
    rw [next_of_again running room passed] at last ⊢
    exact inductionHypothesis last

/-! ### Calls one after the other -/

/-- The reader behind the given number of searches for a game. -/
def afterCalls : Nat → Reader → Reader
  | 0, reader => reader
  | count + 1, reader => afterCalls count reader.next.2

theorem afterCalls_of_isDone (done : reader.isDone = true) (count : Nat) :
    reader.afterCalls count = reader := by
  induction count with
  | zero => rfl
  | succ count inductionHypothesis =>
    rw [afterCalls, next_of_isDone done]
    exact inductionHypothesis

/-- Searches return something up to a certain one of them, which has at most the given number of
others in front of it. That one returns nothing, and so do all later ones. -/
def EndsWithin (bound : Nat) (reader : Reader) : Prop :=
  ∃ count ≤ bound, ∀ calls, (reader.afterCalls calls).next.1 = none ↔ count ≤ calls

/-- Behind a search that returned nothing the reader is done. -/
theorem EndsWithin.of_next_eq_none (nothing : reader.next.1 = none) : reader.EndsWithin 0 := by
  have done : reader.next.2.isDone = true := isDone_of_next fun entry returned => by
    rw [nothing] at returned
    cases returned
  refine ⟨0, Nat.le_refl 0, fun calls => iff_of_true ?_ (Nat.zero_le calls)⟩
  cases calls with
  | zero => exact nothing
  | succ calls => rw [afterCalls, afterCalls_of_isDone done, next_of_isDone done]

/-- One search that returns something may come before the others. -/
theorem EndsWithin.of_next {bound : Nat} (more : reader.next.1 ≠ none)
    (ends : reader.next.2.EndsWithin bound) : reader.EndsWithin (bound + 1) := by
  obtain ⟨count, le, last⟩ := ends
  refine ⟨count + 1, Nat.succ_le_succ le, fun calls => ?_⟩
  cases calls with
  | zero => exact iff_of_false more (Nat.not_succ_le_zero count)
  | succ calls => exact (last calls).trans Nat.succ_le_succ_iff.symm

theorem EndsWithin.mono {bound more : Nat} (ends : reader.EndsWithin bound) (le : bound ≤ more) :
    reader.EndsWithin more := by
  obtain ⟨count, few, last⟩ := ends
  exact ⟨count, Nat.le_trans few le, last⟩

/-- There are no more results than bytes to read, and one more for a failure of the source. -/
theorem endsWithin_content (reader : Reader) :
    reader.EndsWithin (reader.lexer.source.content.length + 1) := by
  induction size : reader.lexer.source.content.length using Nat.strongRecOn
    generalizing reader with
  | ind size inductionHypothesis =>
    cases returned : reader.next.1 with
    | none => exact (EndsWithin.of_next_eq_none returned).mono (Nat.zero_le _)
    | some result =>
      have more : reader.next.1 ≠ none := by
        rw [returned]
        exact Option.some_ne_none result
      by_cases own : IsFailure result
      · have done : reader.next.2.isDone = true := isDone_of_next fun entry last => by
          obtain ⟨failure, rfl⟩ := own
          rw [returned] at last
          cases last
        have nothing : reader.next.2.next.1 = none := by rw [next_of_isDone done]
        have ends := (EndsWithin.of_next_eq_none nothing).of_next more
        exact ends.mono (Nat.succ_le_succ (Nat.zero_le _))
      · have taken := offset_lt_of_next returned own
        have shorter := (next_reaches reader).1.consumes.content_lt taken
        have ends := inductionHypothesis _ (size ▸ shorter) reader.next.2 rfl
        exact (ends.of_next more).mono (by omega)

/-- A call comes to its result with a bounded number of tokens, most of which take something from
what is left to read. -/
structure Halts (reader : Reader) : Prop where
  next : ∃ count ≤ reader.lexer.source.content.length + 2,
    reader.next.2.lexer = reader.lexer.ahead count
  skipGame : ∃ count ≤ reader.lexer.source.content.length + 1,
    reader.skipGame.2.lexer = reader.lexer.ahead count
  /-- What a search returns has taken at least one byte, or the source failed. -/
  progress : reader.next.1 = none ∨
    (∃ failure, reader.next.1 = some (.error (.sourceFailed failure))) ∨
      reader.lexer.place.offset < reader.next.2.lexer.place.offset

theorem halts (reader : Reader) : reader.Halts where
  next := (next_reaches reader).1.count_le
  skipGame := (skipGame_reaches reader).count_le
  progress := by
    cases returned : reader.next.1 with
    | none => exact .inl rfl
    | some result =>
      by_cases own : IsFailure result
      · obtain ⟨failure, rfl⟩ := own
        exact .inr (.inl ⟨failure, rfl⟩)
      · exact .inr (.inr (offset_lt_of_next returned own))

/-- Reading ends, from memory and through any device. Of the searches for a game at most as many
return something as the text has bytes, and one more; all later ones return nothing. Whatever state
a reader is in, each call on it halts. -/
theorem reading_ends (config : Config) (text : Bytes) (replies : List Scoresheet.Reply)
    (habit : Habit) :
    (start config (.ofSource (.ofBytes text))).EndsWithin (text.length + 1) ∧
      (start config (.ofSource (.ofDevice ⟨text, replies, habit⟩))).EndsWithin (text.length + 1) ∧
      ∀ reader : Reader, reader.Halts := by
  refine ⟨?_, ?_, halts⟩
  · have ends := endsWithin_content (start config (.ofSource (.ofBytes text)))
    rwa [show (start config (.ofSource (.ofBytes text))).lexer.source.content = text from
      List.append_nil text] at ends
  · exact endsWithin_content (start config (.ofSource (.ofDevice ⟨text, replies, habit⟩)))

end Reader

end Scoresheet
