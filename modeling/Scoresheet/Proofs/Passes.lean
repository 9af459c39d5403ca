/-
This file takes the search for the next game apart into passes. A pass reads one game; if the game
is refused and the reading can go on, the pass records the error, discards what is left of the game,
and calls for another pass. What holds of one pass holds of the whole search by induction on what is
left to read.
-/

import Scoresheet.Reader

namespace Scoresheet.Reader

variable [Hashable HeaderPair]

/-- What becomes of a reader once a game was read, and what the search for the next game returns
then, unless it has to go on with another pass. -/
def settle (reading : Reading) (reader : Reader) :
    Option (Option (Except ReadError Entry)) × Reader :=
  match reading with
  | .ok (some entry) => (some (some (.ok entry)), { reader with gamesRead := reader.gamesRead + 1 })
  | .ok none => (some none, { reader with isDone := true })
  | .error error =>
    if reader.config.stopOnError || error.cause?.isSome then
      (some (some (.error error)), { reader with isDone := true })
    else
      let recorded := { reader with errors := reader.errors ++ [error] }
      if error.isFatal then (some none, { recorded with isDone := true })
      else
        match reader.lexer.skipUntil .termination with
        | (.error failure, lexer) =>
          (some (some (.error (.sourceFailed failure))), { recorded with lexer, isDone := true })
        | (.ok (), lexer) => (none, { recorded with lexer })

/-- One pass of looking for the next game. -/
def pass (reader : Reader) : Option (Option (Except ReadError Entry)) × Reader :=
  let answer := Draft.read reader.config reader.interner reader.lexer
  settle answer.1 { reader with interner := answer.2.1, lexer := answer.2.2 }

theorem next_of_isDone {reader : Reader} (done : reader.isDone = true) :
    reader.next = (none, reader) := by
  rw [next, if_pos done]

theorem next_of_atLimit {reader : Reader} (more : reader.isDone = false)
    (limit : reader.atLimit = true) : reader.next = (none, { reader with isDone := true }) := by
  rw [next, if_neg (by rw [more]; exact Bool.false_ne_true), if_pos limit]

/-- The search for the next game is a pass, and another search if the pass calls for it. -/
theorem next_of_pass {reader : Reader} (more : reader.isDone = false)
    (room : reader.atLimit = false) :
    reader.next =
      match reader.pass with
      | (some result, after) => (result, after)
      | (none, after) => after.next := by
  rw [next, if_neg (by rw [more]; exact Bool.false_ne_true),
    if_neg (by rw [room]; exact Bool.false_ne_true)]
  unfold pass settle
  simp only
  split
  · next answered => simp only [answered]
  · next answered => simp only [answered]
  · next error answered =>
    simp only [answered]
    split
    · rfl
    · split
      · rfl
      · split
        · next skipped => simp only [skipped]
        · next skipped => simp only [skipped]

/-- A pass that calls for another one leaves less to read. -/
theorem content_lt_of_pass {reader after : Reader} (again : reader.pass = (none, after)) :
    after.lexer.source.content.length < reader.lexer.source.content.length := by
  unfold pass settle at again
  simp only at again
  split at again
  · cases again
  · cases again
  · next error refused =>
    split at again
    · cases again
    · split at again
      · cases again
      · next recoverable =>
        split at again
        · cases again
        · next lexer skipped =>
          cases again
          have rest := Lexer.content_skipUntil_le .termination
            (Draft.read reader.config reader.interner reader.lexer).2.2
          rw [skipped] at rest
          exact Nat.lt_of_le_of_lt rest
            (Draft.content_lt_of_readOn refused (Bool.eq_false_iff.mpr recoverable))

/-- No pass changes the settings. -/
theorem config_pass (reader : Reader) : reader.pass.2.config = reader.config := by
  unfold pass settle
  dsimp only
  split
  · rfl
  · rfl
  · split
    · rfl
    · split
      · rfl
      · split <;> rfl

section Search

variable {reader after : Reader}

/-- The search is over with a pass that found what it returns. -/
theorem next_of_answered {result : Option (Except ReadError Entry)} (more : reader.isDone = false)
    (room : reader.atLimit = false) (answered : reader.pass = (some result, after)) :
    reader.next = (result, after) := by
  rw [next_of_pass more room, answered]

/-- The search goes on behind a pass that calls for another one. -/
theorem next_of_again (more : reader.isDone = false) (room : reader.atLimit = false)
    (again : reader.pass = (none, after)) : reader.next = after.next := by
  rw [next_of_pass more room, again]

/-- Induction along the search for the next game: there is nothing to search, or the set number of
games has been reached, or a pass ends the search, or the search goes on behind a pass. -/
theorem next_induction {motive : Reader → Prop}
    (done : ∀ reader, reader.isDone = true → motive reader)
    (limit : ∀ reader, reader.isDone = false → reader.atLimit = true → motive reader)
    (answered : ∀ reader result after, reader.isDone = false → reader.atLimit = false →
      reader.pass = (some result, after) → motive reader)
    (again : ∀ reader after, reader.isDone = false → reader.atLimit = false →
      reader.pass = (none, after) → motive after → motive reader)
    (reader : Reader) : motive reader := by
  induction size : reader.lexer.source.content.length using Nat.strongRecOn
    generalizing reader with
  | ind size inductionHypothesis =>
    cases ended : reader.isDone with
    | true => exact done reader ended
    | false =>
      cases full : reader.atLimit with
      | true => exact limit reader ended full
      | false =>
        cases passed : reader.pass with
        | mk result after =>
          cases result with
          | some result => exact answered reader result after ended full passed
          | none =>
            have shorter := content_lt_of_pass passed
            exact again reader after ended full passed
              (inductionHypothesis _ (size ▸ shorter) after rfl)

theorem config_next (reader : Reader) : reader.next.2.config = reader.config := by
  induction reader using next_induction with
  | done reader done => rw [next_of_isDone done]
  | limit reader running limit => rw [next_of_atLimit running limit]
  | answered reader result after running room passed =>
    have kept := reader.config_pass
    rw [passed] at kept
    rwa [next_of_answered running room passed]
  | again reader after running room passed inductionHypothesis =>
    have kept := reader.config_pass
    rw [passed] at kept
    rw [next_of_again running room passed, inductionHypothesis, kept]

end Search

end Scoresheet.Reader
