/-
This file shows that stopping at the first error and a limit on the number of games only cut a run
short. What a reader does, one search after the other, is written down in the order in which it
happens: the games it yields, the errors it records and those it returns. A reader that stops or is
limited has the same account as one that goes on without limit, up to where it is cut, except that
the error it stops at is returned and not recorded.

The account is taken apart pass by pass, and both readers make the same passes, since reading a game
depends on neither setting.
-/

import Scoresheet.Cache.PairHash
import Scoresheet.Proofs.Exhaustion
import Scoresheet.Proofs.Failing
import Scoresheet.Proofs.Verdicts

namespace Scoresheet

/-! ### Accounts -/

/-- What can happen while games are searched for. -/
inductive Occurrence where
  | game (entry : Entry)
  | recorded (error : ReadError)
  | returned (error : ReadError)

namespace Occurrence

def entry? : Occurrence → Option Entry
  | game entry => some entry
  | _ => none

def recorded? : Occurrence → Option ReadError
  | recorded error => some error
  | _ => none

/-- What a search that returned the given result comes to at its end. -/
def ofResult : Option (Except ReadError Entry) → List Occurrence
  | some (.ok entry) => [game entry]
  | some (.error error) => [returned error]
  | none => []

theorem entries_ofResult {result : Option (Except ReadError Entry)}
    (nothing : ∀ entry, result ≠ some (.ok entry)) : (ofResult result).filterMap entry? = [] := by
  unfold ofResult
  split
  · next entry => exact absurd rfl (nothing entry)
  · rfl
  · rfl

/-- The first occurrences, up to and with as many games as there is room for. -/
def upToGames : Nat → List Occurrence → List Occurrence
  | 0, _ => []
  | _ + 1, [] => []
  | room + 1, .game entry :: rest => .game entry :: upToGames room rest
  | room + 1, other :: rest => other :: upToGames (room + 1) rest

/-- The first occurrences, up to and with the first error, which is returned. -/
def upToError : List Occurrence → List Occurrence
  | [] => []
  | .game entry :: rest => .game entry :: upToError rest
  | .recorded error :: _ => [.returned error]
  | .returned error :: _ => [.returned error]

/-- What is left of an account where it is cut. -/
def cut (stop : Bool) (room : Option Nat) (account : List Occurrence) : List Occurrence :=
  let heard := if stop then upToError account else account
  match room with
  | none => heard
  | some room => upToGames room heard

variable {stop : Bool} {room : Option Nat} {account : List Occurrence}

@[simp] theorem cut_nil : cut stop room [] = [] := by
  unfold cut upToError
  cases room with
  | none => simp
  | some room => cases room <;> simp [upToGames]

@[simp] theorem cut_zero : cut stop (some 0) account = [] := by
  simp only [cut, upToGames]

theorem cut_game (entry : Entry) (more : room ≠ some 0) :
    cut stop room (.game entry :: account) =
      .game entry :: cut stop (room.map (· - 1)) account := by
  unfold cut
  match room with
  | none => cases stop <;> rfl
  | some 0 => exact absurd rfl more
  | some (room + 1) => cases stop <;> rfl

theorem cut_recorded (error : ReadError) (more : room ≠ some 0) :
    cut false room (.recorded error :: account) = .recorded error :: cut false room account := by
  match room with
  | none => rfl
  | some 0 => exact absurd rfl more
  | some (room + 1) => rfl

theorem cut_recorded_of_stop (error : ReadError) (more : room ≠ some 0) :
    cut true room (.recorded error :: account) = [.returned error] := by
  match room with
  | none => rfl
  | some 0 => exact absurd rfl more
  | some (room + 1) =>
    change upToGames (room + 1) [.returned error] = _
    rfl

/-- Of two cuts the earlier one wins. An error that comes before the last game is returned. -/
theorem cut_both (games : Nat) :
    cut true (some games) account =
      if (upToError account).length ≤ (upToGames games account).length then upToError account
      else upToGames games account := by
  change upToGames games (upToError account) = _
  induction account generalizing games with
  | nil => cases games <;> simp [upToGames, upToError]
  | cons first rest inductionHypothesis =>
    cases games with
    | zero => cases first <;> simp [upToGames, upToError]
    | succ games =>
      cases first with
      | game entry =>
        simp only [upToError, upToGames, inductionHypothesis games, List.length_cons,
          Nat.add_le_add_iff_right]
        split <;> rfl
      | recorded error => simp [upToGames, upToError]
      | returned error => simp [upToGames, upToError]

theorem cut_returned (error : ReadError) (more : room ≠ some 0) :
    cut stop room [.returned error] = [.returned error] := by
  match room with
  | none => cases stop <;> rfl
  | some 0 => exact absurd rfl more
  | some (room + 1) => cases stop <;> rfl

end Occurrence

/-- The settings with others for where a run is cut. -/
def Config.cutting (stop : Bool) (limit : Option Nat) (config : Config) : Config :=
  { config with stopOnError := stop, gameLimit := limit }

namespace Reader

/-- The reader with other settings for where a run is cut. -/
def cutting (stop : Bool) (limit : Option Nat) (reader : Reader) : Reader :=
  { reader with config := reader.config.cutting stop limit }

variable {stop : Bool} {limit : Option Nat}

theorem stopOnError_cutting (reader : Reader) :
    (reader.cutting stop limit).config.stopOnError = stop := rfl

theorem atLimit_cutting {reader : Reader} :
    (reader.cutting stop limit).atLimit = true ↔
      ∃ last, limit = some last ∧ last ≤ reader.gamesRead := by
  unfold atLimit cutting Config.cutting
  cases limit with
  | none => simp
  | some last => simp

theorem room_of_not_atLimit {reader : Reader} (room : (reader.cutting stop limit).atLimit = false) :
    limit.map (· - reader.gamesRead) ≠ some 0 := by
  intro none
  obtain ⟨last, rfl, zero⟩ := Option.map_eq_some_iff.mp none
  rw [atLimit_cutting.mpr ⟨last, rfl, Nat.sub_eq_zero_iff_le.mp zero⟩] at room
  cases room

theorem settle_cutting (reading : Reading) {reader : Reader}
    (goesOn : reader.config.stopOnError = false) :
    (reader.cutting stop limit).settle reading =
        ((reader.settle reading).1, (reader.settle reading).2.cutting stop limit) ∨
      ∃ error, ((reader.cutting stop limit).settle reading).1 = some (some (.error error)) := by
  unfold settle
  cases reading with
  | ok found => cases found <;> exact .inl rfl
  | error error =>
    dsimp only
    rw [goesOn, stopOnError_cutting]
    cases stop with
    | true => exact .inr ⟨error, rfl⟩
    | false =>
      refine .inl ?_
      split
      · rfl
      · split
        · rfl
        · have same : (reader.cutting false limit).lexer = reader.lexer := rfl
          rw [same]
          split <;> rfl

theorem gamesRead_settle (reading : Reading) (reader : Reader) :
    (reader.settle reading).2.gamesRead =
      reader.gamesRead + ((Occurrence.ofResult (reader.settle reading).1.join).filterMap
        Occurrence.entry?).length := by
  unfold settle
  split
  · rfl
  · rfl
  · split
    · rfl
    · dsimp only
      split
      · rfl
      · split <;> rfl

theorem read_of_settle {reading : Reading} {reader after : Reader} {entry : Entry}
    (settled : reader.settle reading = (some (some (.ok entry)), after)) :
    reading = .ok (some entry) ∧ after.lexer = reader.lexer := by
  unfold settle at settled
  split at settled
  · cases settled
    exact ⟨rfl, rfl⟩
  · cases settled
  · split at settled
    · cases settled
    · dsimp only at settled
      split at settled
      · cases settled
      · split at settled <;> cases settled

section Hash

variable [Hashable HeaderPair]

/-- What happens during one search: errors are recorded, and then there may be a result. -/
def occurrences (reader : Reader) : List Occurrence :=
  (reader.next.2.errors.drop reader.errors.length).map Occurrence.recorded ++
    Occurrence.ofResult reader.next.1

/-- What happens during the given number of searches. -/
def account : Nat → Reader → List Occurrence
  | 0, _ => []
  | calls + 1, reader => reader.occurrences ++ account calls reader.next.2

/-- What reading the next game leads to. -/
def reading (reader : Reader) : Reading :=
  (Draft.read reader.config reader.interner reader.lexer).1

/-- The reader once the next game was read. -/
def behind (reader : Reader) : Reader :=
  { reader with
    interner := (Draft.read reader.config reader.interner reader.lexer).2.1
    lexer := (Draft.read reader.config reader.interner reader.lexer).2.2 }

theorem pass_eq_settle (reader : Reader) : reader.pass = settle reader.reading reader.behind := rfl

variable {reader after : Reader} {calls : Nat}

/-! ### Accounts pass by pass -/

theorem account_of_next_eq_none {last : Reader} (found : reader.next = (none, last))
    (kept : last.errors = reader.errors) : reader.account (calls + 1) = last.account calls := by
  rw [account, occurrences, found, kept, List.drop_length]
  rfl

theorem account_of_isDone (done : reader.isDone = true) : reader.account calls = [] := by
  induction calls with
  | zero => rfl
  | succ calls inductionHypothesis =>
    rw [account_of_next_eq_none (next_of_isDone done) rfl, inductionHypothesis]

theorem account_of_atLimit (full : reader.atLimit = true) : reader.account calls = [] := by
  cases running : reader.isDone with
  | true => exact account_of_isDone running
  | false =>
    cases calls with
    | zero => rfl
    | succ calls =>
      rw [account_of_next_eq_none (next_of_atLimit running full) rfl]
      exact account_of_isDone rfl

/-- A pass that ends the search comes to what it records and what it returns. -/
theorem account_of_answered {result : Option (Except ReadError Entry)} {errors : List ReadError}
    (running : reader.isDone = false) (room : reader.atLimit = false)
    (passed : reader.pass = (some result, after)) (added : after.errors = reader.errors ++ errors) :
    reader.account (calls + 1) =
      errors.map Occurrence.recorded ++ Occurrence.ofResult result ++ after.account calls := by
  rw [account, occurrences, next_of_answered running room passed, added, List.drop_left]

/-- A pass that calls for another one has recorded an error. -/
theorem account_of_again {error : ReadError} (running : reader.isDone = false)
    (room : reader.atLimit = false) (passed : reader.pass = (none, after))
    (added : after.errors = reader.errors ++ [error]) :
    reader.account (calls + 1) = .recorded error :: after.account (calls + 1) := by
  obtain ⟨more, further⟩ := (trails_next after).errors
  have dropped : (after.errors ++ more).drop reader.errors.length = error :: more := by
    rw [added, List.append_assoc, List.drop_left]
    rfl
  rw [account, account, occurrences, occurrences, next_of_again running room passed, ← further,
    List.drop_left, dropped]
  rfl

/-- What is left of an account behind the errors that were refused, when a reader goes on. -/
def afterRefusal (calls : Nat) (error : ReadError) (reader : Reader) : List Occurrence :=
  if error.isFatal then []
  else
    match reader.lexer.skipUntil .termination with
    | (.error failure, _) => [.returned (.sourceFailed failure)]
    | (.ok (), lexer) => { reader with lexer }.account (calls + 1)

/-- What is left of an account once a game was refused. -/
def refusal (calls : Nat) (error : ReadError) (reader : Reader) : List Occurrence :=
  if reader.config.stopOnError || error.cause?.isSome then [.returned error]
  else
    .recorded error :: afterRefusal calls error { reader with errors := reader.errors ++ [error] }

theorem account_of_refused {error : ReadError} (running : reader.isDone = false)
    (room : reader.atLimit = false) (read : reader.reading = .error error) :
    reader.account (calls + 1) = reader.behind.refusal calls error := by
  have passed := reader.pass_eq_settle
  unfold settle at passed
  rw [read] at passed
  dsimp only at passed
  unfold refusal
  split at passed
  · next stops =>
    rw [@account_of_answered _ _ _ _ _ [] running room passed (List.append_nil _).symm,
      account_of_isDone rfl, if_pos stops]
    rfl
  · next goesOn =>
    rw [if_neg goesOn]
    unfold afterRefusal
    split at passed
    · next fatal =>
      rw [@account_of_answered _ _ _ _ _ [error] running room passed rfl, account_of_isDone rfl,
        if_pos fatal]
      rfl
    · next recoverable =>
      rw [if_neg recoverable]
      cases skipped : reader.behind.lexer.skipUntil .termination with
      | mk result lexer =>
        simp only [skipped] at passed ⊢
        cases result with
        | error failure =>
          rw [@account_of_answered _ _ _ _ _ [error] running room passed rfl, account_of_isDone rfl]
          rfl
        | ok _ => exact account_of_again running room passed rfl

/-- The account of a reader that has room for a further game, by what reading it leads to. -/
theorem account_eq (running : reader.isDone = false) (room : reader.atLimit = false) :
    reader.account (calls + 1) =
      match reader.reading with
      | .ok (some entry) =>
        .game entry :: { reader.behind with gamesRead := reader.gamesRead + 1 }.account calls
      | .ok none => []
      | .error error => reader.behind.refusal calls error := by
  have passed := reader.pass_eq_settle
  unfold settle at passed
  cases read : reader.reading with
  | ok found =>
    rw [read] at passed
    cases found with
    | none =>
      rw [@account_of_answered _ _ _ _ _ [] running room passed (List.append_nil _).symm,
        account_of_isDone rfl]
      rfl
    | some entry =>
      rw [@account_of_answered _ _ _ _ _ [] running room passed (List.append_nil _).symm]
      rfl
  | error error => exact account_of_refused running room read

/-! ### Readers that are cut -/

/-- Reading a game does not depend on where a run is cut. -/
theorem readOn_cutting (config : Config) (draft : Draft) (allocations : List Nat)
    (interner : Interner) (lexer : Lexer) :
    draft.readOn (config.cutting stop limit) allocations interner lexer =
      draft.readOn config allocations interner lexer := by
  fun_induction Draft.readOn config draft allocations interner lexer with
  | case1 draft allocations interner lexer failure after failed =>
    exact Draft.readOn_of_failed failed
  | case2 draft allocations interner lexer after success noted last =>
    exact Draft.readOn_of_last success last
  | case3 draft allocations interner lexer after success noted more error refused =>
    have same : draft.accept (config.cutting stop limit) after.token = .error error := refused
    rw [Draft.readOn_of_token success (Bool.eq_false_iff.mpr more)]
    simp only [same]
    rfl
  | case4 draft allocations interner lexer after success noted more game finished =>
    have same : draft.accept (config.cutting stop limit) after.token = .ok (.finished game) :=
      finished
    rw [Draft.readOn_of_token success (Bool.eq_false_iff.mpr more)]
    simp only [same]
    rfl
  | case5 draft allocations interner lexer after success noted more next onward
      inductionHypothesis =>
    have same : draft.accept (config.cutting stop limit) after.token = .ok (.onward next) := onward
    rw [Draft.readOn_of_token success (Bool.eq_false_iff.mpr more)]
    simp only [same]
    exact inductionHypothesis

theorem reading_cutting (reader : Reader) : (reader.cutting stop limit).reading = reader.reading :=
  congrArg Prod.fst (readOn_cutting reader.config .start [] reader.interner reader.lexer)

theorem behind_cutting (reader : Reader) :
    (reader.cutting stop limit).behind = reader.behind.cutting stop limit := by
  unfold behind Draft.read cutting
  rw [readOn_cutting]

/-- What is left of an account behind an error that was recorded is cut as the rest of the run. -/
theorem afterRefusal_cutting {error : ReadError} {reader : Reader} {room : Option Nat}
    (more : room ≠ some 0)
    (rest : error.isFatal = false → ∀ lexer, reader.lexer.skipUntil .termination = (.ok (), lexer) →
      (cutting stop limit { reader with lexer }).account (calls + 1) =
        Occurrence.cut stop room ({ reader with lexer }.account (calls + 1))) :
    (reader.cutting stop limit).afterRefusal calls error =
      Occurrence.cut stop room (reader.afterRefusal calls error) := by
  unfold afterRefusal
  cases fatal : error.isFatal with
  | true => exact Occurrence.cut_nil.symm
  | false =>
    rw [if_neg Bool.false_ne_true, if_neg Bool.false_ne_true]
    have same : (reader.cutting stop limit).lexer = reader.lexer := rfl
    rw [same]
    cases skipped : reader.lexer.skipUntil .termination with
    | mk result lexer =>
      cases result with
      | error failure => exact (Occurrence.cut_returned _ more).symm
      | ok _ => exact rest fatal lexer skipped

/-- A refusal that is recorded by whoever goes on is returned by whoever stops. -/
theorem refusal_cutting {error : ReadError} {reader : Reader} {room : Option Nat}
    (goesOn : reader.config.stopOnError = false) (more : room ≠ some 0)
    (rest : error.isFatal = false → ∀ lexer, reader.lexer.skipUntil .termination = (.ok (), lexer) →
      (cutting stop limit { reader with lexer, errors := reader.errors ++ [error] }).account
          (calls + 1) =
        Occurrence.cut stop room
          ({ reader with lexer, errors := reader.errors ++ [error] }.account (calls + 1))) :
    (reader.cutting stop limit).refusal calls error =
      Occurrence.cut stop room (reader.refusal calls error) := by
  unfold refusal
  rw [goesOn, stopOnError_cutting]
  cases cause : error.cause?.isSome with
  | true =>
    rw [Bool.or_true, if_pos rfl, Bool.or_true, if_pos rfl, Occurrence.cut_returned error more]
  | false =>
    rw [Bool.or_false, Bool.or_false, if_neg Bool.false_ne_true]
    cases stop with
    | true => rw [if_pos rfl, Occurrence.cut_recorded_of_stop error more]
    | false =>
      rw [if_neg Bool.false_ne_true, Occurrence.cut_recorded error more]
      have behind : (cutting false limit { reader with
          errors := reader.errors ++ [error] }).afterRefusal calls error = _ :=
        afterRefusal_cutting more rest
      exact congrArg (Occurrence.recorded error :: ·) behind

/-- Whoever goes on without limit comes to an account, and whoever stops or is limited comes to that
account up to where it is cut. -/
theorem account_cutting (reader : Reader) (goesOn : reader.config.stopOnError = false)
    (unlimited : reader.config.gameLimit = none) (calls : Nat) :
    (reader.cutting stop limit).account calls =
      Occurrence.cut stop (limit.map (· - reader.gamesRead)) (reader.account calls) := by
  -- Calls are counted first, and then what is left to read, for the passes of one call.
  induction calls generalizing reader with
  | zero => exact Occurrence.cut_nil.symm
  | succ calls later =>
    induction size : reader.lexer.source.content.length using Nat.strongRecOn
      generalizing reader with
    | ind size shorter =>
      cases running : reader.isDone with
      | true =>
        have done : (reader.cutting stop limit).isDone = true := running
        rw [account_of_isDone running, account_of_isDone done, Occurrence.cut_nil]
      | false =>
        have unfinished : (reader.cutting stop limit).isDone = false := running
        have spacious : reader.atLimit = false := by
          unfold atLimit
          rw [unlimited]
        cases room : (reader.cutting stop limit).atLimit with
        | true =>
          obtain ⟨last, rfl, full⟩ := atLimit_cutting.mp room
          rw [account_of_atLimit room, Option.map_some, Nat.sub_eq_zero_of_le full,
            Occurrence.cut_zero]
        | false =>
          have more := room_of_not_atLimit room
          rw [account_eq unfinished room, account_eq running spacious, reading_cutting,
            behind_cutting]
          cases read : reader.reading with
          | ok found =>
            cases found with
            | none => exact Occurrence.cut_nil.symm
            | some entry =>
              have rest := later { reader.behind with gamesRead := reader.gamesRead + 1 } goesOn
                unlimited
              rw [Occurrence.cut_game entry more, Option.map_map]
              exact congrArg (Occurrence.game entry :: ·) rest
          | error error =>
            refine refusal_cutting goesOn more fun recoverable lexer skipped => ?_
            refine shorter _ (size ▸ ?_) _ goesOn unlimited rfl
            have rest := Lexer.content_skipUntil_le .termination reader.behind.lexer
            rw [skipped] at rest
            exact Nat.lt_of_le_of_lt rest (Draft.content_lt_of_readOn read recoverable)

/-! ### What an account tells of the reader -/

/-- What is recorded or returned is no game. -/
theorem entries_occurrences (reader : Reader) :
    reader.occurrences.filterMap Occurrence.entry? =
      (Occurrence.ofResult reader.next.1).filterMap Occurrence.entry? := by
  rw [occurrences, List.filterMap_append, List.filterMap_map, List.filterMap_eq_nil_iff.mpr,
    List.nil_append]
  intro error _
  rfl

/-- A search counts the game it yields. -/
theorem gamesRead_next (reader : Reader) :
    reader.next.2.gamesRead =
      reader.gamesRead + (reader.occurrences.filterMap Occurrence.entry?).length := by
  rw [entries_occurrences]
  induction reader using next_induction with
  | done reader done => rw [next_of_isDone done]; rfl
  | limit reader running limit => rw [next_of_atLimit running limit]; rfl
  | answered reader result after running room passed =>
    have counted := gamesRead_settle reader.reading reader.behind
    rw [← pass_eq_settle, passed] at counted
    rw [next_of_answered running room passed]
    exact counted
  | again reader after running room passed inductionHypothesis =>
    have counted := gamesRead_settle reader.reading reader.behind
    rw [← pass_eq_settle, passed] at counted
    rw [next_of_again running room passed, inductionHypothesis, counted]
    rfl

theorem gamesRead_next_of_game {entry : Entry} (found : reader.next.1 = some (.ok entry)) :
    reader.next.2.gamesRead = reader.gamesRead + 1 := by
  rw [gamesRead_next, entries_occurrences, found]
  rfl

theorem gamesRead_next_of_last (last : ∀ entry, reader.next.1 ≠ some (.ok entry)) :
    reader.next.2.gamesRead = reader.gamesRead := by
  rw [gamesRead_next, entries_occurrences, Occurrence.entries_ofResult last]
  rfl

/-- A search records its errors behind those that were recorded before. -/
theorem errors_next (reader : Reader) :
    reader.next.2.errors =
      reader.errors ++ reader.occurrences.filterMap Occurrence.recorded? := by
  obtain ⟨added, behind⟩ := (trails_next reader).errors
  have returned : (Occurrence.ofResult reader.next.1).filterMap Occurrence.recorded? = [] := by
    unfold Occurrence.ofResult
    split <;> rfl
  have kept : Occurrence.recorded? ∘ Occurrence.recorded = some := rfl
  rw [occurrences, List.filterMap_append, returned, List.append_nil, List.filterMap_map, kept,
    List.filterMap_some, ← behind, List.drop_left]

/-- The games of an account are those that were counted meanwhile. -/
theorem gamesRead_afterCalls (reader : Reader) (calls : Nat) :
    (reader.afterCalls calls).gamesRead =
      reader.gamesRead + ((reader.account calls).filterMap Occurrence.entry?).length := by
  induction calls generalizing reader with
  | zero => rfl
  | succ calls inductionHypothesis =>
    rw [afterCalls, inductionHypothesis, gamesRead_next, account, List.filterMap_append,
      List.length_append, Nat.add_assoc]

/-- The errors an account records are those that were recorded meanwhile. -/
theorem errors_afterCalls (reader : Reader) (calls : Nat) :
    (reader.afterCalls calls).errors =
      reader.errors ++ (reader.account calls).filterMap Occurrence.recorded? := by
  induction calls generalizing reader with
  | zero => exact (List.append_nil _).symm
  | succ calls inductionHypothesis =>
    rw [afterCalls, inductionHypothesis, errors_next, account, List.filterMap_append,
      List.append_assoc]

/-! ### Where a limited reader stays -/

/-- A game that was read ends with the token that was read last. -/
theorem readOn_fits (config : Config) (draft : Draft) (allocations : List Nat)
    (interner : Interner) (lexer : Lexer) :
    ∀ entry, (draft.readOn config allocations interner lexer).1 = .ok (some entry) →
      Draft.Step.Fits (draft.readOn config allocations interner lexer).2.2.token
        (.finished entry.game) := by
  fun_induction Draft.readOn config draft allocations interner lexer with
  | case1 =>
    intro entry read
    cases read
  | case2 draft allocations interner lexer after success noted last =>
    intro entry read
    rcases draft.conclude_eq config after.start with nothing | ended
    · rw [nothing] at read
      cases read
    · rw [ended] at read
      cases read
  | case3 =>
    intro entry read
    cases read
  | case4 draft allocations interner lexer after success noted more game finished =>
    intro entry read
    cases read
    have orderly := draft.accept_orderly config after.token
    rw [finished] at orderly
    exact orderly
  | case5 draft allocations interner lexer after success noted more next onward
      inductionHypothesis =>
    exact inductionHypothesis

/-- The search for a game that was found ends with its termination marker. -/
theorem next_fits {reader : Reader} {entry : Entry} (found : reader.next.1 = some (.ok entry)) :
    Draft.Step.Fits reader.next.2.lexer.token (.finished entry.game) := by
  induction reader using next_induction with
  | done reader done =>
    rw [next_of_isDone done] at found
    cases found
  | limit reader running limit =>
    rw [next_of_atLimit running limit] at found
    cases found
  | answered reader result after running room passed =>
    rw [next_of_answered running room passed] at found ⊢
    have settled := reader.pass_eq_settle.symm.trans passed
    obtain rfl : result = some (.ok entry) := found
    obtain ⟨read, same⟩ := read_of_settle settled
    rw [same]
    exact readOn_fits reader.config .start [] reader.interner reader.lexer entry read
  | again reader after running room passed inductionHypothesis =>
    rw [next_of_again running room passed] at found ⊢
    exact inductionHypothesis found

/-- A search that finds a game makes the same passes wherever the run is cut. -/
theorem pass_cutting {reader : Reader} {entry : Entry}
    (goesOn : reader.config.stopOnError = false) (running : reader.isDone = false)
    (found : (reader.cutting stop limit).next.1 = some (.ok entry)) :
    (reader.cutting stop limit).atLimit = false ∧
      (reader.cutting stop limit).pass = (reader.pass.1, reader.pass.2.cutting stop limit) := by
  have unfinished : (reader.cutting stop limit).isDone = false := running
  cases room : (reader.cutting stop limit).atLimit with
  | true =>
    rw [next_of_atLimit unfinished room] at found
    cases found
  | false =>
    refine ⟨rfl, ?_⟩
    have passed := (reader.cutting stop limit).pass_eq_settle
    rw [reading_cutting, behind_cutting] at passed
    rw [pass_eq_settle reader]
    have settled : reader.behind.config.stopOnError = false → _ :=
      @settle_cutting stop limit reader.reading reader.behind
    obtain same | ⟨error, failed⟩ := settled goesOn
    · rw [passed, same]
    · rw [← passed] at failed
      rw [next_of_answered unfinished room (Prod.ext failed rfl)] at found
      cases found

theorem next_cutting {reader : Reader} {entry : Entry}
    (goesOn : reader.config.stopOnError = false) (unlimited : reader.config.gameLimit = none)
    (found : (reader.cutting stop limit).next.1 = some (.ok entry)) :
    (reader.cutting stop limit).next.2 = reader.next.2.cutting stop limit := by
  induction reader using next_induction with
  | done reader done =>
    have ended : (reader.cutting stop limit).isDone = true := done
    rw [next_of_isDone ended] at found
    cases found
  | limit reader running full =>
    unfold atLimit at full
    rw [unlimited] at full
    cases full
  | answered reader result after running spacious passed =>
    obtain ⟨room, same⟩ := pass_cutting goesOn running found
    rw [passed] at same
    have unfinished : (reader.cutting stop limit).isDone = false := running
    rw [next_of_answered unfinished room same, next_of_answered running spacious passed]
  | again reader after running spacious passed inductionHypothesis =>
    obtain ⟨room, same⟩ := pass_cutting goesOn running found
    have kept := reader.config_pass
    rw [passed] at same kept
    have unfinished : (reader.cutting stop limit).isDone = false := running
    rw [next_of_again unfinished room same] at found ⊢
    rw [next_of_again running spacious passed]
    exact inductionHypothesis (kept ▸ goesOn) (kept ▸ unlimited) found

/-- A reader that yielded the set number of games stays where it is. -/
theorem lexer_afterCalls_of_atLimit {reader : Reader} (full : reader.atLimit = true)
    (calls : Nat) : (reader.afterCalls calls).lexer = reader.lexer := by
  cases running : reader.isDone with
  | true => rw [afterCalls_of_isDone running]
  | false =>
    cases calls with
    | zero => rfl
    | succ calls =>
      rw [afterCalls, next_of_atLimit running full, afterCalls_of_isDone rfl]

/-- A limited reader that yields its last game has done with it, and stays at its termination
marker, where the reader without limit is after as many searches. -/
theorem reached_limit {reader : Reader} {last : Nat}
    (goesOn : reader.config.stopOnError = false) (unlimited : reader.config.gameLimit = none)
    (fewer : reader.gamesRead < last)
    (reached : ((reader.cutting stop (some last)).afterCalls calls).gamesRead = last) :
    ((reader.cutting stop (some last)).afterCalls calls).lexer =
        (reader.afterCalls (last - reader.gamesRead)).lexer ∧
      ∃ earlier entry,
        (reader.cutting stop (some last)).account calls = earlier ++ [.game entry] ∧
          Draft.Step.Fits ((reader.cutting stop (some last)).afterCalls calls).lexer.token
            (.finished entry.game) := by
  induction calls generalizing reader with
  | zero => exact absurd reached (Nat.ne_of_lt fewer)
  | succ calls inductionHypothesis =>
    rw [afterCalls] at reached ⊢
    by_cases game : ∃ entry, (reader.cutting stop (some last)).next.1 = some (.ok entry)
    · obtain ⟨entry, found⟩ := game
      have config := reader.config_next
      have onward := next_cutting goesOn unlimited found
      have fits := next_fits found
      obtain ⟨left, passed⟩ : ∃ left, last - reader.gamesRead = left + 1 :=
        ⟨last - reader.gamesRead - 1, by omega⟩
      have more : reader.next.2.gamesRead = reader.gamesRead + 1 := by
        have counted := gamesRead_next_of_game found
        rwa [onward] at counted
      have rest : last - reader.next.2.gamesRead = left := by omega
      rw [account, occurrences, found, onward, passed, afterCalls]
      rw [onward] at reached fits
      rcases Nat.lt_or_ge reader.next.2.gamesRead last with room | full
      · obtain ⟨same, earlier, final, told, marked⟩ :=
          inductionHypothesis (config ▸ goesOn) (config ▸ unlimited) room reached
        rw [rest] at same
        exact ⟨same, _, final, by rw [told, ← List.append_assoc], marked⟩
      · have ended : (reader.next.2.cutting stop (some last)).atLimit = true :=
          atLimit_cutting.mpr ⟨last, rfl, full⟩
        obtain rfl : left = 0 := by omega
        rw [lexer_afterCalls_of_atLimit ended, account_of_atLimit ended, List.append_nil]
        exact ⟨rfl, _, entry, rfl, fits⟩
    · have nothing : ∀ entry, (reader.cutting stop (some last)).next.1 ≠ some (.ok entry) :=
        fun entry found => game ⟨entry, found⟩
      rw [afterCalls_of_isDone (isDone_of_next nothing), gamesRead_next_of_last nothing] at reached
      exact absurd reached (Nat.ne_of_lt fewer)

/-- Stopping at the first error and limiting the number of games only cut a run. The account of the
limited reader is that of one that goes on without limit up to where it is cut, the error it stops
at being returned; of two cuts the earlier one wins. Its counter and its errors are those the
account tells. Once it has yielded as many games as it may, it stays where the other reader is after
as many searches, which is the termination marker of the last game. -/
theorem limits_only_cut (config : Config) (lexer : Lexer) (stop : Bool) (limit : Option Nat)
    (calls : Nat) :
    let whole := start (config.cutting false none) lexer
    let limited := start (config.cutting stop limit) lexer
    limited.account calls = Occurrence.cut stop limit (whole.account calls) ∧
      (∀ last, stop = true → limit = some last →
        limited.account calls =
          if (Occurrence.upToError (whole.account calls)).length ≤
            (Occurrence.upToGames last (whole.account calls)).length
          then Occurrence.upToError (whole.account calls)
          else Occurrence.upToGames last (whole.account calls)) ∧
      (limited.afterCalls calls).gamesRead =
        ((limited.account calls).filterMap Occurrence.entry?).length ∧
      (limited.afterCalls calls).errors =
        (limited.account calls).filterMap Occurrence.recorded? ∧
      ∀ last, limit = some last → (limited.afterCalls calls).gamesRead = last →
        (limited.afterCalls calls).lexer = (whole.afterCalls last).lexer ∧
          (0 < last → ∃ earlier entry, limited.account calls = earlier ++ [.game entry] ∧
            (limited.afterCalls calls).lexer.kind = .termination ∧
            (limited.afterCalls calls).lexer.span = entry.game.outcome.marker) := by
  intro whole limited
  have account : limited.account calls = Occurrence.cut stop limit (whole.account calls) := by
    have same : limited.account calls = _ := account_cutting whole rfl rfl calls
    have zero : limit.map (· - whole.gamesRead) = limit := Option.map_id'
    rw [zero] at same
    exact same
  refine ⟨account, ?_, ?_, ?_, ?_⟩
  · rintro last rfl rfl
    rw [account, Occurrence.cut_both]
  · exact (gamesRead_afterCalls limited calls).trans (Nat.zero_add _)
  · exact errors_afterCalls limited calls
  · rintro last rfl reached
    rcases Nat.eq_zero_or_pos last with rfl | positive
    · exact ⟨lexer_afterCalls_of_atLimit rfl calls, fun more => absurd more (Nat.lt_irrefl 0)⟩
    · obtain ⟨same, earlier, entry, told, kind, marker⟩ :=
        @reached_limit stop _ calls whole last rfl rfl positive reached
      exact ⟨same, fun _ => ⟨earlier, entry, told, kind, marker.symm⟩⟩

end Hash

open scoped PairHash

/-- A reader over three games, of which the second is refused. -/
def spoilt (stop : Bool) (limit : Option Nat) : Reader :=
  start (Config.standard.cutting stop limit)
    (.ofSource (.ofBytes (Bytes.ofString "1. e4 *\n1. d4 ] *\n1. c4 1-0")))

theorem limits_only_cut_spoilt :
    let whole := spoilt false none
    let limited := spoilt true (some 1)
    (whole.account 2).length = 3 ∧
      limited.account 2 = (if (Occurrence.upToError (whole.account 2)).length ≤
          (Occurrence.upToGames 1 (whole.account 2)).length
        then Occurrence.upToError (whole.account 2) else Occurrence.upToGames 1 (whole.account 2)) ∧
      (limited.account 2).length = 1 ∧ (limited.afterCalls 2).gamesRead = 1 ∧
      (limited.afterCalls 2).lexer = (whole.afterCalls 1).lexer ∧ 0 < 1 ∧
      ∃ earlier entry, limited.account 2 = earlier ++ [.game entry] ∧
        (limited.afterCalls 2).lexer.kind = .termination ∧
        (limited.afterCalls 2).lexer.span = entry.game.outcome.marker := by
  intro whole limited
  have reached : (limited.afterCalls 2).gamesRead = 1 := by decide +kernel
  obtain ⟨-, both, -, -, stays⟩ :=
    limits_only_cut .standard (spoilt true (some 1)).lexer true (some 1) 2
  obtain ⟨same, marked⟩ := stays 1 rfl reached
  exact ⟨by decide +kernel, both 1 rfl rfl, by decide +kernel, reached, same, Nat.one_pos,
    marked Nat.one_pos⟩

end Reader

end Scoresheet
