/-
This file says when two lexers cannot be told apart but for positions. A relation of lexers is an
echo if related lexers show the same token, each where it stands in its own input, and stay related
whatever is asked of them. Requests are then answered alike, and so are those made of readers over
related lexers: positions are all that differs, and positions are told by tokens and errors only.
-/

import Scoresheet.Proofs.Passes
import Scoresheet.Proofs.Requests
import Scoresheet.Proofs.Shift

namespace Scoresheet

variable {moved : Position → Position}

/-! ### Answers that are relocated -/

namespace Lexer

/-- The lexer without its source and its place, and with its token where that is moved to. -/
def relocate (moved : Position → Position) (lexer : Lexer) : Lexer :=
  { lexer with source := .released, start := moved lexer.start, place := .start }

def View.relocate (moved : Position → Position) (view : View) : View :=
  { view with token := view.token.relocate moved }

/-- The answers to the requests, with the tokens where they are moved to. -/
def relocatedAnswers (moved : Position → Position) (requests : List Request) (lexer : Lexer) :
    List (Except Failure Unit × View) :=
  (lexer.answers requests).map fun answer => (answer.1, answer.2.relocate moved)

theorem relocatedAnswers_id (requests : List Request) (lexer : Lexer) :
    lexer.relocatedAnswers id requests = lexer.answers requests :=
  List.map_id' _

end Lexer

theorem ReadError.relocate_id (error : ReadError) : error.relocate id = error := by
  cases error <;> rfl

theorem ReadError.isFatal_relocate (error : ReadError) :
    (error.relocate moved).isFatal = error.isFatal := by
  cases error <;> rfl

theorem ReadError.cause?_relocate (error : ReadError) :
    (error.relocate moved).cause? = error.cause? := by
  cases error <;> rfl

/-- The error of a reading is relocated, and a game is the same. -/
def Reading.relocate (moved : Position → Position) (reading : Reading) : Reading :=
  reading.mapError (ReadError.relocate moved)

namespace Reader

/-- What a search returns, with the error where it is moved to. -/
def relocateResult (moved : Position → Position) (result : Option (Except ReadError Entry)) :
    Option (Except ReadError Entry) :=
  result.map (Except.mapError (ReadError.relocate moved))

def Reply.relocate (moved : Position → Position) : Reply → Reply
  | game result => .game (relocateResult moved result)
  | skipped result => .skipped (result.mapError (ReadError.relocate moved))
  | closed => .closed

theorem Reply.relocate_id (reply : Reply) : reply.relocate id = reply := by
  have mapError_id {Value : Type} (result : Except ReadError Value) :
      result.mapError (ReadError.relocate id) = result := by
    cases result with
    | error error => exact congrArg Except.error error.relocate_id
    | ok => rfl
  cases reply with
  | game result =>
    cases result with
    | none => rfl
    | some result => exact congrArg (fun result => game (some result)) (mapError_id result)
  | skipped result => exact congrArg skipped (mapError_id result)
  | closed => rfl

variable [Hashable HeaderPair]

/-- The answers to the requests, with the errors where they are moved to. -/
def relocatedAnswers (moved : Position → Position) (requests : List Request) (reader : Reader) :
    List (Reply × List ReadError × Nat) :=
  (reader.answers requests).map fun answer =>
    (answer.1.relocate moved, answer.2.1.map (ReadError.relocate moved), answer.2.2)

theorem relocatedAnswers_id (requests : List Request) (reader : Reader) :
    reader.relocatedAnswers id requests = reader.answers requests := by
  have errors (list : List ReadError) : list.map (ReadError.relocate id) = list := by
    rw [funext ReadError.relocate_id, List.map_id']
  unfold relocatedAnswers
  simp only [errors, Reply.relocate_id, List.map_id']

end Reader

/-! ### Lexers -/

namespace Lexer

/-- Related lexers show the same but for where their tokens stand, and neither fails. -/
structure IsEcho (moved : Position → Position) (related : Lexer → Lexer → Prop) : Prop where
  same : ∀ ⦃first second : Lexer⦄, related first second →
    first.relocate moved = second.relocate moved
  advance : ∀ ⦃first second : Lexer⦄, related first second → ∃ firstAfter secondAfter,
    Scan.advance.run first = (.ok (), firstAfter) ∧
      Scan.advance.run second = (.ok (), secondAfter) ∧ related firstAfter secondAfter
  close : ∀ ⦃first second : Lexer⦄, related first second → related first.close second.close

variable {related : Lexer → Lexer → Prop} {first second : Lexer}

theorem IsEcho.kind (echo : IsEcho moved related) (holds : related first second) :
    first.kind = second.kind := by
  have kinds := congrArg Lexer.kind (echo.same holds)
  exact kinds

theorem IsEcho.isExhausted (echo : IsEcho moved related) (holds : related first second) :
    first.isExhausted = second.isExhausted := by
  have ended := congrArg Lexer.isExhausted (echo.same holds)
  exact ended

theorem IsEcho.token (echo : IsEcho moved related) (holds : related first second) :
    first.token.relocate moved = second.token.relocate moved := by
  have tokens := congrArg Lexer.token (echo.same holds)
  exact tokens

theorem IsEcho.view (echo : IsEcho moved related) (holds : related first second) :
    first.view.relocate moved = second.view.relocate moved := by
  have views := congrArg Lexer.view (echo.same holds)
  exact views

theorem IsEcho.skipUntil (echo : IsEcho moved related) (holds : related first second)
    (kind : TokenKind) :
    (first.skipUntil kind).1 = (second.skipUntil kind).1 ∧
      related (first.skipUntil kind).2 (second.skipUntil kind).2 := by
  have kinds := echo.kind holds
  have ends := echo.isExhausted holds
  induction size : first.source.content.length using Nat.strongRecOn generalizing first second with
  | ind size inductionHypothesis =>
    by_cases stopped : first.kind = kind ∨ first.isExhausted = true
    · rw [skipUntil_of_stopped stopped, skipUntil_of_stopped (by rwa [← kinds, ← ends])]
      exact ⟨rfl, holds⟩
    · obtain ⟨firstAfter, secondAfter, success, success', later⟩ := echo.advance holds
      have endsLater := echo.isExhausted later
      rw [skipUntil_of_advance stopped success,
        skipUntil_of_advance (by rwa [← kinds, ← ends]) success']
      cases last : firstAfter.isExhausted with
      | true =>
        rw [skipUntil_of_stopped (.inr last), skipUntil_of_stopped (.inr (endsLater ▸ last))]
        exact ⟨rfl, later⟩
      | false =>
        have shorter := content_lt_of_advance success last
        exact inductionHypothesis _ (size ▸ shorter) later (echo.kind later) endsLater rfl

theorem IsEcho.answer (echo : IsEcho moved related) (holds : related first second)
    (request : Request) :
    (first.answer request).1 = (second.answer request).1 ∧
      related (first.answer request).2 (second.answer request).2 := by
  cases request with
  | advance =>
    obtain ⟨firstAfter, secondAfter, success, success', later⟩ := echo.advance holds
    show (Scan.advance.run first).1 = (Scan.advance.run second).1 ∧
      related (Scan.advance.run first).2 (Scan.advance.run second).2
    rw [success, success']
    exact ⟨rfl, later⟩
  | skipUntil kind => exact echo.skipUntil holds kind
  | close => exact ⟨rfl, echo.close holds⟩

theorem IsEcho.answers (echo : IsEcho moved related) (holds : related first second)
    (requests : List Request) :
    first.relocatedAnswers moved requests = second.relocatedAnswers moved requests := by
  induction requests generalizing first second with
  | nil => rfl
  | cons request rest inductionHypothesis =>
    obtain ⟨results, later⟩ := echo.answer holds request
    have behind := inductionHypothesis later
    unfold relocatedAnswers at behind ⊢
    simp only [Lexer.answers, List.map_cons]
    rw [results, echo.view later, behind]

end Lexer

/-! ### Readers -/

namespace Draft

variable {related : Lexer → Lexer → Prop} {first second : Lexer}

theorem recorded?_relocate (draft : Draft) (token : Token) :
    draft.recorded? (token.relocate moved) = draft.recorded? token := by
  unfold recorded?
  split
  · next phase _ => cases phase <;> rfl
  · rfl

theorem conclude_relocate (config : Config) (draft : Draft) (position : Position) :
    (draft.conclude config position).relocate moved =
      draft.conclude config (moved position) := by
  unfold conclude
  split <;> rfl

variable [Hashable HeaderPair]

/-- Reading on leads to the same from related lexers, but for the position of an error. -/
theorem readOn_echo (echo : Lexer.IsEcho moved related) (holds : related first second)
    (config : Config) (draft : Draft) (allocations : List Nat) (interner : Interner) :
    (draft.readOn config allocations interner first).1.relocate moved =
        (draft.readOn config allocations interner second).1.relocate moved ∧
      (draft.readOn config allocations interner first).2.1 =
        (draft.readOn config allocations interner second).2.1 ∧
      related (draft.readOn config allocations interner first).2.2
        (draft.readOn config allocations interner second).2.2 := by
  induction size : first.source.content.length using Nat.strongRecOn
    generalizing draft allocations interner first second with
  | ind size inductionHypothesis =>
    obtain ⟨firstAfter, secondAfter, success, success', later⟩ := echo.advance holds
    have tokens := echo.token later
    have recorded : draft.recorded? firstAfter.token = draft.recorded? secondAfter.token := by
      rw [← @recorded?_relocate moved, tokens, recorded?_relocate]
    have accepted := @accept_relocate moved config draft firstAfter.token
    rw [tokens, accept_relocate] at accepted
    rw [readOn_of_advance success, readOn_of_advance success', recorded, echo.isExhausted later]
    dsimp only
    split
    · refine ⟨?_, rfl, later⟩
      have starts : moved firstAfter.start = moved secondAfter.start :=
        congrArg Token.position tokens
      rw [conclude_relocate, conclude_relocate, starts]
    · next more =>
      rw [← echo.isExhausted later] at more
      have shorter := Lexer.content_lt_of_advance success (Bool.eq_false_iff.mpr more)
      cases told : draft.accept config firstAfter.token with
      | error error =>
        cases told' : draft.accept config secondAfter.token with
        | error error' =>
          rw [told, told'] at accepted
          exact ⟨congrArg Except.error (Except.error.inj accepted).symm, rfl, later⟩
        | ok step =>
          rw [told, told'] at accepted
          cases accepted
      | ok step =>
        cases told' : draft.accept config secondAfter.token with
        | error error =>
          rw [told, told'] at accepted
          cases accepted
        | ok step' =>
          rw [told, told'] at accepted
          cases accepted
          cases step with
          | onward next => exact inductionHypothesis _ (size ▸ shorter) later _ _ _ rfl
          | finished game => exact ⟨rfl, rfl, later⟩

end Draft

namespace Reader

/-- Readers over related lexers, in the same state but for the positions of errors. -/
structure Echoes (moved : Position → Position) (related : Lexer → Lexer → Prop)
    (first second : Reader) : Prop where
  lexer : related first.lexer second.lexer
  errors : first.errors.map (ReadError.relocate moved) =
    second.errors.map (ReadError.relocate moved)
  state : { second with lexer := first.lexer, errors := first.errors } = first

variable {related : Lexer → Lexer → Prop} {first second : Reader}

theorem Echoes.config (echoes : Echoes moved related first second) :
    first.config = second.config := by
  rw [← echoes.state]

theorem Echoes.interner (echoes : Echoes moved related first second) :
    first.interner = second.interner := by
  rw [← echoes.state]

theorem Echoes.gamesRead (echoes : Echoes moved related first second) :
    first.gamesRead = second.gamesRead := by
  rw [← echoes.state]

theorem Echoes.isDone (echoes : Echoes moved related first second) :
    first.isDone = second.isDone := by
  rw [← echoes.state]

theorem Echoes.atLimit (echoes : Echoes moved related first second) :
    first.atLimit = second.atLimit := by
  rw [← echoes.state]
  rfl

theorem Echoes.finish (echoes : Echoes moved related first second) :
    Echoes moved related { first with isDone := true } { second with isDone := true } :=
  ⟨echoes.lexer, echoes.errors,
    congrArg (fun reader : Reader => { reader with isDone := true }) echoes.state⟩

theorem Echoes.settle {reading reading' : Reading} (echoes : Echoes moved related first second)
    (echo : Lexer.IsEcho moved related)
    (same : reading.relocate moved = reading'.relocate moved) :
    (first.settle reading).1.map (relocateResult moved) =
        (second.settle reading').1.map (relocateResult moved) ∧
      Echoes moved related (first.settle reading).2 (second.settle reading').2 := by
  obtain ⟨lexer, config, interner, errors, gamesRead, isDone⟩ := second
  obtain ⟨lexer', config', interner', errors', gamesRead', isDone'⟩ := first
  obtain ⟨lexers, recorded, state⟩ := echoes
  simp only [mk.injEq, true_and] at state
  obtain ⟨rfl, rfl, rfl, rfl⟩ := state
  dsimp only at lexers recorded
  cases reading with
  | ok found =>
    cases reading' with
    | error error => cases same
    | ok found' =>
      obtain rfl := Except.ok.inj same
      cases found with
      | some entry => exact ⟨rfl, lexers, recorded, rfl⟩
      | none => exact ⟨rfl, lexers, recorded, rfl⟩
  | error error =>
    cases reading' with
    | ok found' => cases same
    | error error' =>
      have same := Except.error.inj same
      have fatal : error.isFatal = error'.isFatal := by
        rw [← @ReadError.isFatal_relocate moved, same, ReadError.isFatal_relocate]
      have cause : error.cause? = error'.cause? := by
        rw [← @ReadError.cause?_relocate moved, same, ReadError.cause?_relocate]
      have errors : (errors' ++ [error]).map (ReadError.relocate moved) =
          (errors ++ [error']).map (ReadError.relocate moved) := by
        rw [List.map_append, List.map_append, recorded, List.map_singleton, List.map_singleton,
          same]
      unfold Reader.settle
      dsimp only
      rw [cause, fatal]
      split
      · exact ⟨congrArg (fun error => some (some (Except.error error))) same, lexers, recorded,
          rfl⟩
      · split
        · exact ⟨rfl, lexers, errors, rfl⟩
        · obtain ⟨ends, last⟩ := echo.skipUntil lexers .termination
          cases skipped : lexer'.skipUntil .termination with
          | mk result after =>
            cases skipped' : lexer.skipUntil .termination with
            | mk result' after' =>
              rw [skipped, skipped'] at ends last
              cases ends
              cases result <;> exact ⟨rfl, last, errors, rfl⟩

theorem Echoes.skipGame (echoes : Echoes moved related first second)
    (echo : Lexer.IsEcho moved related) :
    first.skipGame.1 = second.skipGame.1 ∧
      Echoes moved related first.skipGame.2 second.skipGame.2 := by
  obtain ⟨lexer, config, interner, errors, gamesRead, isDone⟩ := second
  obtain ⟨lexer', config', interner', errors', gamesRead', isDone'⟩ := first
  obtain ⟨lexers, recorded, state⟩ := echoes
  simp only [mk.injEq, true_and] at state
  obtain ⟨rfl, rfl, rfl, rfl⟩ := state
  obtain ⟨after', after, success, success', later⟩ := echo.advance lexers
  dsimp only at lexers success success' recorded
  unfold Reader.skipGame
  split
  · exact ⟨rfl, lexers, recorded, rfl⟩
  · simp only [success, success', ← echo.isExhausted later]
    split
    · exact ⟨rfl, later, recorded, rfl⟩
    · obtain ⟨ends, last⟩ := echo.skipUntil later .termination
      cases skipped : after'.skipUntil .termination with
      | mk result final' =>
        cases skipped' : after.skipUntil .termination with
        | mk result' final =>
          rw [skipped, skipped'] at ends last
          cases ends
          cases result with
          | error failure => exact ⟨rfl, last, recorded, rfl⟩
          | ok =>
            refine ⟨?_, last, recorded, rfl⟩
            show Except.ok (decide (final'.kind = .termination)) =
              Except.ok (decide (final.kind = .termination))
            rw [echo.kind last]

theorem Echoes.close (echoes : Echoes moved related first second)
    (echo : Lexer.IsEcho moved related) : Echoes moved related first.close second.close where
  lexer := echo.close echoes.lexer
  errors := echoes.errors
  state := congrArg (fun reader : Reader =>
    { reader with lexer := first.lexer.close, isDone := true }) echoes.state

variable [Hashable HeaderPair]

theorem Echoes.pass (echoes : Echoes moved related first second)
    (echo : Lexer.IsEcho moved related) :
    first.pass.1.map (relocateResult moved) = second.pass.1.map (relocateResult moved) ∧
      Echoes moved related first.pass.2 second.pass.2 := by
  obtain ⟨results, interners, later⟩ :=
    Draft.readOn_echo echo echoes.lexer first.config .start [] first.interner
  unfold Reader.pass Draft.read
  have configs : second.config = first.config := echoes.config.symm
  have interner : second.interner = first.interner := echoes.interner.symm
  dsimp only
  rw [configs, interner, ← interners]
  refine Echoes.settle ⟨later, echoes.errors, ?_⟩ echo results
  rw [← echoes.state]

theorem Echoes.next (echoes : Echoes moved related first second)
    (echo : Lexer.IsEcho moved related) :
    relocateResult moved first.next.1 = relocateResult moved second.next.1 ∧
      Echoes moved related first.next.2 second.next.2 := by
  induction size : first.lexer.source.content.length using Nat.strongRecOn
    generalizing first second with
  | ind size inductionHypothesis =>
    cases done : first.isDone with
    | true =>
      rw [next_of_isDone done, next_of_isDone (echoes.isDone ▸ done)]
      exact ⟨rfl, echoes⟩
    | false =>
      have more : second.isDone = false := echoes.isDone ▸ done
      cases limit : first.atLimit with
      | true =>
        rw [next_of_atLimit done limit, next_of_atLimit more (echoes.atLimit ▸ limit)]
        exact ⟨rfl, echoes.finish⟩
      | false =>
        rw [next_of_pass done limit, next_of_pass more (echoes.atLimit ▸ limit)]
        obtain ⟨results, later⟩ := echoes.pass echo
        cases passed : first.pass with
        | mk result after =>
          cases passed' : second.pass with
          | mk result' after' =>
            rw [passed, passed'] at results later
            cases result with
            | some result =>
              cases result' with
              | some result' => exact ⟨Option.some.inj results, later⟩
              | none => cases results
            | none =>
              cases result' with
              | some result' => cases results
              | none => exact inductionHypothesis _ (size ▸ content_lt_of_pass passed) later rfl

theorem Echoes.answer (echoes : Echoes moved related first second)
    (echo : Lexer.IsEcho moved related) (request : Request) :
    (first.answer request).1.relocate moved = (second.answer request).1.relocate moved ∧
      Echoes moved related (first.answer request).2 (second.answer request).2 := by
  cases request with
  | next => exact ⟨congrArg Reply.game (echoes.next echo).1, (echoes.next echo).2⟩
  | skipGame =>
    have results := (echoes.skipGame echo).1
    exact ⟨congrArg (fun result => (Reply.skipped result).relocate moved) results,
      (echoes.skipGame echo).2⟩
  | close => exact ⟨rfl, echoes.close echo⟩

theorem Echoes.answers (echoes : Echoes moved related first second)
    (echo : Lexer.IsEcho moved related) (requests : List Request) :
    first.relocatedAnswers moved requests = second.relocatedAnswers moved requests := by
  induction requests generalizing first second with
  | nil => rfl
  | cons request rest inductionHypothesis =>
    obtain ⟨replies, later⟩ := echoes.answer echo request
    have behind := inductionHypothesis later
    unfold relocatedAnswers at behind ⊢
    simp only [Reader.answers, List.map_cons]
    rw [replies, later.errors, later.gamesRead, behind]

end Reader

/-! ### Forgetting positions -/

/-- Everything is at the beginning. -/
def Position.origin (_position : Position) : Position := Place.start.position

/-- The lexer without its source and without where it stands. -/
abbrev Lexer.unplaced (lexer : Lexer) : Lexer := lexer.relocate Position.origin

/-- The answers to the requests, but for where the tokens stand. -/
abbrev Lexer.unplacedAnswers (requests : List Lexer.Request) (lexer : Lexer) :
    List (Except Failure Unit × Lexer.View) :=
  lexer.relocatedAnswers Position.origin requests

/-- The answers to the requests, but for the positions of errors. -/
abbrev Reader.unplacedAnswers [Hashable HeaderPair] (requests : List Reader.Request)
    (reader : Reader) : List (Reader.Reply × List ReadError × Nat) :=
  reader.relocatedAnswers Position.origin requests

end Scoresheet
