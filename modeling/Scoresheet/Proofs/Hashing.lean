/-
This file reads games with any hash of header pairs, and puts into a game the pairs that were handed
back when its headers were interned. Whatever the hash is and whatever has been interned before,
what is handed back for a pair is an equal pair. So a game has the headers that were read, and
interning shows in nothing but the allocations.
-/

import Scoresheet.Proofs.Requests

namespace Scoresheet

/-! ### Interning under any hash -/

/-- What is held in a slot is handed back only if it is the pair that was asked for. -/
theorem Cache.pair_reuse (slot : Nat) (pair : HeaderPair) (cache : Cache) :
    (cache.reuse slot pair).1.pair = pair := by
  unfold reuse
  dsimp only
  split
  · rfl
  · split
    · next same => exact same
    · rfl

theorem Cache.pair_internAt (hash : UInt64) (pair : HeaderPair) (cache : Cache) :
    (cache.internAt hash pair).1.pair = pair := by
  unfold internAt
  split
  · rfl
  · split
    · exact pair_reuse _ pair cache
    · dsimp only
      split <;> rfl

namespace Interner

variable (hash : HeaderPair → UInt64)

/-- Interns a pair under the hash that a function gives it. -/
def internBy (pair : HeaderPair) : Interner → SharedPair × Interner
  | uncached allocated => (⟨pair, allocated⟩, .uncached (allocated + 1))
  | cached cache =>
    let (shared, cache) := cache.internAt (hash pair) pair
    (shared, .cached cache)

/-- Interns the pair that has become known, if there is one, and notes what is handed back. -/
def noteBy (pair : Option HeaderPair) (shared : List SharedPair) (interner : Interner) :
    List SharedPair × Interner :=
  match pair with
  | none => (shared, interner)
  | some pair =>
    let (handed, interner) := interner.internBy hash pair
    (handed :: shared, interner)

theorem pair_internBy (pair : HeaderPair) (interner : Interner) :
    (interner.internBy hash pair).1.pair = pair := by
  cases interner with
  | uncached allocated => rfl
  | cached cache => exact cache.pair_internAt (hash pair) pair

theorem pairs_noteBy (pair : Option HeaderPair) (shared : List SharedPair) (interner : Interner) :
    (interner.noteBy hash pair shared).1.map SharedPair.pair =
      pair.toList ++ shared.map SharedPair.pair := by
  cases pair with
  | none => rfl
  | some pair => exact congrArg (· :: shared.map SharedPair.pair) (interner.pair_internBy hash pair)

variable [Hashable HeaderPair]

theorem internBy_hash (pair : HeaderPair) (interner : Interner) :
    interner.internBy Hashable.hash pair = interner.intern pair := by
  cases interner <;> rfl

theorem noteBy_hash (pair : Option HeaderPair) (shared : List SharedPair) (interner : Interner) :
    interner.note pair (shared.map SharedPair.allocation) =
      ((interner.noteBy Hashable.hash pair shared).1.map SharedPair.allocation,
        (interner.noteBy Hashable.hash pair shared).2) := by
  cases pair with
  | none => rfl
  | some pair =>
    unfold note noteBy
    dsimp only
    rw [internBy_hash]
    rfl

end Interner

/-! ### Games with the pairs that were handed back -/

/-- The game with the given pairs for its headers, if it has any. -/
def Entry.ofShared (shared : List SharedPair) (game : Game) : Entry where
  game := { game with headers := game.headers.map fun _ => shared.map SharedPair.pair }
  allocations := shared.map SharedPair.allocation

/-- The settings without those of the cache. -/
def Config.uncached (config : Config) : Config := { config with headerCache := none }

namespace Draft

/-- Reads on, and notes what is handed back for each header pair, latest first. -/
def readOnBy (hash : HeaderPair → UInt64) (config : Config) (draft : Draft)
    (shared : List SharedPair) (interner : Interner) (lexer : Lexer) :
    Reading × Interner × Lexer :=
  match _ : Scan.advance.run lexer with
  | (.error failure, after) => (.error (.sourceFailed failure), interner, after)
  | (.ok (), after) =>
    let noted := interner.noteBy hash (draft.recorded? after.token) shared
    if _ : after.isExhausted then (draft.conclude config after.start, noted.2, after)
    else
      match draft.accept config after.token with
      | .error error => (.error error, noted.2, after)
      | .ok (.finished game) => (.ok (some (.ofShared noted.1.reverse game)), noted.2, after)
      | .ok (.onward draft) => readOnBy hash config draft noted.1 noted.2 after
termination_by lexer.source.content.length
decreasing_by
  exact Lexer.content_lt_of_advance ‹_› (Bool.eq_false_iff.mpr ‹_›)

def readBy (hash : HeaderPair → UInt64) (config : Config) (interner : Interner) (lexer : Lexer) :
    Reading × Interner × Lexer :=
  start.readOnBy hash config [] interner lexer

/-- What was handed back so far are the header pairs of the draft. No headers come before the header
section, and within a pair there are no comments. -/
structure Holds (draft : Draft) (shared : List SharedPair) : Prop where
  headers : draft.headers.getD [] = shared.map SharedPair.pair
  front : draft.stage = .start ∨ draft.stage = .preface → draft.headers = none
  outside : draft.commentPhase ≠ .idle → draft.takesComments = true

theorem holds_start : start.Holds [] := ⟨rfl, fun _ => rfl, fun comment => absurd rfl comment⟩

/-- Behind the header section the headers are kept, up to the game. -/
def Step.KeepsHeaders (draft : Draft) : Step → Prop
  | .onward later => later.headers = draft.headers ∧ later.commentPhase = draft.commentPhase ∧
      ¬ (later.stage = .start ∨ later.stage = .preface)
  | .finished game => game.headers = draft.headers.map List.reverse

section Steps

variable {config : Config} {draft : Draft} {token : Token} {step : Step}

theorem keepsHeaders_of_finish {line : Line} (accepted : draft.finish line token = .ok step) :
    step.KeepsHeaders draft := by
  unfold finish at accepted
  split at accepted
  · cases accepted
    rfl
  · cases accepted

theorem keepsHeaders_of_acceptLeftOut (accepted : draft.acceptLeftOut token = .ok step) :
    step.KeepsHeaders draft := by
  unfold acceptLeftOut at accepted
  split at accepted
  · exact keepsHeaders_of_finish accepted
  · cases accepted
    exact ⟨rfl, rfl, by simp⟩

theorem keepsHeaders_of_acceptMoves {moves : MovesDraft}
    (accepted : draft.acceptMoves config moves token = .ok step) : step.KeepsHeaders draft := by
  unfold acceptMoves at accepted
  split at accepted
  · cases accepted
  · cases accepted
    exact ⟨rfl, rfl, by simp⟩
  · exact keepsHeaders_of_finish accepted

theorem keepsHeaders_of_acceptOpening (accepted : draft.acceptOpening config token = .ok step) :
    step.KeepsHeaders draft := by
  unfold acceptOpening at accepted
  split at accepted
  · exact keepsHeaders_of_acceptLeftOut accepted
  · exact keepsHeaders_of_acceptMoves accepted

/-- What is known of a draft from the one before, or of the game it became: the pair that has become
known is one more header, and the game has all of them. -/
def Step.Records (draft : Draft) (token : Token) : Step → Prop
  | .onward later =>
    later.headers.getD [] = (draft.recorded? token).toList ++ draft.headers.getD [] ∧
      (later.stage = .start ∨ later.stage = .preface → later.headers = none) ∧
      (later.commentPhase ≠ .idle → later.takesComments = true)
  | .finished game =>
    draft.recorded? token = none ∧ game.headers = draft.headers.map List.reverse

theorem Step.KeepsHeaders.records (keeps : step.KeepsHeaders draft)
    (none : draft.recorded? token = none) (idle : draft.commentPhase = .idle) :
    step.Records draft token := by
  cases step with
  | onward later =>
    obtain ⟨headers, phase, behind⟩ := keeps
    refine ⟨by rw [headers, none]; rfl, fun front => absurd front behind, fun comment => ?_⟩
    rw [phase, idle] at comment
    exact absurd rfl comment
  | finished game => exact ⟨none, keeps⟩

theorem records_of_acceptPreface (none : draft.recorded? token = none)
    (idle : draft.commentPhase = .idle) (before : draft.headers = .none)
    (accepted : draft.acceptPreface config token = .ok step) : step.Records draft token := by
  unfold acceptPreface at accepted
  split at accepted
  · split at accepted
    · cases accepted
      exact ⟨by rw [none]; rfl, by simp, fun comment => absurd idle comment⟩
    · cases accepted
      exact ⟨by rw [none, before]; rfl, by simp, fun comment => absurd idle comment⟩
  · exact (keepsHeaders_of_acceptOpening accepted).records none idle

theorem records_of_acceptHeader {phase : HeaderPhase} (stage : draft.stage = .header phase)
    (idle : draft.commentPhase = .idle)
    (accepted : draft.acceptHeader config phase token = .ok step) : step.Records draft token := by
  unfold acceptHeader at accepted
  split at accepted
  · cases accepted
  · cases accepted
    refine ⟨?_, by simp, fun comment => absurd idle comment⟩
    rw [recorded?, stage]
    rfl

/-- No pair becomes known outside header pairs. -/
theorem recorded?_of_other (other : ∀ phase, draft.stage = .header phase → phase = .complete) :
    draft.recorded? token = none := by
  unfold recorded?
  split
  · next phase stage =>
    rw [other phase stage]
    rfl
  · rfl

theorem records_of_acceptStage (idle : draft.commentPhase = .idle)
    (front : draft.stage = .start ∨ draft.stage = .preface → draft.headers = none)
    (accepted : draft.acceptStage config token = .ok step) : step.Records draft token := by
  unfold acceptStage at accepted
  split at accepted
  · next stage =>
    have none : draft.recorded? token = none := recorded?_of_other (by simp [stage])
    split at accepted
    · exact records_of_acceptPreface none idle (front (.inl stage)) accepted
    · cases accepted
  · next stage =>
    have none : draft.recorded? token = none := recorded?_of_other (by simp [stage])
    exact records_of_acceptPreface none idle (front (.inr stage)) accepted
  · next phase stage =>
    split at accepted
    · next behind =>
      have none : draft.recorded? token = none := recorded?_of_other (by simp [stage, behind.1])
      exact (keepsHeaders_of_acceptOpening accepted).records none idle
    · exact records_of_acceptHeader stage idle accepted
  · next stage =>
    have none : draft.recorded? token = none := recorded?_of_other (by simp [stage])
    split at accepted
    · cases accepted
      exact ⟨by rw [none]; rfl, front, fun comment => absurd idle comment⟩
    · exact (keepsHeaders_of_acceptOpening accepted).records none idle
  · next stage =>
    exact (keepsHeaders_of_acceptOpening accepted).records (recorded?_of_other (by simp [stage]))
      idle
  · next moves stage =>
    exact (keepsHeaders_of_acceptMoves accepted).records (recorded?_of_other (by simp [stage]))
      idle
  · next stage =>
    exact (keepsHeaders_of_acceptLeftOut accepted).records (recorded?_of_other (by simp [stage]))
      idle

theorem records_of_accept {shared : List SharedPair} (holds : draft.Holds shared)
    (accepted : draft.accept config token = .ok step) : step.Records draft token := by
  have none (takes : draft.takesComments = true) : draft.recorded? token = none := by
    refine recorded?_of_other fun phase stage => ?_
    rw [takesComments, stage] at takes
    exact of_decide_eq_true takes
  have still {phase : CommentPhase} (takes : draft.takesComments = true) :
      Step.Records draft token (.onward { draft with commentPhase := phase }) :=
    ⟨by rw [none takes]; rfl, holds.front, fun _ => takes⟩
  have added {phase : CommentPhase} (text : Bytes) (takes : draft.takesComments = true)
      (idle : phase = .idle) : Step.Records draft token
        (.onward { draft.addComment config text with commentPhase := phase }) := by
    have front := holds.front
    refine ⟨?_, ?_, fun comment => absurd idle comment⟩
    · rw [none takes]
      unfold addComment
      split <;> rfl
    · obtain ⟨headers, comment, commentPhase, stage⟩ := draft
      cases stage with
      | start => exact fun _ => front (.inl rfl)
      | preface => exact fun _ => front (.inr rfl)
      | _ => simp [addComment]
  unfold accept at accepted
  split at accepted
  · next idle =>
    split at accepted
    · next brace =>
      cases accepted
      exact still brace.2
    · split at accepted
      · next line =>
        cases accepted
        have phase : (draft.addComment config token.text).commentPhase = .idle := by
          unfold addComment
          split <;> exact idle
        have behind := added token.text line.2 phase
        exact behind
      · exact records_of_acceptStage idle holds.front accepted
  · next comment =>
    have takes := holds.outside (by rw [comment]; nofun)
    split at accepted
    · cases accepted
      exact added [] takes rfl
    · split at accepted
      · cases accepted
        exact still takes
      · cases accepted
  · next text comment =>
    have takes := holds.outside (by rw [comment]; nofun)
    split at accepted
    · cases accepted
      exact added text takes rfl
    · cases accepted

/-- What is handed back for each header pair stays with the draft. -/
theorem Holds.accept {shared : List SharedPair} {later : Draft} (holds : draft.Holds shared)
    (hash : HeaderPair → UInt64) (interner : Interner)
    (accepted : draft.accept config token = .ok (.onward later)) :
    later.Holds (interner.noteBy hash (draft.recorded? token) shared).1 := by
  obtain ⟨headers, front, outside⟩ := records_of_accept holds accepted
  exact ⟨by rw [headers, interner.pairs_noteBy, holds.headers], front, outside⟩

/-- The game that is finished has the headers that were handed back. -/
theorem Holds.ofShared {shared : List SharedPair} {game : Game} (holds : draft.Holds shared)
    (hash : HeaderPair → UInt64) (interner : Interner)
    (accepted : draft.accept config token = .ok (.finished game)) :
    Entry.ofShared (interner.noteBy hash (draft.recorded? token) shared).1.reverse game =
      ⟨game, ((interner.noteBy hash (draft.recorded? token) shared).1.map
        SharedPair.allocation).reverse⟩ := by
  obtain ⟨none, headers⟩ := records_of_accept holds accepted
  have handed : (interner.noteBy hash (draft.recorded? token) shared).1 = shared := by
    rw [none]
    rfl
  rw [handed]
  have same : game.headers.map (fun _ => shared.reverse.map SharedPair.pair) = game.headers := by
    have held := holds.headers
    rw [headers]
    cases found : draft.headers with
    | none => rfl
    | some pairs =>
      rw [found, Option.getD_some] at held
      rw [held, Option.map_some, Option.map_some, List.map_reverse]
  unfold Entry.ofShared
  rw [same, List.map_reverse]

end Steps

section Reading

variable {config : Config} {hash : HeaderPair → UInt64} {draft : Draft} {shared : List SharedPair}
  {interner : Interner} {lexer : Lexer}

/-- The settings of the cache have no part in assembling a game. -/
theorem accept_uncached (draft : Draft) (token : Token) :
    draft.accept config.uncached token = draft.accept config token := rfl

variable [Hashable HeaderPair]

/-- With the hash of the cache, reading hands back what it notes. -/
theorem readOnBy_hash (holds : draft.Holds shared) :
    draft.readOnBy Hashable.hash config shared interner lexer =
      draft.readOn config (shared.map SharedPair.allocation) interner lexer := by
  fun_induction readOnBy Hashable.hash config draft shared interner lexer with
  | case1 draft shared interner lexer failure after failed => rw [readOn_of_failed failed]
  | case2 draft shared interner lexer after success noted last =>
    rw [readOn_of_last success last, Interner.noteBy_hash]
  | case3 draft shared interner lexer after success noted more error refused =>
    rw [readOn_of_token success (Bool.eq_false_iff.mpr more), refused, Interner.noteBy_hash]
  | case4 draft shared interner lexer after success noted more game finished =>
    rw [readOn_of_token success (Bool.eq_false_iff.mpr more), finished, Interner.noteBy_hash]
    dsimp only
    rw [holds.ofShared Hashable.hash interner finished]
  | case5 draft shared interner lexer after success noted more next onward inductionHypothesis =>
    rw [readOn_of_token success (Bool.eq_false_iff.mpr more), onward, Interner.noteBy_hash]
    exact inductionHypothesis (holds.accept Hashable.hash interner onward)

/-- Interning shows in nothing but allocations: with any hash, whatever was interned before, reading
comes to the same game or error and leads to the same place as without a cache. -/
theorem readOnBy_game (holds : draft.Holds shared) (allocations : List Nat) (other : Interner) :
    (draft.readOnBy hash config shared interner lexer).1.map (Option.map Entry.game) =
        (draft.readOn config.uncached allocations other lexer).1.map (Option.map Entry.game) ∧
      (draft.readOnBy hash config shared interner lexer).2.2 =
        (draft.readOn config.uncached allocations other lexer).2.2 := by
  fun_induction readOnBy hash config draft shared interner lexer
    generalizing allocations other with
  | case1 draft shared interner lexer failure after failed =>
    rw [readOn_of_failed failed]
    exact ⟨rfl, rfl⟩
  | case2 draft shared interner lexer after success noted last =>
    rw [readOn_of_last success last]
    exact ⟨rfl, rfl⟩
  | case3 draft shared interner lexer after success noted more error refused =>
    rw [readOn_of_token success (Bool.eq_false_iff.mpr more), accept_uncached, refused]
    exact ⟨rfl, rfl⟩
  | case4 draft shared interner lexer after success noted more game finished =>
    rw [readOn_of_token success (Bool.eq_false_iff.mpr more), accept_uncached, finished,
      holds.ofShared hash interner finished]
    exact ⟨rfl, rfl⟩
  | case5 draft shared interner lexer after success noted more next onward inductionHypothesis =>
    rw [readOn_of_token success (Bool.eq_false_iff.mpr more), accept_uncached, onward]
    exact inductionHypothesis (holds.accept hash interner onward) _ _

end Reading

end Draft

end Scoresheet
