/-
This file follows what readers around one cache intern. The pairs that a reader interns depend on
what it reads and not on any cache, so a circle of readers interns the same sequence of pairs
whatever its cache holds, and the cache goes through that sequence as if the pairs had been interned
directly. What the readers hand out are pieces of what the cache handed back. So the distance of
reuse decides what is shared between games, between readers and with whoever interns directly.
-/

import Scoresheet.Cache.PairHash
import Scoresheet.Proofs.Cutting
import Scoresheet.Proofs.Reuse
import Scoresheet.Proofs.Sharing

namespace Scoresheet

namespace Cache

theorem internAll_append (hash : HeaderPair → UInt64) (pairs more : List HeaderPair)
    (cache : Cache) :
    cache.internAll hash (pairs ++ more) =
      ((cache.internAll hash pairs).1 ++ ((cache.internAll hash pairs).2.internAll hash more).1,
        ((cache.internAll hash pairs).2.internAll hash more).2) := by
  induction pairs generalizing cache with
  | nil => rfl
  | cons pair rest inductionHypothesis =>
    exact congrArg (fun later => ((cache.internAt (hash pair) pair).1 :: later.1, later.2))
      (inductionHypothesis _)

theorem pairs_internAll (hash : HeaderPair → UInt64) (pairs : List HeaderPair) (cache : Cache) :
    (cache.internAll hash pairs).1.map SharedPair.pair = pairs := by
  induction pairs generalizing cache with
  | nil => rfl
  | cons pair rest inductionHypothesis =>
    exact congrArg₂ List.cons (pair_internAt (hash pair) pair cache) (inductionHypothesis _)

end Cache

namespace Interner

variable (hash : HeaderPair → UInt64)

/-- Interns pairs in turn. -/
def internAllBy : List HeaderPair → Interner → List SharedPair × Interner
  | [], interner => ([], interner)
  | pair :: rest, interner =>
    let (shared, interner) := interner.internBy hash pair
    let (others, interner) := internAllBy rest interner
    (shared :: others, interner)

theorem internAllBy_append (pairs more : List HeaderPair) (interner : Interner) :
    interner.internAllBy hash (pairs ++ more) =
      ((interner.internAllBy hash pairs).1 ++
          ((interner.internAllBy hash pairs).2.internAllBy hash more).1,
        ((interner.internAllBy hash pairs).2.internAllBy hash more).2) := by
  induction pairs generalizing interner with
  | nil => rfl
  | cons pair rest inductionHypothesis =>
    exact congrArg (fun later => ((interner.internBy hash pair).1 :: later.1, later.2))
      (inductionHypothesis _)

/-- With a cache, the cache goes through the pairs. -/
theorem internAllBy_cached (pairs : List HeaderPair) (cache : Cache) :
    (Interner.cached cache).internAllBy hash pairs =
      ((cache.internAll hash pairs).1, .cached (cache.internAll hash pairs).2) := by
  induction pairs generalizing cache with
  | nil => rfl
  | cons pair rest inductionHypothesis =>
    exact congrArg (fun later => ((cache.internAt (hash pair) pair).1 :: later.1, later.2))
      (inductionHypothesis _)

theorem noteBy_eq (pair : Option HeaderPair) (shared : List SharedPair) (interner : Interner) :
    interner.noteBy hash pair shared =
      ((interner.internAllBy hash pair.toList).1.reverse ++ shared,
        (interner.internAllBy hash pair.toList).2) := by
  cases pair <;> rfl

end Interner

/-- The header pairs of a game are these. -/
structure Entry.Shows (shared : List SharedPair) (entry : Entry) : Prop where
  headers : entry.game.headers.getD [] = shared.map SharedPair.pair
  allocations : entry.allocations = shared.map SharedPair.allocation

/-! ### The pairs of one game -/

namespace Draft

/-- The header pairs that are interned while the game is read on. -/
def pairsOn (config : Config) (draft : Draft) (lexer : Lexer) : List HeaderPair :=
  match _ : Scan.advance.run lexer with
  | (.error _, _) => []
  | (.ok (), after) =>
    let known := (draft.recorded? after.token).toList
    if _ : after.isExhausted then known
    else
      match draft.accept config after.token with
      | .error _ => known
      | .ok (.finished _) => known
      | .ok (.onward draft) => known ++ pairsOn config draft after
termination_by lexer.source.content.length
decreasing_by
  exact Lexer.content_lt_of_advance ‹_› (Bool.eq_false_iff.mpr ‹_›)

section Reading

variable {config : Config} {hash : HeaderPair → UInt64} {draft : Draft} {shared : List SharedPair}
  {interner : Interner} {lexer : Lexer}

theorem pairsOn_of_failed {failure : Failure} {after : Lexer}
    (failed : Scan.advance.run lexer = (.error failure, after)) :
    draft.pairsOn config lexer = [] := by
  rw [pairsOn]
  split
  · rfl
  · next success =>
    rw [failed] at success
    cases success

theorem pairsOn_of_advance {after : Lexer} (success : Scan.advance.run lexer = (.ok (), after)) :
    draft.pairsOn config lexer =
      (let known := (draft.recorded? after.token).toList
      if after.isExhausted then known
      else
        match draft.accept config after.token with
        | .error _ => known
        | .ok (.finished _) => known
        | .ok (.onward draft) => known ++ draft.pairsOn config after) := by
  conv => lhs; rw [pairsOn]
  split
  · next failed =>
    rw [success] at failed
    cases failed
  · next found again =>
    rw [success] at again
    cases again
    rfl

theorem pairsOn_of_last {after : Lexer} (success : Scan.advance.run lexer = (.ok (), after))
    (last : after.isExhausted = true) :
    draft.pairsOn config lexer = (draft.recorded? after.token).toList := by
  rw [pairsOn_of_advance success]
  exact if_pos last

theorem pairsOn_of_token {after : Lexer} (success : Scan.advance.run lexer = (.ok (), after))
    (more : ¬ after.isExhausted = true) :
    draft.pairsOn config lexer =
      (draft.recorded? after.token).toList ++
        match draft.accept config after.token with
        | .ok (.onward draft) => draft.pairsOn config after
        | _ => [] := by
  rw [pairsOn_of_advance success]
  dsimp only
  rw [if_neg more]
  cases draft.accept config after.token with
  | error error => exact (List.append_nil _).symm
  | ok step => cases step <;> simp

/-- The settings of the cache have no part in it. -/
theorem pairsOn_uncached : draft.pairsOn config.uncached lexer = draft.pairsOn config lexer := by
  fun_induction pairsOn config draft lexer with
  | case1 draft lexer failure after failed => rw [pairsOn_of_failed failed]
  | case2 draft lexer after success known last => rw [pairsOn_of_last success last]
  | case3 draft lexer after success known more error refused =>
    rw [pairsOn_of_token success more, accept_uncached, refused]
    exact List.append_nil _
  | case4 draft lexer after success known more game finished =>
    rw [pairsOn_of_token success more, accept_uncached, finished]
    exact List.append_nil _
  | case5 draft lexer after success known more next onward inductionHypothesis =>
    rw [pairsOn_of_token success more, accept_uncached, onward]
    exact congrArg _ inductionHypothesis

/-- A game that is finished shows what was handed back for its header pairs. -/
theorem Holds.shows {token : Token} {game : Game} (holds : draft.Holds shared)
    (accepted : draft.accept config token = .ok (.finished game)) :
    (Entry.ofShared shared.reverse game).Shows shared.reverse := by
  obtain ⟨_, headers⟩ := records_of_accept holds accepted
  refine ⟨?_, rfl⟩
  have held := holds.headers
  unfold Entry.ofShared
  rw [headers]
  cases found : draft.headers with
  | none =>
    rw [found] at held
    rw [List.map_reverse, ← held]
    rfl
  | some pairs => rfl

/-- The pairs are interned in turn, and a game that comes of it shows what was handed back. -/
theorem readOnBy_interns (holds : draft.Holds shared) :
    (draft.readOnBy hash config shared interner lexer).2.1 =
        (interner.internAllBy hash (draft.pairsOn config lexer)).2 ∧
      ∀ entry, (draft.readOnBy hash config shared interner lexer).1 = .ok (some entry) →
        entry.Shows
          (shared.reverse ++ (interner.internAllBy hash (draft.pairsOn config lexer)).1) := by
  fun_induction readOnBy hash config draft shared interner lexer with
  | case1 draft shared interner lexer failure after failed =>
    rw [pairsOn_of_failed failed]
    refine ⟨rfl, fun entry same => ?_⟩
    cases same
  | case2 draft shared interner lexer after success noted last =>
    rw [pairsOn_of_last success last]
    refine ⟨(congrArg Prod.snd (interner.noteBy_eq hash _ shared) :), fun entry finished => ?_⟩
    rcases conclude_eq config draft after.start with none | refused
    · rw [none] at finished
      cases finished
    · rw [refused] at finished
      cases finished
  | case3 draft shared interner lexer after success noted more error refused =>
    rw [pairsOn_of_token success more, refused, List.append_nil]
    refine ⟨(congrArg Prod.snd (interner.noteBy_eq hash _ shared) :), fun entry same => ?_⟩
    cases same
  | case4 draft shared interner lexer after success noted more game finished =>
    obtain ⟨none, _⟩ := records_of_accept holds finished
    have handed : noted = (shared, interner) := by
      rw [show noted = _ from interner.noteBy_eq hash _ shared, none]
      rfl
    rw [pairsOn_of_token success more, finished, none, handed]
    refine ⟨rfl, fun entry same => ?_⟩
    cases same
    show Entry.Shows (shared.reverse ++ []) _
    rw [List.append_nil]
    exact holds.shows finished
  | case5 draft shared interner lexer after success noted more next onward inductionHypothesis =>
    have handed : noted = _ := interner.noteBy_eq hash _ shared
    obtain ⟨kept, shows⟩ := inductionHypothesis (holds.accept hash interner onward)
    rw [pairsOn_of_token success more, onward, Interner.internAllBy_append, ← List.append_assoc]
    rw [handed, List.reverse_append, List.reverse_reverse] at shows
    exact ⟨handed ▸ kept, handed ▸ shows⟩

end Reading

end Draft

/-! ### The pairs of a request -/

namespace Reader

/-- The header pairs that one pass of looking for the next game interns. -/
def pairsPass (reader : Reader) : List HeaderPair :=
  Draft.start.pairsOn reader.config reader.lexer

/-- The header pairs that are interned in looking for the next game, those of games that are refused
included. -/
def pairsNext (hash : HeaderPair → UInt64) (reader : Reader) : List HeaderPair :=
  if reader.isDone then []
  else if reader.atLimit then []
  else
    match _ : reader.passBy hash with
    | (some _, _) => reader.pairsPass
    | (none, after) => reader.pairsPass ++ pairsNext hash after
termination_by reader.lexer.source.content.length
decreasing_by
  exact content_lt_of_passBy hash ‹_›

/-- The header pairs that a request interns. -/
def pairsFor (hash : HeaderPair → UInt64) (request : Request) (reader : Reader) :
    List HeaderPair :=
  match request with
  | .next => reader.pairsNext hash
  | .skipGame => []
  | .close => []

/-- A game that is found shows what was handed back last. -/
def Reply.Shows (shared : List SharedPair) : Reply → Prop
  | game (some (.ok entry)) => ∃ own, own <:+ shared ∧ entry.Shows own
  | _ => True

section Requests

variable {hash hash' : HeaderPair → UInt64} {reader other : Reader}

theorem Alike.pairsPass (alike : reader.Alike other) : reader.pairsPass = other.pairsPass := by
  unfold Reader.pairsPass
  rw [← Draft.pairsOn_uncached, alike.config, alike.lexer, Draft.pairsOn_uncached]

theorem pairsNext_of_passBy {reader : Reader} (more : ¬ reader.isDone = true)
    (room : ¬ reader.atLimit = true) :
    reader.pairsNext hash =
      match reader.passBy hash with
      | (some _, _) => reader.pairsPass
      | (none, after) => reader.pairsPass ++ after.pairsNext hash := by
  rw [pairsNext, if_neg more, if_neg room]
  split
  · next passed => rw [passed]
  · next passed => rw [passed]

/-- What is interned has nothing to do with how it is interned. -/
theorem Alike.pairsNext (alike : reader.Alike other) :
    reader.pairsNext hash = other.pairsNext hash' := by
  fun_induction Reader.pairsNext hash reader generalizing other with
  | case1 reader done => rw [Reader.pairsNext, if_pos (alike.isDone ▸ done)]
  | case2 reader running limit =>
    rw [Reader.pairsNext, if_neg (alike.isDone ▸ running), if_pos (alike.atLimit ▸ limit)]
  | case3 reader running room result after passed =>
    obtain ⟨result', after', passed', _⟩ := alike.answered hash hash' passed
    rw [@pairsNext_of_passBy hash' other (alike.isDone ▸ running) (alike.atLimit ▸ room), passed']
    exact alike.pairsPass
  | case4 reader running room after passed inductionHypothesis =>
    obtain ⟨after', passed', behind⟩ := alike.again hash hash' passed
    rw [@pairsNext_of_passBy hash' other (alike.isDone ▸ running) (alike.atLimit ▸ room), passed']
    exact congrArg₂ _ alike.pairsPass (inductionHypothesis behind)

theorem Alike.pairsFor (alike : reader.Alike other) (request : Request) :
    reader.pairsFor hash request = other.pairsFor hash' request := by
  cases request with
  | next => exact alike.pairsNext
  | skipGame => rfl
  | close => rfl

theorem passBy_interns (reader : Reader) :
    (reader.passBy hash).2.interner =
        (reader.interner.internAllBy hash reader.pairsPass).2 ∧
      ∀ entry, (reader.passBy hash).1 = some (some (.ok entry)) →
        entry.Shows (reader.interner.internAllBy hash reader.pairsPass).1 := by
  obtain ⟨kept, shows⟩ := @Draft.readOnBy_interns reader.config hash .start [] reader.interner
    reader.lexer Draft.holds_start
  refine ⟨(interner_settle _ _).trans kept, fun entry found => ?_⟩
  exact shows entry (read_of_settle (Prod.ext found rfl)).1

theorem nextBy_interns (reader : Reader) :
    (reader.nextBy hash).2.interner =
        (reader.interner.internAllBy hash (reader.pairsNext hash)).2 ∧
      Reply.Shows (reader.interner.internAllBy hash (reader.pairsNext hash)).1
        (.game (reader.nextBy hash).1) := by
  fun_induction nextBy hash reader with
  | case1 reader done =>
    rw [pairsNext, if_pos done]
    exact ⟨rfl, trivial⟩
  | case2 reader running limit =>
    rw [pairsNext, if_neg running, if_pos limit]
    exact ⟨rfl, trivial⟩
  | case3 reader running room result after passed =>
    obtain ⟨kept, shows⟩ := @passBy_interns hash reader
    rw [pairsNext_of_passBy running room, passed]
    rw [passed] at kept shows
    refine ⟨kept, ?_⟩
    rcases result with none | error | entry
    · exact trivial
    · exact trivial
    · exact ⟨_, List.suffix_refl _, shows entry rfl⟩
  | case4 reader running room after passed inductionHypothesis =>
    have kept := (@passBy_interns hash reader).1
    rw [passed] at kept
    rw [pairsNext_of_passBy running room, passed]
    dsimp only
    rw [Interner.internAllBy_append, ← kept]
    obtain ⟨later, shows⟩ := inductionHypothesis
    refine ⟨later, ?_⟩
    revert shows
    rcases (after.nextBy hash).1 with none | error | entry
    · exact id
    · exact id
    · rintro ⟨own, suffix, shows⟩
      exact ⟨own, suffix.trans (List.suffix_append _ _), shows⟩

theorem answerBy_interns (request : Request) (reader : Reader) :
    (reader.answerBy hash request).2.interner =
        (reader.interner.internAllBy hash (reader.pairsFor hash request)).2 ∧
      (reader.answerBy hash request).1.Shows
        (reader.interner.internAllBy hash (reader.pairsFor hash request)).1 := by
  cases request with
  | next => exact reader.nextBy_interns
  | skipGame => exact ⟨interner_skipGame reader, trivial⟩
  | close => exact ⟨rfl, trivial⟩

/-- With a cache that is shared, the cache goes through the pairs of a request. -/
theorem answerSharing_interns (request : Request) (cache : Cache) (reader : Reader) :
    (reader.answerSharing hash request cache).2.1 =
        (cache.internAll hash (reader.pairsFor hash request)).2 ∧
      (reader.answerSharing hash request cache).2.2 =
        ((reader.lent cache).answerBy hash request).2 ∧
      (reader.answerSharing hash request cache).1.Shows
        (cache.internAll hash (reader.pairsFor hash request)).1 := by
  have lent : (reader.lent cache).Alike reader := { Alike.refl reader with }
  obtain ⟨kept, shows⟩ := @answerBy_interns hash request (reader.lent cache)
  have own : (reader.lent cache).interner = .cached cache := rfl
  rw [@Alike.pairsFor hash hash _ _ lent request, own, Interner.internAllBy_cached] at kept shows
  unfold answerSharing
  dsimp only
  rw [kept]
  exact ⟨rfl, rfl, shows⟩

end Requests

end Reader

/-! ### The pairs of a circle -/

namespace Circle

variable {Name : Type} [DecidableEq Name]

/-- The header pairs that an event interns. -/
def pairsFor (hash : HeaderPair → UInt64) (event : Event Name) (circle : Circle Name) :
    List HeaderPair :=
  match event with
  | .asks name request => (circle.readers name).pairsFor hash request
  | .interns pair => [pair]

/-- The header pairs that each of some events interns. -/
def interned (hash : HeaderPair → UInt64) : List (Event Name) → Circle Name → List (List HeaderPair)
  | [], _ => []
  | event :: rest, circle =>
    circle.pairsFor hash event :: interned hash rest (circle.react hash event).2

/-- What comes of an event shows what was handed back for its pairs. -/
def Outcome.Shows (shared : List SharedPair) : Outcome Name → Prop
  | .answered _ answer => answer.1.Shows shared
  | .handed own => shared = [own]

section Two

variable {hash hash' : HeaderPair → UInt64} {circle other : Circle Name}

/-- Circles of readers that differ in nothing but their caches intern the same pairs. -/
theorem interned_eq (alike : ∀ name, (circle.readers name).Alike (other.readers name))
    (events : List (Event Name)) : circle.interned hash events = other.interned hash' events := by
  induction events generalizing circle other with
  | nil => rfl
  | cons event rest inductionHypothesis =>
    cases event with
    | interns pair => exact congrArg ([pair] :: ·) (inductionHypothesis alike)
    | asks name request =>
      refine congrArg₂ List.cons ((alike name).pairsFor request) (inductionHypothesis ?_)
      intro asked
      obtain ⟨_, after, _⟩ :=
        @Reader.answerSharing_interns hash request circle.cache (circle.readers name)
      obtain ⟨_, after', _⟩ :=
        @Reader.answerSharing_interns hash' request other.cache (other.readers name)
      unfold react
      dsimp only
      rw [after, after']
      by_cases same : asked = name
      · subst same
        have lent : ((circle.readers asked).lent circle.cache).Alike
            ((other.readers asked).lent other.cache) := { alike asked with }
        rw [Function.update_self, Function.update_self]
        exact (lent.answerBy hash hash' request).2
      · rw [Function.update_of_ne same, Function.update_of_ne same]
        exact alike asked

theorem react_interns (event : Event Name) (circle : Circle Name) :
    (circle.react hash event).2.cache =
        (circle.cache.internAll hash (circle.pairsFor hash event)).2 ∧
      (circle.react hash event).1.Shows
        (circle.cache.internAll hash (circle.pairsFor hash event)).1 := by
  cases event with
  | interns pair => exact ⟨rfl, rfl⟩
  | asks name request =>
    obtain ⟨kept, _, shows⟩ :=
      @Reader.answerSharing_interns hash request circle.cache (circle.readers name)
    exact ⟨kept, shows⟩

/-- The cache of a circle goes through the pairs that are interned, and what comes of the events
shows what it handed back. -/
theorem run_interns (events : List (Event Name)) (circle : Circle Name) :
    ∃ handed : List (List SharedPair),
      circle.cache.internAll hash (circle.interned hash events).flatten =
          (handed.flatten, (circle.run hash events).2.cache) ∧
        handed.map (List.map SharedPair.pair) = circle.interned hash events ∧
        List.Forall₂ Outcome.Shows handed (circle.run hash events).1 := by
  induction events generalizing circle with
  | nil => exact ⟨[], rfl, rfl, .nil⟩
  | cons event rest inductionHypothesis =>
    obtain ⟨kept, shows⟩ := @react_interns _ _ hash event circle
    obtain ⟨handed, all, pairs, shown⟩ := inductionHypothesis (circle.react hash event).2
    refine ⟨(circle.cache.internAll hash (circle.pairsFor hash event)).1 :: handed, ?_, ?_,
      .cons shows shown⟩
    · unfold interned
      rw [List.flatten_cons, List.flatten_cons, Cache.internAll_append, ← kept, all]
      rfl
    · exact congrArg₂ List.cons (Cache.pairs_internAll hash _ circle.cache) pairs

end Two

end Circle

namespace Cache

/-- A cache in which some pairs were interned at first. -/
def preset (hash : HeaderPair → UInt64) (capacity : Nat) (pairs : List HeaderPair) : Cache :=
  ((empty capacity).internAll hash pairs).2

/-- The pairs that the settings ask for are interned one after the other. -/
theorem ofConfig_eq [Hashable HeaderPair] (config : CacheConfig) :
    ofConfig config = preset Hashable.hash config.capacity
      (config.preset.map fun pair => ⟨pair.1, pair.2⟩) := by
  unfold ofConfig preset
  generalize empty config.capacity = cache
  induction config.preset generalizing cache with
  | nil => rfl
  | cons pair rest inductionHypothesis => exact inductionHypothesis _

/-- The numbers of the allocations that are handed back for pairs interned one after the other. -/
def allocations (hash : HeaderPair → UInt64) (pairs : List HeaderPair) (cache : Cache) : List Nat :=
  (cache.internAll hash pairs).1.map SharedPair.allocation

theorem allocations_empty (hash : HeaderPair → UInt64) (capacity : Nat) (pairs : List HeaderPair) :
    (empty capacity).allocations hash pairs = (Recency.empty capacity).allocations hash pairs := by
  unfold allocations Recency.allocations
  rw [((Represents.empty capacity).internAll hash pairs).1]

end Cache

namespace Circle

variable {Name : Type} [DecidableEq Name]

/-- The distance of reuse decides what is shared. Pairs are interned in a cache of any capacity:
some at first, and others by what happens in a circle of readers around the cache, be it that a
reader is asked for a game or that a pair is interned directly. All this is one sequence of pairs.
If no different pairs in it have the same hash, a pair is handed back in the allocation it was
handed back in before exactly if fewer different pairs than the capacity were interned in between.
A circle around a larger cache interns the same sequence and shares all that this one shares. The
games that are found show what was handed back for their headers. -/
theorem reuse_decides [Hashable HeaderPair] (hash : HeaderPair → UInt64) (capacity : Nat)
    (preset : List HeaderPair) (readers : Name → Reader) (events : List (Event Name))
    (sequence : List HeaderPair)
    (whole : sequence =
      preset ++ (interned hash events ⟨.preset hash capacity preset, readers⟩).flatten)
    (distinct : ∀ first ∈ sequence, ∀ second ∈ sequence,
      hash first = hash second → first = second) :
    Recency.ReusesWithin capacity sequence ((Cache.empty capacity).allocations hash sequence) ∧
    (∀ larger, capacity ≤ larger →
      sequence = preset ++ (interned hash events ⟨.preset hash larger preset, readers⟩).flatten ∧
        Recency.SharesAll ((Cache.empty capacity).allocations hash sequence)
          ((Cache.empty larger).allocations hash sequence)) ∧
    (∃ handed : List (List SharedPair),
      (Cache.empty capacity).internAll hash sequence =
          (((Cache.empty capacity).internAll hash preset).1 ++ handed.flatten,
            (run hash events ⟨.preset hash capacity preset, readers⟩).2.cache) ∧
        handed.map (List.map SharedPair.pair) =
          interned hash events ⟨.preset hash capacity preset, readers⟩ ∧
        List.Forall₂ Outcome.Shows handed
          (run hash events ⟨.preset hash capacity preset, readers⟩).1) ∧
    ∀ setting : CacheConfig, Cache.ofConfig setting =
      .preset Hashable.hash setting.capacity (setting.preset.map fun pair => ⟨pair.1, pair.2⟩) := by
  subst whole
  refine ⟨?_, fun larger le => ⟨?_, ?_⟩, ?_, Cache.ofConfig_eq⟩
  · rw [Cache.allocations_empty]
    exact Recency.reusesWithin_allocations capacity
      fun first member second => distinct first member second
  · have alike (name : Name) : (readers name).Alike (readers name) := .refl _
    exact congrArg (preset ++ List.flatten ·) (interned_eq alike events)
  · rw [Cache.allocations_empty, Cache.allocations_empty]
    exact Recency.sharesAll_allocations le
      fun first member second => distinct first member second
  · obtain ⟨handed, all, pairs, shown⟩ :=
      @run_interns _ _ hash events ⟨.preset hash capacity preset, readers⟩
    refine ⟨handed, ?_, pairs, shown⟩
    rw [Cache.internAll_append]
    exact congrArg (Prod.map (((Cache.empty capacity).internAll hash preset).1 ++ ·) id) all

def firstRound : HeaderPair := ⟨Bytes.ofString "Round", Bytes.ofString "1"⟩

def secondRound : HeaderPair := ⟨Bytes.ofString "Round", Bytes.ofString "2"⟩

open scoped PairHash

/-- Two readers of the same text, a game of the first round and one with both rounds. -/
def eitherReader (_ : Bool) : Reader :=
  .ofBytes (Bytes.ofString "[Round \"1\"] *\n[Round \"2\"] [Round \"1\"] *")

def turns : List (Event Bool) :=
  [.asks true .next, .interns secondRound, .asks false .next, .asks true .next]

theorem reuse_decides_turns :
    let sequence := [firstRound, firstRound, secondRound, firstRound, secondRound, firstRound]
    let start (capacity : Nat) : Circle Bool :=
      ⟨.preset PairHash.hash capacity [firstRound], eitherReader⟩
    sequence = [firstRound] ++ (interned PairHash.hash turns (start 1)).flatten ∧
    (∀ first ∈ sequence, ∀ second ∈ sequence,
      PairHash.hash first = PairHash.hash second → first = second) ∧
    Recency.ReusesWithin 1 sequence ((Cache.empty 1).allocations PairHash.hash sequence) ∧
    sequence = [firstRound] ++ (interned PairHash.hash turns (start 2)).flatten ∧
    Recency.SharesAll ((Cache.empty 1).allocations PairHash.hash sequence)
      ((Cache.empty 2).allocations PairHash.hash sequence) ∧
    (Cache.empty 1).allocations PairHash.hash sequence = [0, 0, 1, 2, 3, 4] ∧
    (Cache.empty 2).allocations PairHash.hash sequence = [0, 0, 1, 0, 1, 0] := by
  intro sequence start
  have whole : sequence = [firstRound] ++ (interned PairHash.hash turns (start 1)).flatten := by
    decide +kernel
  have distinct : ∀ first ∈ sequence, ∀ second ∈ sequence,
      PairHash.hash first = PairHash.hash second → first = second := by
    decide +kernel
  obtain ⟨reuses, larger, -, -⟩ :=
    reuse_decides PairHash.hash 1 [firstRound] eitherReader turns sequence whole distinct
  obtain ⟨same, shares⟩ := larger 2 (by decide)
  refine ⟨whole, distinct, reuses, same, shares, ?_, ?_⟩
  · rw [Cache.allocations_empty]
    decide +kernel
  · rw [Cache.allocations_empty]
    decide +kernel

end Circle

end Scoresheet
