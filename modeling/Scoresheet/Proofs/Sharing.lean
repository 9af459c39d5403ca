/-
This file shows that interning is invisible but for the identity of header pairs. Two readers that
differ in nothing but how they come by their header pairs answer all requests alike, up to
allocations: under any hash, with any cache or none, whatever was interned before. So it does not
matter either what others do to a cache that is shared: in a circle of readers around one cache,
each hears what it would hear alone.
-/

import Scoresheet.Proofs.Hashing
import Scoresheet.Proofs.Interning

namespace Scoresheet

/-- The game, and nothing of where its header pairs lie. -/
def Entry.content (entry : Entry) : Entry := ⟨entry.game, []⟩

namespace Reader

/-- What is found, up to allocations. -/
abbrev found (result : Option (Except ReadError Entry)) : Option (Except ReadError Entry) :=
  result.map (Except.map Entry.content)

/-- What a request returns, up to allocations. -/
def Reply.content : Reply → Reply
  | game result => .game (found result)
  | skipped result => .skipped result
  | closed => .closed

/-! ### Readers under any hash -/

section Hashes

variable (hash : HeaderPair → UInt64)

/-- One pass of looking for the next game, under any hash. -/
def passBy (reader : Reader) : Option (Option (Except ReadError Entry)) × Reader :=
  let answer := Draft.readBy hash reader.config reader.interner reader.lexer
  settle answer.1 { reader with interner := answer.2.1, lexer := answer.2.2 }

theorem passBy_hash [Hashable HeaderPair] (reader : Reader) :
    reader.passBy Hashable.hash = reader.pass := by
  have same : Draft.readBy Hashable.hash reader.config reader.interner reader.lexer =
      Draft.read reader.config reader.interner reader.lexer :=
    Draft.readOnBy_hash Draft.holds_start
  unfold passBy pass
  rw [same]

/-- Readers that differ in nothing but how they come by their header pairs. -/
structure Alike (reader other : Reader) : Prop where
  lexer : reader.lexer = other.lexer
  config : reader.config.uncached = other.config.uncached
  errors : reader.errors = other.errors
  gamesRead : reader.gamesRead = other.gamesRead
  isDone : reader.isDone = other.isDone

theorem Alike.refl (reader : Reader) : reader.Alike reader := ⟨rfl, rfl, rfl, rfl, rfl⟩

theorem Alike.settle {reader other : Reader} (alike : reader.Alike other)
    (reading reading' : Reading)
    (game : reading.map (Option.map Entry.game) = reading'.map (Option.map Entry.game)) :
    (settle reading reader).1.map found = (settle reading' other).1.map found ∧
      (settle reading reader).2.Alike (settle reading' other).2 := by
  match reading, reading', game with
  | .ok none, .ok none, _ => exact ⟨rfl, { alike with isDone := rfl }⟩
  | .ok (some entry), .ok (some entry'), game =>
    have same : entry.content = entry'.content :=
      congrArg (Entry.mk · []) (Option.some.inj (Except.ok.inj game))
    exact ⟨congrArg (fun entry => some (some (Except.ok entry))) same,
      { alike with gamesRead := congrArg (· + 1) alike.gamesRead }⟩
  | .error error, .error error', game =>
    obtain rfl := Except.error.inj game
    have stops : reader.config.stopOnError = other.config.stopOnError :=
      (congrArg Config.stopOnError alike.config :)
    have errors : reader.errors ++ [error] = other.errors ++ [error] := by rw [alike.errors]
    unfold Reader.settle
    dsimp only
    rw [stops, alike.lexer]
    split
    · exact ⟨rfl, { alike with lexer := rfl, isDone := rfl }⟩
    · split
      · exact ⟨rfl, { alike with lexer := rfl, errors, isDone := rfl }⟩
      · split
        · exact ⟨rfl, { alike with lexer := rfl, errors, isDone := rfl }⟩
        · exact ⟨rfl, { alike with lexer := rfl, errors }⟩

section Pass

variable (hash' : HeaderPair → UInt64) {reader other : Reader}

theorem Alike.read (alike : reader.Alike other) :
    (Draft.readBy hash reader.config reader.interner reader.lexer).1.map (Option.map Entry.game) =
        (Draft.readBy hash' other.config other.interner other.lexer).1.map
          (Option.map Entry.game) ∧
      (Draft.readBy hash reader.config reader.interner reader.lexer).2.2 =
        (Draft.readBy hash' other.config other.interner other.lexer).2.2 := by
  -- Both come to what reading without a cache comes to.
  let : Hashable HeaderPair := ⟨hash⟩
  have left := @Draft.readOnBy_game reader.config hash .start [] reader.interner reader.lexer _
    Draft.holds_start [] (.uncached 0)
  have right := @Draft.readOnBy_game other.config hash' .start [] other.interner other.lexer _
    Draft.holds_start [] (.uncached 0)
  rw [alike.config, alike.lexer] at left
  unfold Draft.readBy
  rw [alike.lexer]
  exact ⟨left.1.trans right.1.symm, left.2.trans right.2.symm⟩

/-- What one pass finds, another finds that comes by its header pairs otherwise. -/
theorem Alike.passBy (alike : reader.Alike other) :
    (reader.passBy hash).1.map found = (other.passBy hash').1.map found ∧
      (reader.passBy hash).2.Alike (other.passBy hash').2 := by
  obtain ⟨game, place⟩ := alike.read hash hash'
  have behind (interner interner' : Interner) {lexer lexer' : Lexer} (place : lexer = lexer') :
      Alike { reader with interner, lexer } { other with interner := interner', lexer := lexer' } :=
    ⟨place, alike.config, alike.errors, alike.gamesRead, alike.isDone⟩
  exact (behind _ _ place).settle _ _ game

theorem Alike.answered {result : Option (Except ReadError Entry)} {after : Reader}
    (alike : reader.Alike other) (answered : reader.passBy hash = (some result, after)) :
    ∃ result' after', other.passBy hash' = (some result', after') ∧ found result = found result' ∧
      after.Alike after' := by
  obtain ⟨same, behind⟩ := alike.passBy hash hash'
  rw [answered] at same behind
  obtain ⟨result', answered', content⟩ := Option.map_eq_some_iff.mp same.symm
  exact ⟨result', _, Prod.ext answered' rfl, content.symm, behind⟩

theorem Alike.again {after : Reader} (alike : reader.Alike other)
    (again : reader.passBy hash = (none, after)) :
    ∃ after', other.passBy hash' = (none, after') ∧ after.Alike after' := by
  obtain ⟨same, behind⟩ := alike.passBy hash hash'
  rw [again] at same behind
  exact ⟨_, Prod.ext (Option.map_eq_none_iff.mp same.symm) rfl, behind⟩

end Pass

theorem content_lt_of_passBy {reader after : Reader} (again : reader.passBy hash = (none, after)) :
    after.lexer.source.content.length < reader.lexer.source.content.length := by
  let : Hashable HeaderPair := ⟨hash⟩
  exact content_lt_of_pass ((passBy_hash reader).symm.trans again)

/-- Yields the next game or the error that ends the reading, or nothing at the end. -/
def nextBy (reader : Reader) : Option (Except ReadError Entry) × Reader :=
  if reader.isDone then (none, reader)
  else if reader.atLimit then (none, { reader with isDone := true })
  else
    match _ : reader.passBy hash with
    | (some result, after) => (result, after)
    | (none, after) => nextBy after
termination_by reader.lexer.source.content.length
decreasing_by
  exact content_lt_of_passBy hash ‹_›

/-- The reader behind a request, and what the request returns. -/
def answerBy (request : Request) (reader : Reader) : Reply × Reader :=
  match request with
  | .next => (.game (reader.nextBy hash).1, (reader.nextBy hash).2)
  | .skipGame => (.skipped reader.skipGame.1, reader.skipGame.2)
  | .close => (.closed, reader.close)

/-- What is seen of an answer and the reader behind it. -/
def told (answer : Reply × Reader) : Reply × List ReadError × Nat :=
  (answer.1, answer.2.errors, answer.2.gamesRead)

/-- What is seen of the answers to requests made one after the other. -/
def answersBy : List Request → Reader → List (Reply × List ReadError × Nat)
  | [], _ => []
  | request :: rest, reader =>
    told (reader.answerBy hash request) :: answersBy rest (reader.answerBy hash request).2

end Hashes

/-! ### The hash of the cache -/

section Own

variable [Hashable HeaderPair]

theorem nextBy_hash (reader : Reader) : reader.nextBy Hashable.hash = reader.next := by
  fun_induction nextBy Hashable.hash reader with
  | case1 reader done => rw [next_of_isDone done]
  | case2 reader running limit => rw [next_of_atLimit (Bool.eq_false_iff.mpr running) limit]
  | case3 reader running room result after passed =>
    rw [passBy_hash] at passed
    rw [next_of_answered (Bool.eq_false_iff.mpr running) (Bool.eq_false_iff.mpr room) passed]
  | case4 reader running room after passed inductionHypothesis =>
    rw [passBy_hash] at passed
    rw [next_of_again (Bool.eq_false_iff.mpr running) (Bool.eq_false_iff.mpr room) passed,
      inductionHypothesis]

theorem answerBy_hash (request : Request) (reader : Reader) :
    reader.answerBy Hashable.hash request = reader.answer request := by
  cases request with
  | next => exact congrArg (fun answer => (Reply.game answer.1, answer.2)) reader.nextBy_hash
  | skipGame => rfl
  | close => rfl

theorem answersBy_hash (requests : List Request) (reader : Reader) :
    reader.answersBy Hashable.hash requests = reader.answers requests := by
  induction requests generalizing reader with
  | nil => rfl
  | cons request rest inductionHypothesis =>
    unfold answersBy answers
    rw [answerBy_hash]
    exact congrArg _ (inductionHypothesis _)

end Own

/-! ### Two readers -/

section Two

variable (hash hash' : HeaderPair → UInt64) {reader other : Reader}

theorem nextBy_of_passBy (more : reader.isDone = false) (room : reader.atLimit = false) :
    reader.nextBy hash =
      match reader.passBy hash with
      | (some result, after) => (result, after)
      | (none, after) => after.nextBy hash := by
  rw [nextBy, if_neg (by rw [more]; exact Bool.false_ne_true),
    if_neg (by rw [room]; exact Bool.false_ne_true)]
  split
  · next passed => rw [passed]
  · next passed => rw [passed]

theorem Alike.atLimit (alike : reader.Alike other) : reader.atLimit = other.atLimit := by
  have limit : reader.config.gameLimit = other.config.gameLimit :=
    (congrArg Config.gameLimit alike.config :)
  unfold Reader.atLimit
  rw [limit, alike.gamesRead]

theorem Alike.nextBy (alike : reader.Alike other) :
    found (reader.nextBy hash).1 = found (other.nextBy hash').1 ∧
      (reader.nextBy hash).2.Alike (other.nextBy hash').2 := by
  fun_induction Reader.nextBy hash reader generalizing other with
  | case1 reader done =>
    rw [Reader.nextBy, if_pos (alike.isDone ▸ done)]
    exact ⟨rfl, alike⟩
  | case2 reader running limit =>
    rw [Reader.nextBy, if_neg (alike.isDone ▸ running), if_pos (alike.atLimit ▸ limit)]
    exact ⟨rfl, { alike with isDone := rfl }⟩
  | case3 reader running room result after passed =>
    obtain ⟨result', after', passed', same, behind⟩ := alike.answered hash hash' passed
    rw [nextBy_of_passBy hash' (Bool.eq_false_iff.mpr (alike.isDone ▸ running))
      (Bool.eq_false_iff.mpr (alike.atLimit ▸ room)), passed']
    exact ⟨same, behind⟩
  | case4 reader running room after passed inductionHypothesis =>
    obtain ⟨after', passed', behind⟩ := alike.again hash hash' passed
    rw [nextBy_of_passBy hash' (Bool.eq_false_iff.mpr (alike.isDone ▸ running))
      (Bool.eq_false_iff.mpr (alike.atLimit ▸ room)), passed']
    exact inductionHypothesis behind

/-- Passing a game has nothing to do with header pairs. -/
theorem Alike.skipGame (alike : reader.Alike other) :
    reader.skipGame.1 = other.skipGame.1 ∧ reader.skipGame.2.Alike other.skipGame.2 := by
  unfold Reader.skipGame
  rw [alike.isDone, alike.lexer]
  split
  · exact ⟨rfl, alike⟩
  · split
    · exact ⟨rfl, { alike with lexer := rfl, isDone := rfl }⟩
    · split
      · exact ⟨rfl, { alike with lexer := rfl, isDone := rfl }⟩
      · split
        · exact ⟨rfl, { alike with lexer := rfl, isDone := rfl }⟩
        · exact ⟨rfl, { alike with lexer := rfl, isDone := rfl }⟩

theorem Alike.answerBy (alike : reader.Alike other) (request : Request) :
    (reader.answerBy hash request).1.content = (other.answerBy hash' request).1.content ∧
      (reader.answerBy hash request).2.Alike (other.answerBy hash' request).2 := by
  cases request with
  | next =>
    obtain ⟨same, behind⟩ := alike.nextBy hash hash'
    exact ⟨congrArg Reply.game same, behind⟩
  | skipGame =>
    obtain ⟨same, behind⟩ := alike.skipGame
    exact ⟨congrArg Reply.skipped same, behind⟩
  | close =>
    exact ⟨rfl, { alike with lexer := congrArg Lexer.close alike.lexer, isDone := rfl }⟩

/-- Answers up to allocations. -/
def contents (answers : List (Reply × List ReadError × Nat)) :
    List (Reply × List ReadError × Nat) :=
  answers.map (Prod.map Reply.content id)

theorem Alike.told {answer answer' : Reply × Reader}
    (same : answer.1.content = answer'.1.content) (behind : answer.2.Alike answer'.2) :
    (told answer).map Reply.content id = (told answer').map Reply.content id := by
  unfold Reader.told
  rw [Prod.map_apply, Prod.map_apply, same, behind.errors, behind.gamesRead]

/-- Readers that differ in nothing but how they come by their header pairs answer all requests
alike. -/
theorem Alike.answersBy (alike : reader.Alike other) (requests : List Request) :
    contents (reader.answersBy hash requests) = contents (other.answersBy hash' requests) := by
  induction requests generalizing reader other with
  | nil => rfl
  | cons request rest inductionHypothesis =>
    obtain ⟨same, behind⟩ := alike.answerBy hash hash' request
    exact congrArg₂ List.cons (Alike.told same behind) (inductionHypothesis behind)

end Two

/-! ### What becomes of the cache -/

theorem interner_settle (reading : Reading) (reader : Reader) :
    (settle reading reader).2.interner = reader.interner := by
  unfold settle
  dsimp only
  split
  · rfl
  · rfl
  · split
    · rfl
    · split
      · rfl
      · split <;> rfl

theorem interner_skipGame (reader : Reader) : reader.skipGame.2.interner = reader.interner := by
  unfold skipGame
  repeat' split
  all_goals rfl

/-- The reader with a cache in place of its own. -/
def lent (cache : Cache) (reader : Reader) : Reader := { reader with interner := .cached cache }

/-- The reader behind a request, and what the request returns, with a cache that is shared. -/
def answerSharing (hash : HeaderPair → UInt64) (request : Request) (cache : Cache)
    (reader : Reader) : Reply × Cache × Reader :=
  let (reply, after) := (reader.lent cache).answerBy hash request
  match after.interner with
  | .cached cache => (reply, cache, after)
  | .uncached _ => (reply, cache, after)

theorem answerSharing_next [Hashable HeaderPair] (cache : Cache) (reader : Reader) :
    reader.answerSharing Hashable.hash .next cache =
      (.game (reader.nextSharing cache).1, (reader.nextSharing cache).2) := by
  unfold answerSharing nextSharing answerBy lent
  dsimp only
  rw [nextBy_hash]
  generalize next { reader with interner := .cached cache } = answer
  cases answer.2.interner <;> rfl

/-- What a reader does with a shared cache is what it does with a cache of its own. -/
theorem answerSharing_eq (hash : HeaderPair → UInt64) (cache : Cache) (reader : Reader)
    (request : Request) :
    ∃ later, reader.answerSharing hash request cache =
      (((reader.lent cache).answerBy hash request).1, later,
        ((reader.lent cache).answerBy hash request).2) := by
  unfold answerSharing
  dsimp only
  split <;> exact ⟨_, rfl⟩

end Reader

/-! ### Readers around one cache -/

/-- Readers that share a cache, each with its name. -/
structure Circle (Name : Type) where
  cache : Cache
  readers : Name → Reader

namespace Circle

/-- What can happen in a circle: a reader is asked for something, or the cache is asked for a pair
directly. -/
inductive Event (Name : Type) where
  | asks (name : Name) (request : Reader.Request)
  | interns (pair : HeaderPair)
  deriving DecidableEq, Repr

/-- What an event leads to: the answer of a reader, or a pair that is handed back. -/
inductive Outcome (Name : Type) where
  | answered (name : Name) (answer : Reader.Reply × List ReadError × Nat)
  | handed (shared : SharedPair)

variable {Name : Type} [DecidableEq Name] (hash : HeaderPair → UInt64)

def react (event : Event Name) (circle : Circle Name) : Outcome Name × Circle Name :=
  match event with
  | .asks name request =>
    let (reply, cache, after) := (circle.readers name).answerSharing hash request circle.cache
    (.answered name (Reader.told (reply, after)),
      ⟨cache, Function.update circle.readers name after⟩)
  | .interns pair =>
    let (shared, cache) := circle.cache.internAt (hash pair) pair
    (.handed shared, { circle with cache })

/-- What events that happen one after the other lead to, and the circle behind them. -/
def run : List (Event Name) → Circle Name → List (Outcome Name) × Circle Name
  | [], circle => ([], circle)
  | event :: rest, circle =>
    let (outcome, circle) := circle.react hash event
    let (outcomes, circle) := run rest circle
    (outcome :: outcomes, circle)

/-- What a reader is asked for. -/
def asked (name : Name) : List (Event Name) → List Reader.Request
  | [] => []
  | .asks other request :: rest =>
    if other = name then request :: asked name rest else asked name rest
  | .interns _ :: rest => asked name rest

/-- What a reader answers. -/
def heard (name : Name) : List (Outcome Name) → List (Reader.Reply × List ReadError × Nat)
  | [] => []
  | .answered other answer :: rest =>
    if other = name then answer :: heard name rest else heard name rest
  | .handed _ :: rest => heard name rest

section Heard

variable (hash' : HeaderPair → UInt64) {circle : Circle Name} {name : Name}
  {reader : Reader}

/-- In a circle a reader answers what it would answer alone, up to allocations, whatever cache it
would have then. -/
theorem heard_run (alike : (circle.readers name).Alike reader) (events : List (Event Name)) :
    Reader.contents (heard name (circle.run hash events).1) =
      Reader.contents (reader.answersBy hash' (asked name events)) := by
  induction events generalizing circle reader with
  | nil => rfl
  | cons event rest inductionHypothesis =>
    cases event with
    | interns pair => exact inductionHypothesis alike
    | asks other request =>
      obtain ⟨cache, answered⟩ :=
        Reader.answerSharing_eq hash circle.cache (circle.readers other) request
      unfold run react
      dsimp only
      rw [answered]
      unfold heard asked
      dsimp only
      by_cases same : other = name
      · subst same
        have lent : ((circle.readers other).lent circle.cache).Alike reader := { alike with }
        obtain ⟨reply, behind⟩ := lent.answerBy hash hash' request
        rw [if_pos rfl, if_pos rfl]
        refine congrArg₂ List.cons (Reader.Alike.told reply behind) (inductionHypothesis ?_)
        dsimp only
        rwa [Function.update_self]
      · rw [if_neg same, if_neg same]
        refine inductionHypothesis ?_
        dsimp only
        rwa [Function.update_of_ne (Ne.symm same)]

end Heard

end Circle

namespace Reader

/-- The reader with other settings of the cache and another way of coming by its header pairs. -/
def caching (setting : Option CacheConfig) (interner : Interner) (reader : Reader) : Reader :=
  { reader with config := { reader.config with headerCache := setting }, interner }

/-- Interning is invisible but for identity. Two readers that differ in nothing but the settings of
the cache and what they intern pairs with, be it empty or in use, under whatever hash, answer all
requests alike, up to the allocations of header pairs: with the same games and errors, the same
recorded errors and the same number of games read. The hash the cache is given is one of these. In a
circle of readers around one cache, in which requests of all readers and pairs interned directly
come in any order, each answers what it would answer alone, with any cache of its own or none. -/
theorem interning_invisible [Hashable HeaderPair] (reader : Reader)
    (hash hash' : HeaderPair → UInt64) (setting setting' : Option CacheConfig)
    (interner interner' : Interner) :
    (∀ requests,
      contents ((reader.caching setting interner).answersBy hash requests) =
        contents ((reader.caching setting' interner').answersBy hash' requests)) ∧
    (∀ requests, reader.answersBy Hashable.hash requests = reader.answers requests) ∧
    (∀ cache, reader.answerSharing Hashable.hash .next cache =
      (.game (reader.nextSharing cache).1, (reader.nextSharing cache).2)) ∧
    ∀ {Name : Type} [DecidableEq Name] (circle : Circle Name) (name : Name) events,
      contents (Circle.heard name (circle.run hash events).1) =
        contents (((circle.readers name).caching setting interner).answersBy hash'
          (Circle.asked name events)) := by
  have alone : (reader.caching setting interner).Alike (reader.caching setting' interner') :=
    ⟨rfl, rfl, rfl, rfl, rfl⟩
  have among (reader : Reader) : reader.Alike (reader.caching setting interner) :=
    ⟨rfl, rfl, rfl, rfl, rfl⟩
  refine ⟨?_, ?_, ?_, ?_⟩
  · exact fun requests => alone.answersBy hash hash' requests
  · exact fun requests => answersBy_hash requests reader
  · exact fun cache => answerSharing_next cache reader
  · exact fun circle name events =>
      Circle.heard_run hash hash' (among (circle.readers name)) events

end Reader

end Scoresheet
