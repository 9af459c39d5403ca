/-
This file says what a cache of header pairs is meant to be: a bounded list of pairs under their
hashes, the one used last in front. A pair is found by its hash alone. If it is the pair looked for
it is used again, and otherwise the new pair takes its place; either way it moves to the front. A
pair that is not found is put in front, and if there is no room for it the last pair of the list is
dropped.
-/

import Mathlib.Data.Finset.Card
import Scoresheet.Cache

namespace Scoresheet

/-- A pair that is held under its hash. -/
structure Held where
  hash : UInt64
  shared : SharedPair
  deriving DecidableEq, Repr

/-- The pairs that are held, the one used last first, and the number of allocations made so far. -/
structure Recency where
  capacity : Nat
  held : List Held
  allocated : Nat
  deriving DecidableEq, Repr

namespace Recency

def empty (capacity : Nat) : Recency := ⟨capacity, [], 0⟩

/-- The pair that is held under a hash. -/
def find? (hash : UInt64) (recency : Recency) : Option SharedPair :=
  (recency.held.find? (·.hash = hash)).map Held.shared

/-- A new allocation. -/
def allocate (pair : HeaderPair) (recency : Recency) : SharedPair × Recency :=
  (⟨pair, recency.allocated⟩, { recency with allocated := recency.allocated + 1 })

/-- Puts what is held under a hash in front, with the given pair. -/
def refresh (hash : UInt64) (shared : SharedPair) (recency : Recency) : Recency :=
  { recency with held := ⟨hash, shared⟩ :: recency.held.filter (·.hash ≠ hash) }

/-- Puts a new pair in front, in the place of the last one if there is no room left. -/
def add (hash : UInt64) (shared : SharedPair) (recency : Recency) : Recency :=
  if recency.capacity = 0 then recency
  else if recency.held.length < recency.capacity then
    { recency with held := ⟨hash, shared⟩ :: recency.held }
  else { recency with held := ⟨hash, shared⟩ :: recency.held.dropLast }

/-- The pair that is held under the hash if it is the given one, and a new allocation otherwise. -/
def intern (hash : UInt64) (pair : HeaderPair) (recency : Recency) : SharedPair × Recency :=
  match recency.find? hash with
  | some shared =>
    if shared.pair = pair then (shared, recency.refresh hash shared)
    else
      let (shared, recency) := recency.allocate pair
      (shared, recency.refresh hash shared)
  | none =>
    let (shared, recency) := recency.allocate pair
    (shared, recency.add hash shared)

/-- Interns pairs in turn under the hashes a function gives them. -/
def internAll (hash : HeaderPair → UInt64) : List HeaderPair → Recency → List SharedPair × Recency
  | [], recency => ([], recency)
  | pair :: rest, recency =>
    let (shared, recency) := recency.intern (hash pair) pair
    let (others, recency) := internAll hash rest recency
    (shared :: others, recency)

/-! ### What interning does to a list -/

/-- No hash is repeated, there are not too many pairs, and their allocations were made before. -/
structure IsSound (recency : Recency) : Prop where
  distinct : (recency.held.map Held.hash).Nodup
  bounded : recency.held.length ≤ recency.capacity
  allocated : ∀ entry ∈ recency.held, entry.shared.allocation < recency.allocated

/-- What interning a pair under a hash can do. -/
inductive Interns (hash : UInt64) (pair : HeaderPair) (recency : Recency) :
    SharedPair × Recency → Prop where
  /-- The pair is held and moves to the front. -/
  | again {front back : List Held} {shared : SharedPair}
      (split : recency.held = front ++ ⟨hash, shared⟩ :: back) (same : shared.pair = pair) :
      Interns hash pair recency
        (shared, { recency with held := ⟨hash, shared⟩ :: (front ++ back) })
  /-- A different pair is held under the hash. The new one takes its place and moves to the
  front. -/
  | collided {front back : List Held} {shared : SharedPair}
      (split : recency.held = front ++ ⟨hash, shared⟩ :: back) (different : shared.pair ≠ pair) :
      Interns hash pair recency
        (⟨pair, recency.allocated⟩,
          { recency with
            held := ⟨hash, ⟨pair, recency.allocated⟩⟩ :: (front ++ back)
            allocated := recency.allocated + 1 })
  /-- Nothing can be held. -/
  | passed (none : recency.capacity = 0) :
      Interns hash pair recency
        (⟨pair, recency.allocated⟩, { recency with allocated := recency.allocated + 1 })
  /-- The pair is put in front. -/
  | added (unlisted : hash ∉ recency.held.map Held.hash)
      (room : recency.held.length < recency.capacity) :
      Interns hash pair recency
        (⟨pair, recency.allocated⟩,
          { recency with
            held := ⟨hash, ⟨pair, recency.allocated⟩⟩ :: recency.held
            allocated := recency.allocated + 1 })
  /-- The pair is put in front, and the last one is dropped. -/
  | evicted {front : List Held} {last : Held} (unlisted : hash ∉ recency.held.map Held.hash)
      (full : recency.held.length = recency.capacity) (split : recency.held = front ++ [last]) :
      Interns hash pair recency
        (⟨pair, recency.allocated⟩,
          { recency with
            held := ⟨hash, ⟨pair, recency.allocated⟩⟩ :: front
            allocated := recency.allocated + 1 })

variable {recency : Recency} {hash : UInt64} {pair : HeaderPair}

theorem find?_eq_none_iff : recency.find? hash = none ↔ hash ∉ recency.held.map Held.hash := by
  unfold find?
  rw [Option.map_eq_none_iff, List.find?_eq_none]
  simp only [List.mem_map, decide_eq_true_eq, not_exists, not_and]

/-- What is found under a hash is held, behind some entries and before others. -/
theorem split_of_find? {shared : SharedPair} (found : recency.find? hash = some shared) :
    ∃ front back, recency.held = front ++ ⟨hash, shared⟩ :: back := by
  obtain ⟨entry, listed, rfl⟩ := Option.map_eq_some_iff.mp found
  obtain ⟨front, back, split⟩ := List.append_of_mem (List.mem_of_find?_eq_some listed)
  have same := List.find?_some listed
  exact ⟨front, back, by rw [split, ← of_decide_eq_true same]⟩

/-- Where no hash is repeated, the entries under other hashes are all the other entries. -/
theorem filter_hash_ne {front back : List Held} {entry : Held}
    (distinct : ((front ++ entry :: back).map Held.hash).Nodup) :
    (front ++ entry :: back).filter (·.hash ≠ entry.hash) = front ++ back := by
  rw [List.map_append, List.map_cons, List.nodup_middle, ← List.map_append,
    List.nodup_cons] at distinct
  have others : ∀ other ∈ front ++ back, decide (other.hash ≠ entry.hash) = true := by
    intro other member
    exact decide_eq_true fun same => distinct.1 (same ▸ List.mem_map_of_mem member)
  rw [List.filter_append, List.filter_cons_of_neg (by simp), ← List.filter_append]
  exact List.filter_eq_self.mpr others

theorem interns_intern (sound : recency.IsSound) (hash : UInt64) (pair : HeaderPair) :
    recency.Interns hash pair (recency.intern hash pair) := by
  unfold intern
  cases found : recency.find? hash with
  | some shared =>
    obtain ⟨front, back, split⟩ := split_of_find? found
    have others : recency.held.filter (·.hash ≠ hash) = front ++ back := by
      have distinct := sound.distinct
      rw [split] at distinct ⊢
      exact filter_hash_ne distinct
    dsimp only
    split
    · next same =>
      rw [refresh, others]
      exact .again split same
    · next different =>
      dsimp only [allocate]
      rw [refresh, others]
      exact .collided split different
  | none =>
    have unlisted := find?_eq_none_iff.mp found
    dsimp only [allocate]
    unfold add
    split
    · next none => exact .passed none
    · next positive =>
      split
      · next room => exact .added unlisted room
      · next full =>
        have full : recency.held.length = recency.capacity :=
          Nat.le_antisymm sound.bounded (Nat.le_of_not_lt full)
        have more : recency.held ≠ [] := by
          intro nothing
          rw [nothing] at full
          exact positive full.symm
        exact .evicted unlisted full (List.dropLast_concat_getLast more).symm

/-! ### What is kept of every list -/

section Kept

variable {answer : SharedPair × Recency}

theorem IsSound.empty (capacity : Nat) : (Recency.empty capacity).IsSound where
  distinct := List.nodup_nil
  bounded := Nat.zero_le _
  allocated := nofun

theorem IsSound.allocate (sound : recency.IsSound) (pair : HeaderPair) :
    (recency.allocate pair).2.IsSound where
  distinct := sound.distinct
  bounded := sound.bounded
  allocated entry member := Nat.lt_succ_of_lt (sound.allocated entry member)

/-- A pair can be put in front of some of the entries if none of them has its hash. -/
theorem IsSound.inFront {others : List Held} {shared : SharedPair} {allocated : Nat}
    (sound : recency.IsSound) (kept : others.Sublist recency.held)
    (unlisted : hash ∉ others.map Held.hash) (room : others.length < recency.capacity)
    (given : shared.allocation < allocated) (more : recency.allocated ≤ allocated) :
    IsSound ⟨recency.capacity, ⟨hash, shared⟩ :: others, allocated⟩ where
  distinct := List.nodup_cons.mpr ⟨unlisted, sound.distinct.sublist (kept.map Held.hash)⟩
  bounded := room
  allocated := by
    intro entry member
    rcases List.mem_cons.mp member with rfl | member
    · exact given
    · exact Nat.lt_of_lt_of_le (sound.allocated entry (kept.subset member)) more

/-- The entries before and behind one that is held. -/
theorem IsSound.others {front back : List Held} {shared : SharedPair} (sound : recency.IsSound)
    (split : recency.held = front ++ ⟨hash, shared⟩ :: back) :
    (front ++ back).Sublist recency.held ∧ hash ∉ (front ++ back).map Held.hash ∧
      (front ++ back).length < recency.capacity := by
  have distinct := sound.distinct
  have bounded := sound.bounded
  rw [split, List.map_append, List.map_cons, List.nodup_middle, List.nodup_cons,
    ← List.map_append] at distinct
  rw [split, List.length_append, List.length_cons] at bounded
  refine ⟨?_, distinct.1, ?_⟩
  · rw [split]
    exact (List.Sublist.refl front).append (List.sublist_cons_self _ back)
  · rw [List.length_append]
    exact bounded

theorem IsSound.interns (sound : recency.IsSound) (interns : recency.Interns hash pair answer) :
    answer.2.IsSound := by
  have fresh := Nat.lt_succ_self recency.allocated
  cases interns with
  | again split _ =>
    obtain ⟨kept, unlisted, room⟩ := sound.others split
    have given := sound.allocated _ (split ▸ List.mem_append_right _ List.mem_cons_self)
    exact sound.inFront kept unlisted room given (Nat.le_refl _)
  | collided split _ =>
    obtain ⟨kept, unlisted, room⟩ := sound.others split
    exact sound.inFront kept unlisted room fresh (Nat.le_of_lt fresh)
  | passed _ => exact sound.allocate pair
  | added unlisted room =>
    exact sound.inFront (List.Sublist.refl _) unlisted room fresh (Nat.le_of_lt fresh)
  | @evicted front last unlisted full split =>
    have kept : front.Sublist recency.held := split ▸ List.sublist_append_left front [last]
    refine sound.inFront kept (fun listed => unlisted ((kept.map Held.hash).subset listed)) ?_ fresh
      (Nat.le_of_lt fresh)
    rw [← full, split, List.length_append]
    exact Nat.lt_succ_self _

/-- What is returned is the pair asked for, in an allocation that was made before or just now. -/
theorem Interns.returned (interns : recency.Interns hash pair answer) (sound : recency.IsSound) :
    answer.1.pair = pair ∧ answer.1.allocation < answer.2.allocated ∧
      recency.allocated ≤ answer.2.allocated := by
  have fresh := Nat.lt_succ_self recency.allocated
  cases interns with
  | again split same =>
    have given := sound.allocated _ (split ▸ List.mem_append_right _ List.mem_cons_self)
    exact ⟨same, given, Nat.le_refl _⟩
  | collided _ _ => exact ⟨rfl, fresh, Nat.le_of_lt fresh⟩
  | passed _ => exact ⟨rfl, fresh, Nat.le_of_lt fresh⟩
  | added _ _ => exact ⟨rfl, fresh, Nat.le_of_lt fresh⟩
  | evicted _ _ _ => exact ⟨rfl, fresh, Nat.le_of_lt fresh⟩

theorem Interns.capacity (interns : recency.Interns hash pair answer) :
    answer.2.capacity = recency.capacity := by
  cases interns <;> rfl

/-! ### How many pairs are held -/

/-- What is held was seen, and of the hashes seen as many are held as there is room for. -/
structure Covers (recency : Recency) (seen : Finset UInt64) : Prop where
  subset : ∀ hash ∈ recency.held.map Held.hash, hash ∈ seen
  length : recency.held.length = min recency.capacity seen.card

variable {seen : Finset UInt64}

theorem Covers.empty (capacity : Nat) : (Recency.empty capacity).Covers ∅ where
  subset := nofun
  length := (Nat.min_zero _).symm

/-- As long as there is room all the hashes seen are held. -/
theorem Covers.listed (covers : recency.Covers seen) (sound : recency.IsSound)
    (room : recency.held.length < recency.capacity) (member : hash ∈ seen) :
    hash ∈ recency.held.map Held.hash := by
  have card : (recency.held.map Held.hash).toFinset.card = recency.held.length := by
    rw [List.toFinset_card_of_nodup sound.distinct, List.length_map]
  have same : (recency.held.map Held.hash).toFinset = seen := by
    refine Finset.eq_of_subset_of_card_le (fun hash listed => ?_) ?_
    · exact covers.subset hash (List.mem_toFinset.mp listed)
    · have length := covers.length
      omega
  exact List.mem_toFinset.mp (same ▸ member)

/-- With a pair in front of some of the entries, its hash is seen as well. -/
theorem Covers.inFront {others : List Held} {shared : SharedPair} {allocated : Nat}
    (covers : recency.Covers seen) (kept : others.Sublist recency.held)
    (length : others.length + 1 = min recency.capacity (insert hash seen).card) :
    Covers ⟨recency.capacity, ⟨hash, shared⟩ :: others, allocated⟩ (insert hash seen) where
  subset := by
    intro other listed
    rcases List.mem_cons.mp listed with rfl | listed
    · exact Finset.mem_insert_self _ _
    · exact Finset.mem_insert_of_mem (covers.subset other ((kept.map Held.hash).subset listed))
  length := length

theorem Covers.interns (covers : recency.Covers seen) (sound : recency.IsSound)
    (interns : recency.Interns hash pair answer) : answer.2.Covers (insert hash seen) := by
  have grown := Finset.card_le_card (Finset.subset_insert hash seen)
  have length := covers.length
  -- A hash that is listed was seen before, so nothing is added to what was seen.
  have listed {front back : List Held} {shared : SharedPair}
      (split : recency.held = front ++ ⟨hash, shared⟩ :: back) :
      (front ++ back).length + 1 = min recency.capacity (insert hash seen).card := by
    have member : hash ∈ recency.held.map Held.hash := by simp [split]
    rw [Finset.insert_eq_of_mem (covers.subset hash member), ← length, split]
    simp only [List.length_append, List.length_cons]
    rfl
  cases interns with
  | again split _ => exact covers.inFront (sound.others split).1 (listed split)
  | collided split _ => exact covers.inFront (sound.others split).1 (listed split)
  | passed none =>
    have nothing : recency.held = [] := by
      rw [← List.length_eq_zero_iff, length, none, Nat.zero_min]
    refine ⟨by simp [nothing], ?_⟩
    show recency.held.length = min recency.capacity _
    rw [nothing, none, Nat.zero_min, List.length_nil]
  | added unlisted room =>
    have unseen : hash ∉ seen := fun member => unlisted (covers.listed sound room member)
    refine covers.inFront (List.Sublist.refl _) ?_
    rw [Finset.card_insert_of_notMem unseen]
    omega
  | @evicted front last unlisted full split =>
    refine covers.inFront (split ▸ List.sublist_append_left front [last]) ?_
    have dropped : recency.held.length = front.length + 1 := by rw [split, List.length_append]; rfl
    omega

end Kept

/-! ### Any number of pairs -/

theorem IsSound.capacity_internAll (sound : recency.IsSound) (hash : HeaderPair → UInt64)
    (pairs : List HeaderPair) :
    (recency.internAll hash pairs).2.capacity = recency.capacity := by
  induction pairs generalizing recency with
  | nil => rfl
  | cons pair rest inductionHypothesis =>
    have interns := interns_intern sound (hash pair) pair
    exact (inductionHypothesis (sound.interns interns)).trans interns.capacity

/-- After any number of pairs the list is sound, the pairs asked for have been returned, and every
allocation returned was made before. -/
theorem IsSound.internAll (hash : HeaderPair → UInt64) (pairs : List HeaderPair)
    (sound : recency.IsSound) :
    (recency.internAll hash pairs).2.IsSound ∧
      (recency.internAll hash pairs).1.map SharedPair.pair = pairs ∧
      (∀ shared ∈ (recency.internAll hash pairs).1,
        shared.allocation < (recency.internAll hash pairs).2.allocated) ∧
      recency.allocated ≤ (recency.internAll hash pairs).2.allocated := by
  induction pairs generalizing recency with
  | nil => exact ⟨sound, rfl, nofun, Nat.le_refl _⟩
  | cons pair rest inductionHypothesis =>
    have interns := interns_intern sound (hash pair) pair
    obtain ⟨same, made, more⟩ := interns.returned sound
    obtain ⟨kept, pairs, given, grown⟩ := inductionHypothesis (sound.interns interns)
    refine ⟨kept, ?_, ?_, Nat.le_trans more grown⟩
    · exact congrArg₂ List.cons same pairs
    · intro shared member
      rcases List.mem_cons.mp member with rfl | member
      · exact Nat.lt_of_lt_of_le made grown
      · exact given shared member

/-- As many pairs are held as hashes were seen, if there is room for that many. -/
theorem Covers.internAll {seen : Finset UInt64} (hash : HeaderPair → UInt64)
    (pairs : List HeaderPair) (covers : recency.Covers seen) (sound : recency.IsSound) :
    (recency.internAll hash pairs).2.Covers (seen ∪ (pairs.map hash).toFinset) := by
  induction pairs generalizing recency seen with
  | nil =>
    rw [List.map_nil, List.toFinset_nil, Finset.union_empty]
    exact covers
  | cons pair rest inductionHypothesis =>
    have interns := interns_intern sound (hash pair) pair
    have later := inductionHypothesis (covers.interns sound interns) (sound.interns interns)
    rwa [List.map_cons, List.toFinset_cons, Finset.union_insert, ← Finset.insert_union]

end Recency

end Scoresheet
