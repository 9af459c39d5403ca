/-
This file shows that the distance of reuse decides whether a pair is still held. Where different
pairs have different hashes, what is held are the pairs interned last, in the order of their last
use, as many as there is room for. So a pair comes back in the allocation it had before exactly if
fewer other pairs were interned in between than there is room for, and a larger cache shares all
that a smaller one shares.
-/

import Mathlib.Data.Finset.Card
import Scoresheet.Proofs.Interning

namespace Scoresheet

namespace Recency

/-! ### The order of last use -/

/-- The pairs that were interned, without repetitions, the one used last in front. -/
def lastUsed (pairs : List HeaderPair) : List HeaderPair := pairs.dedup.reverse

section LastUsed

variable {pair : HeaderPair} {pairs between : List HeaderPair}

theorem mem_lastUsed : pair ∈ lastUsed pairs ↔ pair ∈ pairs := by
  rw [lastUsed, List.mem_reverse, List.mem_dedup]

theorem nodup_lastUsed (pairs : List HeaderPair) : (lastUsed pairs).Nodup :=
  List.nodup_reverse.mpr (List.nodup_dedup pairs)

theorem dedup_concat (pairs : List HeaderPair) (pair : HeaderPair) :
    (pairs ++ [pair]).dedup = pairs.dedup.erase pair ++ [pair] := by
  induction pairs with
  | nil => rfl
  | cons first rest inductionHypothesis =>
    rw [List.cons_append]
    by_cases again : first ∈ rest
    · rw [List.dedup_cons_of_mem again, List.dedup_cons_of_mem (List.mem_append_left _ again),
        inductionHypothesis]
    · rw [List.dedup_cons_of_notMem again]
      by_cases same : first = pair
      · subst same
        rw [List.dedup_cons_of_mem (List.mem_append_right _ List.mem_cons_self),
          inductionHypothesis, List.erase_cons_head,
          List.erase_of_not_mem (fun listed => again (List.mem_dedup.mp listed))]
      · have unlisted : first ∉ rest ++ [pair] := by simp [again, same]
        rw [List.dedup_cons_of_notMem unlisted, inductionHypothesis,
          List.erase_cons_tail (by simpa using same)]
        rfl

/-- A pair that is used moves to the front. -/
theorem lastUsed_concat (pairs : List HeaderPair) (pair : HeaderPair) :
    lastUsed (pairs ++ [pair]) = pair :: (lastUsed pairs).erase pair := by
  rw [(nodup_lastUsed pairs).erase_eq_filter]
  unfold lastUsed
  rw [dedup_concat, List.reverse_append, List.reverse_singleton, List.singleton_append,
    (List.nodup_dedup pairs).erase_eq_filter, ← List.filter_reverse]

/-- In front of a pair are those that were used since. -/
theorem lastUsed_since (before : List HeaderPair) (unused : pair ∉ between) :
    ∃ behind, lastUsed (before ++ pair :: between) = lastUsed between ++ pair :: behind := by
  obtain ⟨older, split⟩ := List.suffix_union_right before (pair :: between.dedup)
  refine ⟨older.reverse, ?_⟩
  unfold lastUsed
  rw [List.dedup_append, List.dedup_cons_of_notMem unused, ← split]
  simp

/-- A pair is one of those used last if few enough others were used since. -/
theorem mem_take_lastUsed_iff (before : List HeaderPair) (unused : pair ∉ between)
    (capacity : Nat) :
    pair ∈ (lastUsed (before ++ pair :: between)).take capacity ↔
      between.toFinset.card < capacity := by
  obtain ⟨behind, split⟩ := lastUsed_since before unused
  have count : between.toFinset.card = (lastUsed between).length := by
    rw [List.card_toFinset, lastUsed, List.length_reverse]
  have front : pair ∉ (lastUsed between).take capacity := fun listed =>
    unused (mem_lastUsed.mp (List.mem_of_mem_take listed))
  rw [split, List.take_append, List.mem_append, count]
  constructor
  · rintro (listed | listed)
    · exact absurd listed front
    · rcases Nat.lt_or_ge (lastUsed between).length capacity with room | full
      · exact room
      · rw [Nat.sub_eq_zero_of_le full] at listed
        cases listed
  · intro room
    obtain ⟨more, spare⟩ := Nat.exists_eq_succ_of_ne_zero (Nat.sub_ne_zero_of_lt room)
    rw [spare]
    exact .inr List.mem_cons_self

/-- A pair used before was used last at some place. -/
theorem split_of_mem (used : pair ∈ pairs) :
    ∃ before between, pairs = before ++ pair :: between ∧ pair ∉ between := by
  obtain ⟨later, earlier, split, unused⟩ :=
    List.eq_append_cons_of_mem (List.mem_reverse.mpr used)
  refine ⟨earlier.reverse, later.reverse, ?_, fun listed => unused (List.mem_reverse.mp listed)⟩
  rw [← pairs.reverse_reverse, split]
  simp

theorem take_erase (pairs : List HeaderPair) (pair : HeaderPair) (count : Nat) :
    (pairs.erase pair).take count = ((pairs.take (count + 1)).erase pair).take count := by
  induction pairs generalizing count with
  | nil => rfl
  | cons first rest inductionHypothesis =>
    rw [List.take_succ_cons]
    by_cases same : first = pair
    · subst same
      rw [List.erase_cons_head, List.erase_cons_head, List.take_take, Nat.min_self]
    · have other : ¬ (first == pair) = true := by simpa using same
      rw [List.erase_cons_tail other, List.erase_cons_tail other]
      cases count with
      | zero => rfl
      | succ count => rw [List.take_succ_cons, List.take_succ_cons, inductionHypothesis]

end LastUsed

/-! ### What is held is what was used last -/

/-- What is held are the pairs that were interned last, as many as there is room for, each under its
hash. -/
structure Follows (hash : HeaderPair → UInt64) (recency : Recency) (pairs : List HeaderPair) :
    Prop where
  sound : recency.IsSound
  held : recency.held.map (·.shared.pair) = (lastUsed pairs).take recency.capacity
  filed : ∀ entry ∈ recency.held, entry.hash = hash entry.shared.pair

theorem Follows.empty (hash : HeaderPair → UInt64) (capacity : Nat) :
    (Recency.empty capacity).Follows hash [] where
  sound := .empty capacity
  held := List.take_nil.symm
  filed := nofun

section Step

variable {hash : HeaderPair → UInt64} {recency : Recency} {pairs : List HeaderPair}
  {pair : HeaderPair}

theorem Follows.mem (follows : recency.Follows hash pairs) {entry : Held}
    (member : entry ∈ recency.held) : entry.shared.pair ∈ pairs := by
  have listed : entry.shared.pair ∈ recency.held.map (·.shared.pair) := List.mem_map_of_mem member
  rw [follows.held] at listed
  exact mem_lastUsed.mp (List.mem_of_mem_take listed)

/-- A pair is held under its hash or not at all. -/
theorem Follows.unheld (follows : recency.Follows hash pairs)
    (unlisted : hash pair ∉ recency.held.map Held.hash) :
    pair ∉ (lastUsed pairs).take recency.capacity := by
  rw [← follows.held]
  intro listed
  obtain ⟨entry, member, rfl⟩ := List.mem_map.mp listed
  exact unlisted (List.mem_map.mpr ⟨entry, member, follows.filed entry member⟩)

/-- Under the hash of a pair there is no other one. -/
theorem Follows.same (follows : recency.Follows hash pairs)
    (apart : ∀ other ∈ pairs, hash other = hash pair → other = pair) {entry : Held}
    (member : entry ∈ recency.held) (filed : entry.hash = hash pair) :
    entry.shared.pair = pair :=
  apart _ (follows.mem member) ((follows.filed entry member).symm.trans filed)

/-- The pairs used last, with one more in front. -/
theorem Follows.take_concat (follows : recency.Follows hash pairs) (pair : HeaderPair)
    {count : Nat} (capacity : recency.capacity = count + 1) :
    (lastUsed (pairs ++ [pair])).take recency.capacity =
      pair :: ((recency.held.map (·.shared.pair)).erase pair).take count := by
  rw [follows.held, lastUsed_concat, capacity, List.take_succ_cons, ← take_erase]

theorem Follows.nodup (follows : recency.Follows hash pairs) :
    (recency.held.map (·.shared.pair)).Nodup := by
  rw [follows.held]
  exact (nodup_lastUsed pairs).sublist (List.take_sublist recency.capacity _)

/-- Without one of the pairs that are held those around it are left. -/
theorem Follows.erase (follows : recency.Follows hash pairs) {front back : List Held} {entry : Held}
    (split : recency.held = front ++ entry :: back) :
    (recency.held.map (·.shared.pair)).erase entry.shared.pair =
      (front ++ back).map (·.shared.pair) := by
  have distinct := follows.nodup
  rw [split, List.map_append, List.map_cons] at distinct ⊢
  have apart := (List.nodup_append.mp distinct).2.2
  have before : entry.shared.pair ∉ front.map (·.shared.pair) := fun listed =>
    apart _ listed _ List.mem_cons_self rfl
  rw [List.erase_append_right _ before, List.erase_cons_head, List.map_append]

theorem Follows.intern (follows : recency.Follows hash pairs)
    (apart : ∀ other ∈ pairs, hash other = hash pair → other = pair) :
    (recency.intern (hash pair) pair).2.Follows hash (pairs ++ [pair]) := by
  have interns := interns_intern follows.sound (hash pair) pair
  have sound := follows.sound.interns interns
  have bounded := follows.sound.bounded
  have filed := follows.filed
  have unheld (unlisted : hash pair ∉ recency.held.map Held.hash) :
      pair ∉ recency.held.map (·.shared.pair) := follows.held ▸ follows.unheld unlisted
  revert interns sound
  generalize recency.intern (hash pair) pair = answer
  intro interns sound
  cases interns with
  | @again front back shared split same =>
    rw [split] at bounded filed
    obtain ⟨count, capacity⟩ : ∃ count, recency.capacity = count + 1 :=
      Nat.exists_eq_succ_of_ne_zero (by simp at bounded; omega)
    have others : (recency.held.map (·.shared.pair)).erase pair =
        (front ++ back).map (·.shared.pair) := same ▸ follows.erase split
    refine ⟨sound, ?_, ?_⟩
    · refine Eq.trans ?_ (follows.take_concat pair capacity).symm
      rw [others, List.take_of_length_le (by simp at bounded ⊢; omega), ← same]
      rfl
    · intro entry member
      rcases List.mem_cons.mp member with rfl | member
      · exact congrArg hash same.symm
      · exact filed entry (by simp at member ⊢; tauto)
  | @collided front back shared split different =>
    exact absurd (follows.same apart (split ▸ List.mem_append_right _ List.mem_cons_self) rfl)
      different
  | passed none =>
    have nothing : recency.held = [] := List.length_eq_zero_iff.mp (by omega)
    refine ⟨sound, ?_, filed⟩
    show recency.held.map _ = (lastUsed _).take recency.capacity
    rw [nothing, none]
    rfl
  | added unlisted room =>
    obtain ⟨count, capacity⟩ : ∃ count, recency.capacity = count + 1 :=
      Nat.exists_eq_succ_of_ne_zero (by omega)
    refine ⟨sound, ?_, List.forall_mem_cons.mpr ⟨rfl, filed⟩⟩
    refine Eq.trans ?_ (follows.take_concat pair capacity).symm
    rw [List.erase_of_not_mem (unheld unlisted), List.take_of_length_le (by simp; omega)]
    rfl
  | @evicted front last unlisted full split =>
    have dropped : recency.held.length = front.length + 1 := by rw [split, List.length_append]; rfl
    refine ⟨sound, ?_, List.forall_mem_cons.mpr ⟨rfl, fun entry member => filed entry ?_⟩⟩
    · refine Eq.trans ?_ (follows.take_concat pair (full.symm.trans dropped)).symm
      rw [List.erase_of_not_mem (unheld unlisted), split, List.map_append,
        List.take_left' (List.length_map _)]
      rfl
    · rw [split]
      exact List.mem_append_left _ member

/-! ### What is handed back -/

/-- What was handed back under a hash is what is held there, if anything is. -/
def Remembers (hash : UInt64) (shared : SharedPair) (recency : Recency) : Prop :=
  ∀ entry ∈ recency.held, entry.hash = hash → entry.shared = shared

/-- What is handed back for a pair is held under its hash, if anything is. -/
theorem Interns.remembers {hash : UInt64} {answer : SharedPair × Recency}
    (interns : recency.Interns hash pair answer) (sound : recency.IsSound) :
    answer.2.Remembers hash answer.1 := by
  have distinct := (sound.interns interns).distinct
  have front {others : List Held} {shared : SharedPair}
      (distinct : ((⟨hash, shared⟩ :: others).map Held.hash).Nodup) :
      ∀ entry ∈ (⟨hash, shared⟩ : Held) :: others, entry.hash = hash → entry.shared = shared := by
    intro entry member filed
    rcases List.mem_cons.mp member with rfl | member
    · rfl
    · exact absurd (List.mem_map.mpr ⟨entry, member, filed⟩) (List.nodup_cons.mp distinct).1
  cases interns with
  | again _ _ => exact front distinct
  | collided _ _ => exact front distinct
  | passed none =>
    have nothing : recency.held = [] := List.length_eq_zero_iff.mp (by have := sound.bounded; omega)
    intro entry member
    rw [show entry ∈ _ ↔ entry ∈ recency.held from Iff.rfl, nothing] at member
    cases member
  | added _ _ => exact front distinct
  | evicted _ _ _ => exact front distinct

/-- What is held under other hashes was held before. -/
theorem Remembers.interns {hash other : UInt64} {shared : SharedPair}
    {answer : SharedPair × Recency} (remembers : recency.Remembers hash shared)
    (interns : recency.Interns other pair answer) (apart : other ≠ hash) :
    answer.2.Remembers hash shared := by
  have front {others : List Held} {newer : SharedPair} (kept : others ⊆ recency.held) :
      ∀ entry ∈ (⟨other, newer⟩ : Held) :: others, entry.hash = hash → entry.shared = shared := by
    intro entry member filed
    rcases List.mem_cons.mp member with rfl | member
    · exact absurd filed apart
    · exact remembers entry (kept member) filed
  cases interns with
  | again split _ => exact front (by rw [split]; simp)
  | collided split _ => exact front (by rw [split]; simp)
  | passed _ => exact remembers
  | added _ _ => exact front (List.Subset.refl _)
  | evicted _ _ split => exact front (by rw [split]; simp)

/-- A pair that is held comes back as it is, and one that is not held is allocated. -/
theorem Follows.returned (follows : recency.Follows hash pairs) (pair : HeaderPair)
    (apart : ∀ other ∈ pairs, hash other = hash pair → other = pair) :
    (pair ∈ (lastUsed pairs).take recency.capacity →
        ∀ shared, recency.Remembers (hash pair) shared →
          (recency.intern (hash pair) pair).1 = shared) ∧
      (pair ∉ (lastUsed pairs).take recency.capacity →
        (recency.intern (hash pair) pair).1.allocation = recency.allocated) := by
  have interns := interns_intern follows.sound (hash pair) pair
  have unheld (unlisted : hash pair ∉ recency.held.map Held.hash) :
      pair ∉ (lastUsed pairs).take recency.capacity := follows.unheld unlisted
  revert interns
  generalize recency.intern (hash pair) pair = answer
  intro interns
  cases interns with
  | @again front back shared split same =>
    have member : ⟨hash pair, shared⟩ ∈ recency.held :=
      split ▸ List.mem_append_right _ List.mem_cons_self
    refine ⟨fun _ shared remembers => remembers _ member rfl, fun missing => absurd ?_ missing⟩
    rw [← follows.held, ← same]
    exact List.mem_map_of_mem member
  | collided split different =>
    exact absurd (follows.same apart (split ▸ List.mem_append_right _ List.mem_cons_self) rfl)
      different
  | passed none =>
    refine ⟨fun listed => ?_, fun _ => rfl⟩
    rw [none] at listed
    cases listed
  | added unlisted _ => exact ⟨fun listed => absurd listed (unheld unlisted), fun _ => rfl⟩
  | evicted unlisted _ _ => exact ⟨fun listed => absurd listed (unheld unlisted), fun _ => rfl⟩

end Step

/-! ### Any number of pairs -/

section All

variable {hash : HeaderPair → UInt64} {recency : Recency} {pairs : List HeaderPair}
  {pair : HeaderPair} {capacity : Nat}

/-- What is handed back for pairs interned one after the other, and the list behind them. -/
theorem internAll_append (hash : HeaderPair → UInt64) (pairs more : List HeaderPair)
    (recency : Recency) :
    recency.internAll hash (pairs ++ more) =
      ((recency.internAll hash pairs).1 ++ ((recency.internAll hash pairs).2.internAll hash more).1,
        ((recency.internAll hash pairs).2.internAll hash more).2) := by
  induction pairs generalizing recency with
  | nil => rfl
  | cons pair rest inductionHypothesis =>
    exact congrArg (fun later => ((recency.intern (hash pair) pair).1 :: later.1, later.2))
      (inductionHypothesis _)

theorem Follows.internAll (follows : recency.Follows hash pairs) (more : List HeaderPair)
    (distinct : Set.InjOn hash {pair | pair ∈ pairs ++ more}) :
    (recency.internAll hash more).2.Follows hash (pairs ++ more) := by
  induction more generalizing recency pairs with
  | nil => rwa [List.append_nil]
  | cons pair rest inductionHypothesis =>
    have apart : ∀ other ∈ pairs, hash other = hash pair → other = pair := fun other member =>
      distinct (List.mem_append_left _ member) (List.mem_append_right _ List.mem_cons_self)
    rw [List.append_cons] at distinct ⊢
    exact inductionHypothesis (follows.intern apart) distinct

/-- While other pairs are interned, a pair is remembered. -/
theorem Remembers.internAll {shared : SharedPair} (remembers : recency.Remembers (hash pair) shared)
    (sound : recency.IsSound) (apart : ∀ other ∈ pairs, hash other ≠ hash pair) :
    (recency.internAll hash pairs).2.Remembers (hash pair) shared := by
  induction pairs generalizing recency with
  | nil => exact remembers
  | cons other rest inductionHypothesis =>
    have interns := interns_intern sound (hash other) other
    obtain ⟨different, apart⟩ := List.forall_mem_cons.mp apart
    exact inductionHypothesis (remembers.interns interns different) (sound.interns interns) apart

/-- The numbers of the allocations that are handed back for pairs interned one after the other. -/
def allocations (hash : HeaderPair → UInt64) (pairs : List HeaderPair) (recency : Recency) :
    List Nat :=
  (recency.internAll hash pairs).1.map SharedPair.allocation

theorem allocations_append (hash : HeaderPair → UInt64) (pairs more : List HeaderPair)
    (recency : Recency) :
    recency.allocations hash (pairs ++ more) =
      recency.allocations hash pairs ++ (recency.internAll hash pairs).2.allocations hash more := by
  unfold allocations
  rw [internAll_append, List.map_append]

theorem allocations_cons (hash : HeaderPair → UInt64) (pair : HeaderPair)
    (rest : List HeaderPair) (recency : Recency) :
    recency.allocations hash (pair :: rest) =
      (recency.intern (hash pair) pair).1.allocation ::
        (recency.intern (hash pair) pair).2.allocations hash rest := rfl

theorem length_allocations (hash : HeaderPair → UInt64) (pairs : List HeaderPair)
    (recency : Recency) : (recency.allocations hash pairs).length = pairs.length := by
  induction pairs generalizing recency with
  | nil => rfl
  | cons pair rest inductionHypothesis =>
    rw [allocations_cons, List.length_cons, List.length_cons, inductionHypothesis]

/-- A pair comes back in the allocation it had before exactly if few enough others were interned in
between. -/
theorem Follows.reuse {between : List HeaderPair} (follows : recency.Follows hash pairs)
    (distinct : Set.InjOn hash {other | other ∈ pairs ++ pair :: (between ++ [pair])})
    (unused : pair ∉ between) :
    (((recency.intern (hash pair) pair).2.internAll hash between).2.intern (hash pair)
        pair).1.allocation = (recency.intern (hash pair) pair).1.allocation ↔
      between.toFinset.card < recency.capacity := by
  have apart : ∀ other ∈ pairs ++ pair :: (between ++ [pair]),
      hash other = hash pair → other = pair := fun other member => distinct member (by simp)
  have interns := interns_intern follows.sound (hash pair) pair
  have used := follows.intern fun other member => apart other (List.mem_append_left _ member)
  have later := used.internAll between
    (distinct.mono fun other member => by simp at member ⊢; tauto)
  have others : ∀ other ∈ between, hash other ≠ hash pair := by
    intro other member same
    have listed : other ∈ pairs ++ pair :: (between ++ [pair]) := by simp [member]
    exact unused (apart other listed same ▸ member)
  have remembers := (interns.remembers follows.sound).internAll used.sound others
  have capacity := (used.sound.capacity_internAll hash between).trans interns.capacity
  obtain ⟨again, fresh⟩ := later.returned pair fun other member =>
    apart other (by simp at member ⊢; tauto)
  rw [List.append_assoc, List.singleton_append, capacity] at again fresh
  rw [← mem_take_lastUsed_iff pairs unused]
  refine ⟨fun same => ?_, fun held => congrArg SharedPair.allocation (again held _ remembers)⟩
  by_contra missing
  have made := (interns.returned follows.sound).2.1
  have more := (used.sound.internAll hash between).2.2.2
  rw [fresh missing] at same
  omega

/-- The distance of reuse decides: of two places at which a pair is interned, with none in between
at which it is, the second one has the allocation of the first exactly if the different pairs in
between are fewer than the capacity. -/
def ReusesWithin (capacity : Nat) (pairs : List HeaderPair) (allocations : List Nat) : Prop :=
  ∀ before pair between after, pairs = before ++ pair :: (between ++ pair :: after) →
    pair ∉ between →
      (allocations[before.length]? = allocations[before.length + (between.length + 1)]? ↔
        between.toFinset.card < capacity)

theorem reusesWithin_allocations (capacity : Nat)
    (distinct : Set.InjOn hash {pair | pair ∈ pairs}) :
    ReusesWithin capacity pairs ((Recency.empty capacity).allocations hash pairs) := by
  rintro before pair between after rfl unused
  have start := IsSound.empty capacity
  have follows := (Follows.empty hash capacity).internAll before
    (distinct.mono fun other member => by simp at member ⊢; tauto)
  have reuse := follows.reuse (distinct.mono fun other member => by simp at member ⊢; tauto) unused
  have room : ((Recency.empty capacity).internAll hash before).2.capacity = capacity :=
    start.capacity_internAll hash before
  rw [room] at reuse
  rw [← reuse, allocations_append, allocations_cons, allocations_append, allocations_cons,
    List.getElem?_append_right (by rw [length_allocations]),
    List.getElem?_append_right (by rw [length_allocations]; omega), length_allocations,
    Nat.sub_self, Nat.add_sub_cancel_left, List.getElem?_cons_zero, List.getElem?_cons_succ,
    List.getElem?_append_right (by rw [length_allocations]), length_allocations, Nat.sub_self,
    List.getElem?_cons_zero, Option.some_inj]
  exact eq_comm

/-- Wherever there are two places with the same allocation there is one allocation for both in the
other list as well. -/
def SharesAll (allocations others : List Nat) : Prop :=
  ∀ first second, first < allocations.length → second < allocations.length →
    allocations[first]? = allocations[second]? → others[first]? = others[second]?

theorem SharesAll.concat {allocations others : List Nat} {last last' : Nat}
    (shares : SharesAll allocations others) (same : allocations.length = others.length)
    (sharing : ∀ place : Nat, allocations[place]? = some last → others[place]? = some last') :
    SharesAll (allocations ++ [last]) (others ++ [last']) := by
  have ends : (others ++ [last'])[allocations.length]? = some last' := by
    rw [same, List.getElem?_concat_length]
  have earlier {place : Nat} (within : place < allocations.length) :
      (allocations ++ [last])[place]? = allocations[place]? ∧
        (others ++ [last'])[place]? = others[place]? :=
    ⟨List.getElem?_append_left within, List.getElem?_append_left (same ▸ within)⟩
  intro first second
  rw [List.length_append, List.length_singleton, Nat.lt_succ_iff_lt_or_eq,
    Nat.lt_succ_iff_lt_or_eq]
  rintro (first | rfl) (second | rfl)
  · rw [(earlier first).1, (earlier first).2, (earlier second).1, (earlier second).2]
    exact shares _ _ first second
  · rw [(earlier first).1, (earlier first).2, List.getElem?_concat_length, ends]
    exact sharing _
  · rw [(earlier second).1, (earlier second).2, List.getElem?_concat_length, ends]
    exact fun same => (sharing _ same.symm).symm
  · exact fun _ => rfl

theorem allocations_concat (hash : HeaderPair → UInt64) (pairs : List HeaderPair)
    (pair : HeaderPair) (recency : Recency) :
    recency.allocations hash (pairs ++ [pair]) =
      recency.allocations hash pairs ++
        [((recency.internAll hash pairs).2.intern (hash pair) pair).1.allocation] := by
  rw [allocations_append, allocations_cons]
  rfl

/-- If the allocation of a pair was handed back before, the pair was interned before, and few enough
others since. -/
theorem reused_of_mem (capacity : Nat) (distinct : Set.InjOn hash {other | other ∈ pairs ++ [pair]})
    (before : (((Recency.empty capacity).internAll hash pairs).2.intern (hash pair)
      pair).1.allocation ∈ (Recency.empty capacity).allocations hash pairs) :
    ∃ earlier between, pairs = earlier ++ pair :: between ∧ pair ∉ between ∧
      between.toFinset.card < capacity := by
  have start := IsSound.empty capacity
  have follows := (Follows.empty hash capacity).internAll pairs
    (distinct.mono fun other member => List.mem_append_left _ member)
  have room : ((Recency.empty capacity).internAll hash pairs).2.capacity = capacity :=
    start.capacity_internAll hash pairs
  by_cases held : pair ∈ (lastUsed pairs).take capacity
  · obtain ⟨earlier, between, rfl, unused⟩ :=
      split_of_mem (mem_lastUsed.mp (List.mem_of_mem_take held))
    exact ⟨earlier, between, rfl, unused, (mem_take_lastUsed_iff earlier unused capacity).mp held⟩
  · have fresh := (follows.returned pair fun other member =>
      distinct (List.mem_append_left _ member) (by simp)).2
    rw [List.nil_append, room] at fresh
    obtain ⟨shared, member, same⟩ := List.mem_map.mp before
    have made := (start.internAll hash pairs).2.2.1 shared member
    rw [same, fresh held] at made
    exact absurd made (Nat.lt_irrefl _)

theorem sharesAll_allocations {larger : Nat} (le : capacity ≤ larger)
    (distinct : Set.InjOn hash {pair | pair ∈ pairs}) :
    SharesAll ((Recency.empty capacity).allocations hash pairs)
      ((Recency.empty larger).allocations hash pairs) := by
  induction pairs using List.reverseRecOn with
  | nil => exact nofun
  | append_singleton pairs pair inductionHypothesis =>
    have earlier := inductionHypothesis (distinct.mono fun other => List.mem_append_left _)
    have reuses := reusesWithin_allocations capacity distinct
    have reuses' := reusesWithin_allocations larger distinct
    have reused := reused_of_mem capacity distinct
    have count := length_allocations hash pairs (Recency.empty capacity)
    have count' := length_allocations hash pairs (Recency.empty larger)
    rw [allocations_concat] at reuses reuses' ⊢
    rw [allocations_concat]
    generalize (Recency.empty capacity).allocations hash pairs = before at *
    generalize (Recency.empty larger).allocations hash pairs = before' at *
    generalize SharedPair.allocation _ = last at reuses reused ⊢
    generalize SharedPair.allocation _ = last' at reuses' ⊢
    -- The place before the last at which the pair was interned has its allocation in both lists.
    refine SharesAll.concat earlier (count.trans count'.symm) fun place same => ?_
    obtain ⟨front, between, rfl, unused, room⟩ := reused (List.mem_of_getElem? same)
    rw [List.length_append, List.length_cons] at count count'
    have reuse := (reuses front pair between [] (by simp) unused).mpr room
    have reuse' := (reuses' front pair between [] (by simp) unused).mpr (by omega)
    rw [← count, List.getElem?_concat_length, List.getElem?_append_left (by omega)] at reuse
    rw [← count', List.getElem?_concat_length, List.getElem?_append_left (by omega)] at reuse'
    rw [← reuse']
    have within := (List.getElem?_eq_some_iff.mp same).1
    exact earlier place front.length within (by omega) (same.trans reuse.symm)

end All

end Recency

end Scoresheet
