/-
This file shows that the cache of header pairs works as a bounded list with the pair used last in
front. Whatever function gives the hashes, a cache represents such a list after every pair that is
interned, and returns the same as the list.
-/

import Scoresheet.Proofs.Arena

namespace Scoresheet.Cache

/-- The slots, taken in the given order, hold the entries of a list. Every slot occurs in the order,
and the index gives the slot of each hash that is held. -/
structure Represents (cache : Cache) (order : List Nat) (recency : Recency) : Prop where
  capacity : cache.capacity = recency.capacity
  allocated : cache.allocated = recency.allocated
  linked : cache.Linked order
  complete : ∀ slot, slot < cache.slots.size → slot ∈ order
  entries : order.map cache.heldAt? = recency.held.map some
  index : ∀ hash slot,
    cache.index[hash]? = some slot ↔ (cache.heldAt? slot).map Held.hash = some hash
  sound : recency.IsSound

/-- Two caches that hold the same in the same slots, and differ in the order of use at most. -/
structure Reordered (cache after : Cache) : Prop where
  capacity : after.capacity = cache.capacity
  allocated : after.allocated = cache.allocated
  index : after.index = cache.index
  size : after.slots.size = cache.slots.size
  entries : after.heldAt? = cache.heldAt?

variable {cache after : Cache} {order : List Nat} {recency : Recency} {hash : UInt64}
  {pair : HeaderPair} {shared : SharedPair} {slot : Nat}

/-! ### Entries -/

theorem heldAt?_modify_of_kept (change : Slot → Slot)
    (kept : ∀ held, (change held).hash = held.hash ∧ (change held).shared = held.shared) :
    (cache.modify slot change).heldAt? = cache.heldAt? := by
  funext other
  simp only [heldAt?, modify, Array.getElem?_modify]
  split
  · cases cache.slots[other]? with
    | none => rfl
    | some held => simp only [Option.map_some, (kept held).1, (kept held).2]
  · rfl

theorem heldAt?_modify_of_set {entry : Held} (change : Slot → Slot)
    (set : ∀ held, cache.slots[slot]? = some held →
      (change held).hash = entry.hash ∧ (change held).shared = entry.shared)
    (present : slot < cache.slots.size) :
    (cache.modify slot change).heldAt? = Function.update cache.heldAt? slot (some entry) := by
  funext other
  simp only [heldAt?, modify, Array.getElem?_modify]
  split
  · next same =>
    subst same
    have found := Array.getElem?_eq_getElem present
    rw [Function.update_self, found, Option.map_some, Option.map_some, (set _ found).1,
      (set _ found).2]
  · next different => rw [Function.update_of_ne (Ne.symm different)]; rfl

theorem heldAt?_push {held : Slot} :
    heldAt? { cache with slots := cache.slots.push held } =
      Function.update cache.heldAt? cache.slots.size (some ⟨held.hash, held.shared⟩) := by
  funext other
  simp only [heldAt?, Array.getElem?_push]
  split
  · next same => rw [same, Function.update_self]; rfl
  · next different => rw [Function.update_of_ne different]; rfl

/-! ### Moving a slot to the front -/

theorem Reordered.trans {last : Cache} (first : Reordered cache after)
    (second : Reordered after last) : Reordered cache last where
  capacity := second.capacity.trans first.capacity
  allocated := second.allocated.trans first.allocated
  index := second.index.trans first.index
  size := second.size.trans first.size
  entries := second.entries.trans first.entries

theorem Reordered.modify (slot : Nat) (change : Slot → Slot)
    (kept : ∀ held, (change held).hash = held.hash ∧ (change held).shared = held.shared) :
    Reordered cache (cache.modify slot change) where
  capacity := rfl
  allocated := rfl
  index := rfl
  size := Array.size_modify
  entries := heldAt?_modify_of_kept change kept

theorem Reordered.unlink (slot : Nat) (cache : Cache) : Reordered cache (cache.unlink slot) := by
  unfold Cache.unlink
  split
  · exact ⟨rfl, rfl, rfl, rfl, rfl⟩
  · next links _ =>
    have second {first : Cache} (same : Reordered cache first) :
        Reordered cache { first with oldest := links.newer } ∧
          ∀ older, Reordered cache (first.modify older ({ · with newer := links.newer })) :=
      ⟨same.trans ⟨rfl, rfl, rfl, rfl, rfl⟩,
        fun older => same.trans (.modify older _ fun _ => ⟨rfl, rfl⟩)⟩
    dsimp only
    cases links.older with
    | none =>
      refine (second ?_).1
      split
      · exact ⟨rfl, rfl, rfl, rfl, rfl⟩
      · exact .modify _ _ fun _ => ⟨rfl, rfl⟩
    | some older =>
      refine (second ?_).2 older
      split
      · exact ⟨rfl, rfl, rfl, rfl, rfl⟩
      · exact .modify _ _ fun _ => ⟨rfl, rfl⟩

theorem Reordered.pushNewest (slot : Nat) (cache : Cache) :
    Reordered cache (cache.pushNewest slot) := by
  have first : Reordered cache
      (cache.modify slot ({ · with newer := none, older := cache.newest })) :=
    .modify _ _ fun _ => ⟨rfl, rfl⟩
  cases newest : cache.newest with
  | none =>
    unfold Cache.pushNewest
    rw [newest] at first ⊢
    exact first.trans ⟨rfl, rfl, rfl, rfl, rfl⟩
  | some newest' =>
    have second := first.trans (.modify newest' ({ · with newer := some slot })
      fun _ => ⟨rfl, rfl⟩)
    unfold Cache.pushNewest
    rw [newest] at second ⊢
    exact second.trans ⟨rfl, rfl, rfl, rfl, rfl⟩

/-! ### What a list says about the arena -/

/-- An entry of the list lies in a slot, at the same place of the order. -/
theorem Represents.split (represents : cache.Represents order recency) {front back : List Held}
    {entry : Held} (split : recency.held = front ++ entry :: back) :
    ∃ newer slot older, order = newer ++ slot :: older ∧ newer.map cache.heldAt? = front.map some ∧
      cache.heldAt? slot = some entry ∧ older.map cache.heldAt? = back.map some := by
  have entries := represents.entries
  rw [split, List.map_append, List.map_cons] at entries
  obtain ⟨newer, rest, rfl, before, entries⟩ := List.map_eq_append_iff.mp entries
  obtain ⟨slot, older, rfl, found, behind⟩ := List.map_eq_cons_iff.mp entries
  exact ⟨newer, slot, older, rfl, before, found, behind⟩

theorem Represents.size (represents : cache.Represents order recency) :
    cache.slots.size = recency.held.length := by
  have same : order.Perm (List.range cache.slots.size) := by
    refine (List.perm_ext_iff_of_nodup represents.linked.distinct List.nodup_range).mpr
      fun slot => ?_
    rw [List.mem_range]
    exact ⟨represents.linked.present slot, represents.complete slot⟩
  have lengths := congrArg List.length represents.entries
  rw [List.length_map, List.length_map] at lengths
  rw [← lengths, same.length_eq, List.length_range]

/-- A cache that holds a pair has room for one. -/
theorem Represents.positive (represents : cache.Represents order recency) {front back : List Held}
    {entry : Held} (split : recency.held = front ++ entry :: back) : cache.capacity ≠ 0 := by
  have bounded := represents.sound.bounded
  rw [split, List.length_append, List.length_cons] at bounded
  rw [represents.capacity]
  omega

/-- A hash that is not listed is not in the index. -/
theorem Represents.index_eq_none (represents : cache.Represents order recency)
    (unlisted : hash ∉ recency.held.map Held.hash) : cache.index[hash]? = none := by
  cases indexed : cache.index[hash]? with
  | none => rfl
  | some slot =>
    obtain ⟨entry, found, same⟩ :=
      Option.map_eq_some_iff.mp ((represents.index hash slot).mp indexed)
    have present : slot < cache.slots.size := by
      by_contra absent
      rw [heldAt?, Array.getElem?_eq_none (Nat.le_of_not_lt absent)] at found
      cases found
    have listed : some entry ∈ recency.held.map some := by
      rw [← represents.entries, ← found]
      exact List.mem_map_of_mem (represents.complete slot present)
    exact absurd (List.mem_map.mpr ⟨entry, by simpa using listed, same⟩) unlisted

theorem map_update_of_notMem {rest : List Nat} (apart : slot ∉ rest) (entries : Nat → Option Held)
    (entry : Option Held) :
    rest.map (Function.update entries slot entry) = rest.map entries :=
  List.map_congr_left fun other member =>
    Function.update_of_ne (fun same : other = slot => apart (same ▸ member)) _ _

/-! ### What each way of interning does -/

theorem Represents.allocate (represents : cache.Represents order recency) (pair : HeaderPair) :
    (cache.allocate pair).1 = (recency.allocate pair).1 ∧
      (cache.allocate pair).2.Represents order (recency.allocate pair).2 := by
  obtain ⟨capacity, allocated, linked, complete, entries, index, sound⟩ := represents
  refine ⟨congrArg (SharedPair.mk pair) allocated, capacity, congrArg Nat.succ allocated, ?_,
    complete, entries, index, sound.allocate pair⟩
  exact ⟨linked.distinct, linked.present, linked.forwards, linked.backwards⟩

/-- A slot outside the order of use is put in front, and its entry comes before the others. -/
theorem represents_pushNewest {entry : Held} {others : List Held} (linked : cache.Linked order)
    (present : slot < cache.slots.size) (apart : slot ∉ order)
    (complete : ∀ other, other < cache.slots.size → other = slot ∨ other ∈ order)
    (found : cache.heldAt? slot = some entry) (entries : order.map cache.heldAt? = others.map some)
    (index : ∀ hash slot,
      cache.index[hash]? = some slot ↔ (cache.heldAt? slot).map Held.hash = some hash)
    (sound : Recency.IsSound ⟨cache.capacity, entry :: others, cache.allocated⟩) :
    (cache.pushNewest slot).Represents (slot :: order)
      ⟨cache.capacity, entry :: others, cache.allocated⟩ := by
  have same := Reordered.pushNewest slot cache
  refine ⟨same.capacity, same.allocated, linked.pushNewest present apart, ?_, ?_, ?_, sound⟩
  · rw [same.size]
    exact fun other here => List.mem_cons.mpr (complete other here)
  · rw [same.entries, List.map_cons, found, entries]
    rfl
  · rw [same.index, same.entries]
    exact index

/-- Moving a slot to the front moves its entry to the front of the list. -/
theorem Represents.moved {newer older : List Nat} {front back : List Held} {entry : Held}
    (represents : cache.Represents (newer ++ slot :: older) recency)
    (before : newer.map cache.heldAt? = front.map some) (found : cache.heldAt? slot = some entry)
    (behind : older.map cache.heldAt? = back.map some)
    (sound : Recency.IsSound ⟨recency.capacity, entry :: (front ++ back), recency.allocated⟩) :
    ((cache.unlink slot).pushNewest slot).Represents (slot :: (newer ++ older))
      ⟨recency.capacity, entry :: (front ++ back), recency.allocated⟩ := by
  have same := Reordered.unlink slot cache
  have apart := (List.nodup_cons.mp (List.nodup_middle.mp represents.linked.distinct)).1
  rw [← represents.capacity, ← represents.allocated, ← same.capacity, ← same.allocated] at sound ⊢
  refine represents_pushNewest represents.linked.unlink ?_ apart ?_ ?_ ?_ ?_ sound
  · rw [same.size]
    exact represents.linked.present slot (List.mem_append_right _ List.mem_cons_self)
  · rw [same.size]
    intro other present
    exact List.mem_cons.mp (List.perm_middle.mem_iff.mp (represents.complete other present))
  · rw [same.entries, found]
  · rw [same.entries, List.map_append, before, behind, List.map_append]
  · rw [same.index, same.entries]
    exact represents.index

/-- Another pair is put into the place of the first one. -/
theorem Represents.rewritten {rest : List Nat} {others : List Held} {old : SharedPair}
    {capacity allocated : Nat}
    (represents : cache.Represents (slot :: rest) ⟨capacity, ⟨hash, old⟩ :: others, allocated⟩)
    (sound : Recency.IsSound ⟨capacity, ⟨hash, shared⟩ :: others, allocated⟩) :
    (cache.modify slot ({ · with shared })).Represents (slot :: rest)
      ⟨capacity, ⟨hash, shared⟩ :: others, allocated⟩ := by
  obtain ⟨found, entries⟩ := List.cons.inj represents.entries
  have present := represents.linked.present slot List.mem_cons_self
  have stored : (cache.modify slot ({ · with shared })).heldAt? =
      Function.update cache.heldAt? slot (some ⟨hash, shared⟩) := by
    refine heldAt?_modify_of_set _ (fun held listed => ⟨?_, rfl⟩) present
    rw [heldAt?, listed] at found
    exact congrArg Held.hash (Option.some.inj found)
  refine ⟨represents.capacity, represents.allocated, represents.linked.modify _ fun _ => ⟨rfl, rfl⟩,
    ?_, ?_, ?_, sound⟩
  · rw [Cache.modify, Array.size_modify]
    exact represents.complete
  · rw [stored, List.map_cons, Function.update_self,
      map_update_of_notMem (List.nodup_cons.mp represents.linked.distinct).1, entries]
    rfl
  · intro other otherSlot
    rw [stored]
    refine (represents.index other otherSlot).trans ?_
    by_cases same : otherSlot = slot
    · rw [same, Function.update_self, found]
      rfl
    · rw [Function.update_of_ne same]

/-- A pair that is held under the hash is used again, or the new one takes its slot. -/
theorem reuse_eq (found : cache.heldAt? slot = some ⟨hash, shared⟩) (pair : HeaderPair) :
    cache.reuse slot pair =
      (let moved := (cache.unlink slot).pushNewest slot
      if shared.pair = pair then (shared, moved)
      else
        let (fresh, moved) := moved.allocate pair
        (fresh, moved.modify slot ({ · with shared := fresh }))) := by
  have same := (Reordered.unlink slot cache).trans (.pushNewest slot (cache.unlink slot))
  rw [← same.entries] at found
  obtain ⟨held, listed, entry⟩ := Option.map_eq_some_iff.mp found
  cases entry
  unfold reuse
  dsimp only
  rw [listed]

/-- The index after a slot was given a hash that no other slot has. -/
theorem index_insert {index : Std.HashMap UInt64 Nat} {entries : Nat → Option Held}
    (indexed : ∀ other otherSlot, index[other]? = some otherSlot ↔
      otherSlot ≠ slot ∧ (entries otherSlot).map Held.hash = some other)
    (unlisted : index[hash]? = none) (shared : SharedPair) (other : UInt64) (otherSlot : Nat) :
    (index.insert hash slot)[other]? = some otherSlot ↔
      (Function.update entries slot (some ⟨hash, shared⟩) otherSlot).map Held.hash =
        some other := by
  rw [Std.HashMap.getElem?_insert]
  by_cases here : hash = other
  · subst here
    rw [if_pos (beq_self_eq_true hash), Option.some_inj]
    by_cases same : otherSlot = slot
    · rw [same, Function.update_self]
      exact ⟨fun _ => rfl, fun _ => rfl⟩
    · rw [Function.update_of_ne same]
      refine ⟨fun this => absurd this.symm same, fun listed => ?_⟩
      rw [(indexed hash otherSlot).mpr ⟨same, listed⟩] at unlisted
      cases unlisted
  · rw [if_neg (fun same => here (eq_of_beq same)), indexed]
    by_cases same : otherSlot = slot
    · rw [same, Function.update_self]
      exact ⟨fun listed => absurd rfl listed.1, fun this => absurd (Option.some.inj this) here⟩
    · rw [Function.update_of_ne same]
      exact ⟨fun listed => listed.2, fun listed => ⟨same, listed⟩⟩

/-- The new pair is put into a new slot, in front of all the others. -/
theorem Represents.added (represents : cache.Represents order recency)
    (unlisted : hash ∉ recency.held.map Held.hash)
    (sound :
      Recency.IsSound ⟨recency.capacity, ⟨hash, shared⟩ :: recency.held, recency.allocated⟩) :
    (cache.addSlot hash shared).Represents (cache.slots.size :: order)
      ⟨recency.capacity, ⟨hash, shared⟩ :: recency.held, recency.allocated⟩ := by
  have apart : cache.slots.size ∉ order := fun member =>
    Nat.lt_irrefl _ (represents.linked.present _ member)
  have absent := represents.index_eq_none unlisted
  obtain ⟨capacity, allocated, linked, complete, entries, index, _⟩ := represents
  have indexed : ∀ other otherSlot, cache.index[other]? = some otherSlot ↔
      otherSlot ≠ cache.slots.size ∧ (cache.heldAt? otherSlot).map Held.hash = some other := by
    intro other otherSlot
    rw [index]
    refine ⟨fun listed => ⟨?_, listed⟩, And.right⟩
    rintro rfl
    rw [heldAt?, Array.getElem?_eq_none (Nat.le_refl _)] at listed
    cases listed
  have stored : heldAt? { cache with slots := cache.slots.push ⟨hash, shared, none, none⟩ } =
      Function.update cache.heldAt? cache.slots.size (some ⟨hash, shared⟩) := heldAt?_push
  have size : (cache.slots.push ⟨hash, shared, none, none⟩).size = cache.slots.size + 1 :=
    Array.size_push _
  rw [← capacity, ← allocated] at sound ⊢
  unfold addSlot
  refine represents_pushNewest ((linked.push hash shared).reindex _) ?_ apart ?_ ?_ ?_ ?_ sound
  · exact size ▸ Nat.lt_succ_self _
  · intro other present
    rw [size] at present
    rcases Nat.lt_succ_iff_lt_or_eq.mp present with present | rfl
    · exact .inr (complete other present)
    · exact .inl rfl
  · exact (congrFun stored _).trans (Function.update_self _ _ _)
  · exact stored ▸ (map_update_of_notMem apart _ _).trans entries
  · intro other otherSlot
    have inserted := index_insert indexed absent shared other otherSlot
    rw [← stored] at inserted
    exact inserted

/-- The new pair is put into the slot of the last one, in front of all the others. -/
theorem Represents.evicted {front : List Held} {last : Held}
    (represents : cache.Represents order recency) (split : recency.held = front ++ [last])
    (unlisted : hash ∉ recency.held.map Held.hash)
    (sound : Recency.IsSound ⟨recency.capacity, ⟨hash, shared⟩ :: front, recency.allocated⟩) :
    ∃ newOrder, (cache.replaceOldest hash shared).Represents newOrder
      ⟨recency.capacity, ⟨hash, shared⟩ :: front, recency.allocated⟩ := by
  have absent := represents.index_eq_none unlisted
  obtain ⟨newer, slot, older, rfl, before, found, behind⟩ := represents.split split
  obtain rfl := List.map_eq_nil_iff.mp behind
  obtain ⟨capacity, allocated, linked, complete, entries, index, _⟩ := represents
  have oldest : cache.oldest = some slot := by
    have start := linked.backwards [] (newer ++ [slot]).reverse rfl
    rwa [List.head?_reverse, List.getLast?_concat] at start
  have same := Reordered.unlink slot cache
  rw [← same.entries] at found
  obtain ⟨held, listed, entry⟩ := Option.map_eq_some_iff.mp found
  have apart := (List.nodup_cons.mp (List.nodup_middle.mp linked.distinct)).1
  rw [List.append_nil] at apart
  have unlinked := linked.unlink
  rw [List.append_nil] at unlinked
  have indexed : ∀ other otherSlot,
      ((cache.unlink slot).index.erase held.hash)[other]? = some otherSlot ↔
        otherSlot ≠ slot ∧ (cache.heldAt? otherSlot).map Held.hash = some other := by
    intro other otherSlot
    rw [same.entries] at found
    have here : (cache.heldAt? slot).map Held.hash = some held.hash := by rw [found, ← entry]; rfl
    rw [Std.HashMap.getElem?_erase, same.index]
    by_cases dropped : held.hash = other
    · subst dropped
      rw [if_pos (beq_self_eq_true _)]
      refine ⟨nofun, fun ⟨apart, listed⟩ => absurd ?_ apart⟩
      rw [← index] at here listed
      exact Option.some.inj (listed.symm.trans here)
    · rw [if_neg fun same => dropped (eq_of_beq same), index]
      refine ⟨fun others => ⟨fun same => dropped ?_, others⟩, And.right⟩
      rw [same] at others
      exact Option.some.inj (here.symm.trans others)
  have missing : ((cache.unlink slot).index.erase held.hash)[hash]? = none := by
    rw [Std.HashMap.getElem?_erase, same.index, absent, ite_self]
  have present : slot < cache.slots.size :=
    linked.present slot (List.mem_append_right _ List.mem_cons_self)
  rw [← same.size] at present
  have stored : ((cache.unlink slot).modify slot ({ · with hash, shared })).heldAt? =
      Function.update (cache.unlink slot).heldAt? slot (some ⟨hash, shared⟩) :=
    heldAt?_modify_of_set _ (fun _ _ => ⟨rfl, rfl⟩) present
  have relinked := @Linked.modify _ slot _ unlinked ({ · with hash, shared }) fun _ => ⟨rfl, rfl⟩
  rw [← capacity, ← allocated, ← same.capacity, ← same.allocated] at sound ⊢
  refine ⟨slot :: newer, ?_⟩
  unfold replaceOldest
  rw [oldest]
  dsimp only
  rw [listed]
  refine represents_pushNewest (relinked.reindex _) ?_ apart ?_ ?_ ?_ ?_ sound
  · rw [Cache.modify, Array.size_modify]
    exact present
  · rw [Cache.modify, Array.size_modify, same.size]
    intro other here
    have member := complete other here
    rw [List.mem_append, List.mem_singleton] at member
    exact member.symm
  · exact (congrFun stored slot).trans (Function.update_self _ _ _)
  · have kept := map_update_of_notMem apart cache.heldAt? (some ⟨hash, shared⟩)
    rw [← same.entries, ← stored, same.entries, before] at kept
    exact kept
  · intro other otherSlot
    have inserted := index_insert indexed missing shared other otherSlot
    rw [← same.entries, ← stored] at inserted
    exact inserted

/-! ### Every way of interning -/

/-- A pair that is listed is looked for in its slot. -/
theorem internAt_of_indexed (positive : cache.capacity ≠ 0)
    (indexed : cache.index[hash]? = some slot)
    (pair : HeaderPair) : cache.internAt hash pair = cache.reuse slot pair := by
  rw [internAt, if_neg positive, indexed]

/-- A pair that is not listed is a new allocation. -/
theorem internAt_of_missing (positive : cache.capacity ≠ 0) (missing : cache.index[hash]? = none)
    (pair : HeaderPair) :
    cache.internAt hash pair =
      (let (shared, cache) := cache.allocate pair
      if cache.slots.size < cache.capacity then (shared, cache.addSlot hash shared)
      else (shared, cache.replaceOldest hash shared)) := by
  rw [internAt, if_neg positive, missing]

/-- What interning does to a list, it does to every cache that represents the list. -/
theorem Represents.interns {answer : SharedPair × Recency}
    (represents : cache.Represents order recency) (interns : recency.Interns hash pair answer) :
    (cache.internAt hash pair).1 = answer.1 ∧
      ∃ newOrder, (cache.internAt hash pair).2.Represents newOrder answer.2 := by
  have sound := represents.sound.interns interns
  obtain ⟨returned, allocated⟩ := represents.allocate pair
  cases interns with
  | @again front back shared split same =>
    obtain ⟨newer, slot, older, rfl, before, found, behind⟩ := represents.split split
    have indexed : cache.index[hash]? = some slot := by
      rw [represents.index, found]
      rfl
    rw [internAt_of_indexed (represents.positive split) indexed, reuse_eq found]
    dsimp only
    rw [if_pos same]
    exact ⟨rfl, _, represents.moved before found behind sound⟩
  | @collided front back shared split different =>
    obtain ⟨newer, slot, older, rfl, before, found, behind⟩ := represents.split split
    have indexed : cache.index[hash]? = some slot := by
      rw [represents.index, found]
      rfl
    have moved := represents.moved before found behind
      (represents.sound.interns (.again split rfl))
    obtain ⟨returned, allocated⟩ := moved.allocate pair
    rw [internAt_of_indexed (represents.positive split) indexed, reuse_eq found]
    dsimp only
    rw [if_neg different]
    refine ⟨returned, slot :: (newer ++ older), ?_⟩
    rw [returned]
    exact allocated.rewritten sound
  | passed none =>
    rw [internAt, if_pos (represents.capacity.trans none)]
    exact ⟨returned, order, allocated⟩
  | added unlisted room =>
    have positive : cache.capacity ≠ 0 := by rw [represents.capacity]; omega
    rw [internAt_of_missing positive (represents.index_eq_none unlisted)]
    dsimp only
    rw [if_pos]
    · rw [returned]
      exact ⟨rfl, _, allocated.added unlisted sound⟩
    · rw [allocated.size, allocated.capacity]
      exact room
  | @evicted front last unlisted full split =>
    rw [internAt_of_missing (represents.positive split) (represents.index_eq_none unlisted)]
    dsimp only
    rw [if_neg]
    · rw [returned]
      exact ⟨rfl, allocated.evicted split unlisted sound⟩
    · rw [allocated.size, allocated.capacity]
      exact Nat.not_lt.mpr (Nat.le_of_eq full.symm)

/-! ### Any number of pairs -/

/-- Interns pairs in turn under the hashes a function gives them. -/
def internAll (hash : HeaderPair → UInt64) : List HeaderPair → Cache → List SharedPair × Cache
  | [], cache => ([], cache)
  | pair :: rest, cache =>
    let (shared, cache) := cache.internAt (hash pair) pair
    let (others, cache) := internAll hash rest cache
    (shared :: others, cache)

theorem Represents.empty (capacity : Nat) :
    (Cache.empty capacity).Represents [] (.empty capacity) where
  capacity := rfl
  allocated := rfl
  linked := ⟨List.nodup_nil, nofun, .nil rfl, .nil rfl⟩
  complete := nofun
  entries := rfl
  index hash slot := by
    rw [show (Cache.empty capacity).index[hash]? = none from Std.HashMap.getElem?_empty]
    exact ⟨nofun, nofun⟩
  sound := .empty capacity

theorem Represents.internAll (represents : cache.Represents order recency)
    (hash : HeaderPair → UInt64) (pairs : List HeaderPair) :
    (cache.internAll hash pairs).1 = (recency.internAll hash pairs).1 ∧
      ∃ newOrder,
        (cache.internAll hash pairs).2.Represents newOrder (recency.internAll hash pairs).2 := by
  induction pairs generalizing cache order recency with
  | nil => exact ⟨rfl, order, represents⟩
  | cons pair rest inductionHypothesis =>
    have interns := Recency.interns_intern represents.sound (hash pair) pair
    obtain ⟨returned, newOrder, later⟩ := represents.interns interns
    obtain ⟨others, last⟩ := inductionHypothesis later
    exact ⟨congrArg₂ List.cons returned others, last⟩

/-- The cache works as a bounded list of pairs with the one used last in front. After any number of
pairs, whatever their hashes, it has returned the same as the list and represents the list. It holds
as many pairs as there were different hashes, up to its capacity, and whatever is interned next does
to it what it does to the list. -/
theorem internAll_represents (capacity : Nat) (hash : HeaderPair → UInt64)
    (pairs : List HeaderPair) :
    ∃ returned after order recency,
      (empty capacity).internAll hash pairs = (returned, after) ∧
      (Recency.empty capacity).internAll hash pairs = (returned, recency) ∧
      after.Represents order recency ∧
      returned.map SharedPair.pair = pairs ∧
      (∀ shared ∈ returned, shared.allocation < after.allocated) ∧
      after.size = min capacity (pairs.map hash).toFinset.card ∧
      (capacity = 0 → ∀ pair, after.internAt (hash pair) pair = after.allocate pair) ∧
      ∀ pair, ∃ shared next newOrder newRecency,
        after.internAt (hash pair) pair = (shared, next) ∧
        recency.Interns (hash pair) pair (shared, newRecency) ∧
        next.Represents newOrder newRecency := by
  obtain ⟨same, order, represents⟩ := (Represents.empty capacity).internAll hash pairs
  have start := Recency.IsSound.empty capacity
  obtain ⟨sound, asked, given, _⟩ := start.internAll hash pairs
  have covers := (Recency.Covers.empty capacity).internAll hash pairs start
  have capacities : ((Recency.empty capacity).internAll hash pairs).2.capacity = capacity :=
    start.capacity_internAll hash pairs
  rw [Finset.empty_union] at covers
  refine ⟨_, _, order, _, rfl, Prod.ext same.symm rfl, represents, same ▸ asked, ?_, ?_, ?_, ?_⟩
  · rw [same, represents.allocated]
    exact given
  · rw [size, represents.size, covers.length, capacities]
  · intro none pair
    rw [internAt, if_pos (represents.capacity.trans (capacities.trans none))]
  · intro pair
    have interns := Recency.interns_intern sound (hash pair) pair
    obtain ⟨returned, newOrder, later⟩ := represents.interns interns
    exact ⟨_, _, newOrder, _, rfl, returned ▸ interns, later⟩

end Scoresheet.Cache
