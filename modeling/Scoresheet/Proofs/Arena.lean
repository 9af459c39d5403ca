/-
This file shows that the cache of header pairs is a list of pairs with the one used last in front.
The slots of the arena are linked in both directions. Each direction is taken as a step that leads
through all slots in turn, from an end marker and back to it, so that taking a slot out of the
order of use and putting it in front change the step of two nodes at most. A cache represents a
list if its links lead through the slots in the order of that list and its index gives the slot of
each hash that is held.
-/

import Mathlib.Logic.Function.Basic
import Scoresheet.Proofs.Recency

namespace Scoresheet

/-! ### Steps through a row of slots -/

/-- A step leads through a row of slots: wherever the row is cut, it leads from the last slot before
the cut to the first one behind it. At the ends `none` stands for the end marker. -/
def Threads (step : Option Nat → Option Nat) (row : List Nat) : Prop :=
  ∀ front back, row = front ++ back → step front.getLast? = back.head?

namespace Threads

variable {step : Option Nat → Option Nat} {front back : List Nat} {slot : Nat}

theorem getLast?_append_cons (first : List Nat) (slot : Nat) (rest : List Nat) :
    (first ++ slot :: rest).getLast? = (slot :: rest).getLast? := by
  rw [List.getLast?_append, List.getLast?_cons]
  rfl

/-- Where no slot is repeated, a row ends differently if more slots follow. -/
theorem getLast?_ne {rest : List Nat} (distinct : (front ++ slot :: rest).Nodup) :
    front.getLast? ≠ (slot :: rest).getLast? := by
  intro same
  rw [List.getLast?_cons] at same
  have before := List.mem_of_getLast? same
  have behind : rest.getLast?.getD slot ∈ slot :: rest :=
    List.mem_of_getLast? List.getLast?_cons
  exact (List.nodup_append.mp distinct).2.2 _ before _ behind rfl

theorem nil (last : step none = none) : Threads step [] := by
  intro front back split
  obtain ⟨rfl, rfl⟩ := List.append_eq_nil_iff.mp split.symm
  exact last

/-- A slot is taken out by leading past it. -/
theorem remove (threads : Threads step (front ++ slot :: back))
    (distinct : (front ++ slot :: back).Nodup) :
    Threads (Function.update step front.getLast? back.head?) (front ++ back) := by
  intro left right split
  rcases List.append_eq_append_iff.mp split with ⟨more, rfl, rfl⟩ | ⟨more, rfl, rfl⟩
  · cases more with
    | nil => rw [List.append_nil, Function.update_self]; rfl
    | cons next more =>
      have other : (front ++ next :: more).getLast? ≠ front.getLast? := by
        rw [getLast?_append_cons]
        exact (getLast?_ne (distinct.sublist (by simp))).symm
      rw [Function.update_of_ne other]
      have onward := threads (front ++ slot :: next :: more) right (by simp)
      rwa [getLast?_append_cons, List.getLast?_cons_cons, ← getLast?_append_cons front] at onward
  · cases more with
    | nil => rw [List.append_nil, Function.update_self]; rfl
    | cons next more =>
      have other : left.getLast? ≠ (left ++ next :: more).getLast? := by
        rw [getLast?_append_cons]
        exact getLast?_ne (distinct.sublist (by simp))
      rw [Function.update_of_ne other]
      exact threads left (next :: more ++ slot :: back) (by simp)

/-- A slot is put in by leading to it and from it onwards. -/
theorem insert (threads : Threads step (front ++ back))
    (distinct : (front ++ slot :: back).Nodup) :
    Threads (Function.update (Function.update step (some slot) back.head?) front.getLast?
      (some slot)) (front ++ slot :: back) := by
  intro left right split
  rcases List.append_eq_append_iff.mp split with ⟨more, rfl, rest⟩ | ⟨more, rfl, rfl⟩
  · cases more with
    | nil =>
      rw [List.append_nil, Function.update_self, ← List.nil_append right, ← rest]
      rfl
    | cons next more =>
      obtain ⟨rfl, rfl⟩ := List.cons.inj rest
      have other : (front ++ slot :: more).getLast? ≠ front.getLast? := by
        rw [getLast?_append_cons]
        exact (getLast?_ne (distinct.sublist (by simp))).symm
      rw [Function.update_of_ne other, getLast?_append_cons]
      cases more with
      | nil =>
        rw [List.getLast?_singleton, Function.update_self]
        rfl
      | cons following more =>
        have later : [slot].getLast? ≠ (following :: more).getLast? :=
          getLast?_ne (distinct.sublist (by simp))
        rw [List.getLast?_singleton] at later
        rw [List.getLast?_cons_cons, Function.update_of_ne later.symm]
        have onward := threads (front ++ following :: more) right (by simp)
        rwa [getLast?_append_cons] at onward
  · cases more with
    | nil =>
      rw [List.append_nil, Function.update_self]
      rfl
    | cons next more =>
      have other : left.getLast? ≠ (left ++ next :: more).getLast? := by
        rw [getLast?_append_cons]
        exact getLast?_ne (distinct.sublist (by simp))
      have later : left.getLast? ≠ [slot].getLast? := getLast?_ne (distinct.sublist (by simp))
      rw [List.getLast?_singleton] at later
      rw [Function.update_of_ne other, Function.update_of_ne later]
      exact threads left (next :: more ++ back) (by simp)

end Threads

namespace Cache

/-! ### The links of the arena -/

/-- Where a link of each slot leads, and where the end marker leads. -/
def leads (link : Slot → Option Nat) (start : Option Nat) (slots : Array Slot) :
    Option Nat → Option Nat
  | none => start
  | some slot => slots[slot]?.bind link

/-- The slot used just before the given one; the newest one behind the end marker. -/
def behind (cache : Cache) : Option Nat → Option Nat := leads Slot.older cache.newest cache.slots

/-- The slot used just after the given one; the oldest one before the end marker. -/
def before (cache : Cache) : Option Nat → Option Nat := leads Slot.newer cache.oldest cache.slots

/-- What a slot holds. -/
def heldAt? (cache : Cache) (slot : Nat) : Option Held :=
  cache.slots[slot]?.map fun held => ⟨held.hash, held.shared⟩

/-- The links lead through the given slots in this order, from the newest to the oldest and back. -/
structure Linked (cache : Cache) (order : List Nat) : Prop where
  distinct : order.Nodup
  present : ∀ slot ∈ order, slot < cache.slots.size
  forwards : Threads cache.behind order
  backwards : Threads cache.before order.reverse

section Links

variable {cache : Cache} {slots : Array Slot} {slot : Nat} {links : Slot} {link : Slot → Option Nat}
  {start target : Option Nat}

theorem leads_start :
    leads link target slots = Function.update (leads link start slots) none target := by
  funext node
  cases node with
  | none => rw [Function.update_self]; rfl
  | some other => rw [Function.update_of_ne (Option.some_ne_none other)]; rfl

theorem leads_modify_of_kept (change : Slot → Slot)
    (kept : ∀ links, link (change links) = link links) :
    leads link start (slots.modify slot change) = leads link start slots := by
  funext node
  cases node with
  | none => rfl
  | some other =>
    simp only [leads, Array.getElem?_modify]
    split
    · cases slots[other]? with
      | none => rfl
      | some links => exact kept links
    · rfl

theorem leads_modify_of_set (change : Slot → Slot) (set : ∀ links, link (change links) = target)
    (present : slot < slots.size) :
    leads link start (slots.modify slot change) =
      Function.update (leads link start slots) (some slot) target := by
  funext node
  cases node with
  | none => rw [Function.update_of_ne (Option.some_ne_none slot).symm]; rfl
  | some other =>
    simp only [leads, Array.getElem?_modify]
    split
    · next same =>
      subst same
      rw [Function.update_self, Array.getElem?_eq_getElem present]
      exact set _
    · next different =>
      rw [Function.update_of_ne fun same => different (Option.some.inj same).symm]
      rfl

/-- A slot that is added leads nowhere. -/
theorem leads_push (last : link links = none) :
    leads link start (slots.push links) = leads link start slots := by
  funext node
  cases node with
  | none => rfl
  | some other =>
    simp only [leads, Array.getElem?_push]
    split
    · next added =>
      rw [added, Array.getElem?_eq_none (Nat.le_refl _)]
      exact last
    · rfl

/-- A link that leads forwards is changed in a slot, or at the end marker. -/
theorem behind_setOlder (present : slot < cache.slots.size) (target : Option Nat) :
    (cache.modify slot ({ · with older := target })).behind =
      Function.update cache.behind (some slot) target :=
  leads_modify_of_set _ (fun _ => rfl) present

theorem behind_setNewest (cache : Cache) (target : Option Nat) :
    behind { cache with newest := target } = Function.update cache.behind none target :=
  leads_start

theorem behind_setNewer (cache : Cache) (slot : Nat) (target : Option Nat) :
    (cache.modify slot ({ · with newer := target })).behind = cache.behind :=
  leads_modify_of_kept _ fun _ => rfl

/-- A link that leads backwards is changed in a slot, or at the end marker. -/
theorem before_setNewer (present : slot < cache.slots.size) (target : Option Nat) :
    (cache.modify slot ({ · with newer := target })).before =
      Function.update cache.before (some slot) target :=
  leads_modify_of_set _ (fun _ => rfl) present

theorem before_setOldest (cache : Cache) (target : Option Nat) :
    before { cache with oldest := target } = Function.update cache.before none target :=
  leads_start

theorem before_setNewest (cache : Cache) (target : Option Nat) :
    before { cache with newest := target } = cache.before := rfl

theorem before_setOlder (cache : Cache) (slot : Nat) (target : Option Nat) :
    (cache.modify slot ({ · with older := target })).before = cache.before :=
  leads_modify_of_kept _ fun _ => rfl

theorem behind_unlink (found : cache.slots[slot]? = some links)
    (present : ∀ newer, links.newer = some newer → newer < cache.slots.size) :
    (cache.unlink slot).behind = Function.update cache.behind links.newer links.older := by
  unfold unlink
  rw [found]
  dsimp only
  cases newer : links.newer with
  | none =>
    cases older : links.older with
    | none => exact behind_setNewest cache none
    | some older =>
      dsimp only
      rw [behind_setNewer, behind_setNewest]
  | some newer' =>
    cases older : links.older with
    | none => exact behind_setOlder (present _ newer) none
    | some older =>
      dsimp only
      rw [behind_setNewer, behind_setOlder (present _ newer)]

theorem before_unlink (found : cache.slots[slot]? = some links)
    (present : ∀ older, links.older = some older → older < cache.slots.size) :
    (cache.unlink slot).before = Function.update cache.before links.older links.newer := by
  unfold unlink
  rw [found]
  dsimp only
  cases newer : links.newer with
  | none =>
    cases older : links.older with
    | none => exact before_setOldest cache none
    | some older' => exact before_setNewer (present _ older) none
  | some newer' =>
    cases older : links.older with
    | none =>
      dsimp only
      rw [before_setOldest, before_setOlder]
    | some older' =>
      have present :
          older' < (cache.modify newer' ({ · with older := some older' })).slots.size := by
        rw [modify, Array.size_modify]
        exact present _ older
      dsimp only
      rw [before_setNewer present, before_setOlder]

theorem behind_pushNewest (present : slot < cache.slots.size) :
    (cache.pushNewest slot).behind =
      Function.update (Function.update cache.behind (some slot) cache.newest) none (some slot) := by
  have changed : (cache.modify slot ({ · with newer := none, older := cache.newest })).behind =
      Function.update cache.behind (some slot) cache.newest :=
    leads_modify_of_set _ (fun _ => rfl) present
  unfold pushNewest
  rw [behind_setNewest, ← changed]
  cases cache.newest with
  | none => rfl
  | some newest =>
    dsimp only
    rw [behind_setNewer]

theorem before_pushNewest (present : slot < cache.slots.size)
    (newest : ∀ newest, cache.newest = some newest → newest < cache.slots.size) :
    (cache.pushNewest slot).before =
      Function.update (Function.update cache.before (some slot) none) cache.newest (some slot) := by
  have changed : (cache.modify slot ({ · with newer := none, older := cache.newest })).before =
      Function.update cache.before (some slot) none :=
    leads_modify_of_set _ (fun _ => rfl) present
  unfold pushNewest
  rw [before_setNewest, ← changed]
  cases listed : cache.newest with
  | none =>
    dsimp only
    rw [before_setOldest]
  | some newest' =>
    have present : newest' <
        (cache.modify slot ({ · with newer := none, older := some newest' })).slots.size := by
      rw [modify, Array.size_modify]
      exact newest _ listed
    dsimp only
    rw [before_setNewer present]

/-! ### The order of use -/

theorem links_of_slot {front back : List Nat} (linked : cache.Linked (front ++ slot :: back)) :
    ∃ links, cache.slots[slot]? = some links ∧ links.older = back.head? ∧
      links.newer = front.getLast? := by
  have present := linked.present slot (List.mem_append_right _ List.mem_cons_self)
  have forwards := linked.forwards (front ++ [slot]) back (by simp)
  have backwards := linked.backwards (back.reverse ++ [slot]) front.reverse (by simp)
  rw [List.getLast?_concat] at forwards backwards
  rw [List.head?_reverse] at backwards
  simp only [behind, before, leads, Array.getElem?_eq_getElem present, Option.bind_some]
    at forwards backwards
  exact ⟨_, Array.getElem?_eq_getElem present, forwards, backwards⟩

theorem size_unlink (slot : Nat) (cache : Cache) :
    (cache.unlink slot).slots.size = cache.slots.size := by
  unfold unlink
  repeat' split
  all_goals simp only [modify, Array.size_modify]

theorem size_pushNewest (slot : Nat) (cache : Cache) :
    (cache.pushNewest slot).slots.size = cache.slots.size := by
  unfold pushNewest
  split <;> simp only [modify, Array.size_modify]

/-- A slot that is taken out of the order of use leaves the others in order. -/
theorem Linked.unlink {front back : List Nat} (linked : cache.Linked (front ++ slot :: back)) :
    (cache.unlink slot).Linked (front ++ back) := by
  obtain ⟨links, found, older, newer⟩ := links_of_slot linked
  obtain ⟨distinct, present, forwards, backwards⟩ := linked
  have mirrored : (front ++ slot :: back).reverse = back.reverse ++ slot :: front.reverse := by simp
  have kept : ∀ other ∈ front ++ back, other ∈ front ++ slot :: back := by
    intro other member
    rcases List.mem_append.mp member with member | member
    · exact List.mem_append_left _ member
    · exact List.mem_append_right _ (List.mem_cons_of_mem _ member)
  refine ⟨?_, ?_, ?_, ?_⟩
  · exact (List.nodup_cons.mp (List.nodup_middle.mp distinct)).2
  · intro other member
    rw [size_unlink]
    exact present other (kept other member)
  · rw [behind_unlink found, newer, older]
    · exact forwards.remove distinct
    · intro newer' last
      rw [newer] at last
      exact present newer' (List.mem_append_left _ (List.mem_of_getLast? last))
  · rw [before_unlink found, newer, older, List.reverse_append]
    · rw [mirrored] at backwards
      have removed := backwards.remove (mirrored ▸ List.nodup_reverse.mpr distinct)
      rwa [List.getLast?_reverse, List.head?_reverse] at removed
    · intro older' first
      rw [older] at first
      exact present older' (List.mem_append_right _
        (List.mem_cons_of_mem _ (List.mem_of_mem_head? first)))

/-- A slot that is put in front comes before the others. -/
theorem Linked.pushNewest {order : List Nat} (linked : cache.Linked order)
    (present : slot < cache.slots.size) (apart : slot ∉ order) :
    (cache.pushNewest slot).Linked (slot :: order) := by
  have newest : cache.newest = order.head? := linked.forwards [] order rfl
  have distinct : (slot :: order).Nodup := List.nodup_cons.mpr ⟨apart, linked.distinct⟩
  refine ⟨distinct, ?_, ?_, ?_⟩
  · rw [size_pushNewest]
    intro other member
    rcases List.mem_cons.mp member with rfl | member
    · exact present
    · exact linked.present other member
  · rw [behind_pushNewest present, newest]
    exact @Threads.insert cache.behind [] order slot linked.forwards distinct
  · have mirrored : (order.reverse ++ [slot]).Nodup := by
      rw [← List.reverse_cons]
      exact List.nodup_reverse.mpr distinct
    have inserted := @Threads.insert cache.before order.reverse [] slot
      ((List.append_nil _).symm ▸ linked.backwards) mirrored
    rw [before_pushNewest present, newest, List.reverse_cons]
    · rwa [List.getLast?_reverse] at inserted
    · intro newest' first
      rw [newest] at first
      exact linked.present newest' (List.mem_of_mem_head? first)

/-- The order of use depends on the links only. -/
theorem Linked.modify {order : List Nat} (linked : cache.Linked order) (change : Slot → Slot)
    (kept : ∀ held, (change held).older = held.older ∧ (change held).newer = held.newer) :
    (cache.modify slot change).Linked order where
  distinct := linked.distinct
  present := by
    rw [Cache.modify, Array.size_modify]
    exact linked.present
  forwards := by
    have behind : (cache.modify slot change).behind = cache.behind :=
      leads_modify_of_kept change fun held => (kept held).1
    exact behind ▸ linked.forwards
  backwards := by
    have before : (cache.modify slot change).before = cache.before :=
      leads_modify_of_kept change fun held => (kept held).2
    exact before ▸ linked.backwards

/-- A slot that is added at the end of the arena stays outside the order of use. -/
theorem Linked.push {order : List Nat} (linked : cache.Linked order) (hash : UInt64)
    (shared : SharedPair) :
    Linked { cache with slots := cache.slots.push ⟨hash, shared, none, none⟩ } order where
  distinct := linked.distinct
  present other member := by
    rw [Array.size_push]
    exact Nat.lt_succ_of_lt (linked.present other member)
  forwards := by
    rw [behind, leads_push rfl]
    exact linked.forwards
  backwards := by
    rw [before, leads_push rfl]
    exact linked.backwards

/-- The order of use does not depend on the index. -/
theorem Linked.reindex {order : List Nat} (linked : cache.Linked order)
    (index : Std.HashMap UInt64 Nat) : Linked { cache with index } order :=
  ⟨linked.distinct, linked.present, linked.forwards, linked.backwards⟩

end Links

end Cache

end Scoresheet
