/-
This file defines a cache that lets equal header pairs share one allocation. It holds a bounded
number of pairs, found by their hash, and forgets the one that was used least recently when it is
full. The pairs lie in an arena of slots that are linked in the order of their last use; a slot is
reused when its pair is forgotten. Of two pairs with the same hash the newer one takes the slot.
Which hash that is, is left open.

Identity is made visible by numbering the allocations: equal pairs with the same number are the
same one.
-/

import Std.Data.HashMap
import Scoresheet.Config
import Scoresheet.HeaderPair

namespace Scoresheet

/-- A header pair together with the number of its allocation. -/
structure SharedPair where
  pair : HeaderPair
  allocation : Nat
  deriving DecidableEq, Repr

/-- A place for one pair, with the slots used just after and just before it. -/
structure Slot where
  hash : UInt64
  shared : SharedPair
  newer : Option Nat
  older : Option Nat
  deriving DecidableEq, Repr

structure Cache where
  capacity : Nat
  /-- The slot of each hash. -/
  index : Std.HashMap UInt64 Nat
  slots : Array Slot
  newest : Option Nat
  oldest : Option Nat
  /-- The number of allocations made so far. -/
  allocated : Nat

namespace Cache

def empty (capacity : Nat) : Cache := ⟨capacity, ∅, #[], none, none, 0⟩

/-- The number of pairs held. -/
def size (cache : Cache) : Nat := cache.slots.size

def isEmpty (cache : Cache) : Bool := cache.size == 0

/-- Changes one slot. -/
def modify (slot : Nat) (change : Slot → Slot) (cache : Cache) : Cache :=
  { cache with slots := cache.slots.modify slot change }

/-- Takes a slot out of the order of use. -/
def unlink (slot : Nat) (cache : Cache) : Cache :=
  match cache.slots[slot]? with
  | none => cache
  | some links =>
    let cache :=
      match links.newer with
      | none => { cache with newest := links.older }
      | some newer => cache.modify newer ({ · with older := links.older })
    match links.older with
    | none => { cache with oldest := links.newer }
    | some older => cache.modify older ({ · with newer := links.newer })

/-- Makes a slot the one used most recently. -/
def pushNewest (slot : Nat) (cache : Cache) : Cache :=
  let linked := cache.modify slot ({ · with newer := none, older := cache.newest })
  let linked :=
    match cache.newest with
    | none => { linked with oldest := some slot }
    | some newest => linked.modify newest ({ · with newer := some slot })
  { linked with newest := some slot }

/-- A new allocation. -/
def allocate (pair : HeaderPair) (cache : Cache) : SharedPair × Cache :=
  (⟨pair, cache.allocated⟩, { cache with allocated := cache.allocated + 1 })

/-- Uses the pair in a slot again, or puts the new pair in its place if it is a different one. -/
def reuse (slot : Nat) (pair : HeaderPair) (cache : Cache) : SharedPair × Cache :=
  let cache := (cache.unlink slot).pushNewest slot
  match cache.slots[slot]? with
  | none => cache.allocate pair
  | some held =>
    if held.shared.pair = pair then (held.shared, cache)
    else
      let (shared, cache) := cache.allocate pair
      (shared, cache.modify slot ({ · with shared }))

/-- Adds a slot at the end of the arena. -/
def addSlot (hash : UInt64) (shared : SharedPair) (cache : Cache) : Cache :=
  let slot := cache.slots.size
  let added := { cache with
    slots := cache.slots.push ⟨hash, shared, none, none⟩, index := cache.index.insert hash slot }
  added.pushNewest slot

/-- Puts a pair into the slot of the one used least recently. -/
def replaceOldest (hash : UInt64) (shared : SharedPair) (cache : Cache) : Cache :=
  match cache.oldest with
  | none => cache
  | some slot =>
    let cache := cache.unlink slot
    let index :=
      match cache.slots[slot]? with
      | none => cache.index
      | some evicted => cache.index.erase evicted.hash
    let replaced := { cache.modify slot ({ · with hash, shared }) with
      index := index.insert hash slot }
    replaced.pushNewest slot

/-- The pair that is held under a hash if it is the given one, and a new allocation otherwise. -/
def internAt (hash : UInt64) (pair : HeaderPair) (cache : Cache) : SharedPair × Cache :=
  if cache.capacity = 0 then cache.allocate pair
  else
    match cache.index[hash]? with
    | some slot => cache.reuse slot pair
    | none =>
      let (shared, cache) := cache.allocate pair
      if cache.slots.size < cache.capacity then (shared, cache.addSlot hash shared)
      else (shared, cache.replaceOldest hash shared)

section Hash

variable [Hashable HeaderPair]

/-- The pair that is held if there is an equal one, and a new allocation otherwise. -/
def intern (pair : HeaderPair) (cache : Cache) : SharedPair × Cache :=
  cache.internAt (hash pair) pair

/-- A cache with the given settings. -/
def ofConfig (config : CacheConfig) : Cache :=
  config.preset.foldl (fun cache pair => (cache.intern ⟨pair.1, pair.2⟩).2) (empty config.capacity)

end Hash

/-- The cache as a diagnostic display shows it. -/
def display (cache : Cache) : String :=
  "HeaderCache \x7b capacity: " ++ toString cache.capacity ++ ", len: " ++ toString cache.size ++
    " \x7d"

end Cache

/-- How a reader comes by its header pairs. -/
inductive Interner where
  /-- Every pair is a new allocation; the number of those made so far. -/
  | uncached (allocated : Nat)
  | cached (cache : Cache)

namespace Interner

variable [Hashable HeaderPair]

/-- The way of a reader with the given settings. -/
def ofConfig (config : Config) : Interner :=
  match config.headerCache with
  | none => .uncached 0
  | some cache => .cached (.ofConfig cache)

def intern (pair : HeaderPair) : Interner → SharedPair × Interner
  | uncached allocated => (⟨pair, allocated⟩, .uncached (allocated + 1))
  | cached cache =>
    let (shared, cache) := cache.intern pair
    (shared, .cached cache)

end Interner

end Scoresheet
