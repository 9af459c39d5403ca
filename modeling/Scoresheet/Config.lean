/-
This file holds the settings of a reader: which parts of a game are left out, what is tolerated,
how annotations and comments are kept, and whether equal header pairs are shared. The defaults
leave nothing out, tolerate small irregularities, and stop at the first error.
-/

import Scoresheet.Bytes

namespace Scoresheet

/-! ### Parts of a game that may be left out -/

structure Skip where
  headers : Bool
  moves : Bool
  comments : Bool
  variations : Bool
  deriving DecidableEq, Repr

namespace Skip

def nothing : Skip := ⟨false, false, false, false⟩

/-- The parts named by the four lowest bits of a number. -/
def ofBits (bits : Nat) : Skip :=
  ⟨bits.testBit 0, bits.testBit 1, bits.testBit 2, bits.testBit 3⟩

def toBits (skip : Skip) : Nat :=
  (if skip.headers then 1 else 0) + (if skip.moves then 2 else 0) +
    (if skip.comments then 4 else 0) + (if skip.variations then 8 else 0)

theorem ofBits_toBits (skip : Skip) : ofBits skip.toBits = skip := by
  obtain ⟨headers, moves, comments, variations⟩ := skip
  cases headers <;> cases moves <;> cases comments <;> cases variations <;> rfl

end Skip

/-! ### Sharing of header pairs -/

/-- How many header pairs are remembered, and which are known from the start. -/
structure CacheConfig where
  capacity : Nat
  preset : List (Bytes × Bytes)
  deriving DecidableEq, Repr

/-- Room for 512 pairs, none of them known from the start. -/
def CacheConfig.standard : CacheConfig := ⟨512, []⟩

/-! ### All settings -/

structure Config where
  skip : Skip
  /-- Refuses what is tolerated otherwise: a header value directly behind its name, a move number
  zero, a dot before an ellipsis, and a repeated move number that differs or lacks its ellipsis. -/
  strict : Bool
  /-- Whether the first error ends the reading. -/
  stopOnError : Bool
  allowDuplicateAnnotations : Bool
  /-- Whether an annotation that means nothing becomes the code zero and not an error. -/
  nullOnInvalidNag : Bool
  /-- Whether glyphs written against a move are split off. -/
  extractInlineAnnotations : Bool
  annotationLimit : Nat
  commentMaxLength : Option Nat
  trimComments : Bool
  /-- The separator between the descriptions of annotations, which are added to the comment. -/
  annotationTemplate : Option String
  headerCache : Option CacheConfig
  gameLimit : Option Nat
  deriving DecidableEq, Repr

namespace Config

def standard : Config where
  skip := .nothing
  strict := false
  stopOnError := true
  allowDuplicateAnnotations := false
  nullOnInvalidNag := true
  extractInlineAnnotations := false
  annotationLimit := 8
  commentMaxLength := none
  trimComments := true
  annotationTemplate := none
  headerCache := none
  gameLimit := none

/-- Turns the sharing of header pairs on, with the standard settings, or off. -/
def withHeaderCache (config : Config) (enabled : Bool) : Config :=
  { config with headerCache := if enabled then some .standard else none }

/-- Sets how many header pairs are remembered, and turns their sharing on. -/
def withCacheCapacity (config : Config) (capacity : Nat) : Config :=
  { config with headerCache := some { config.headerCache.getD .standard with capacity } }

/-- Adds header pairs known from the start, and turns the sharing on. -/
def withCachePreset (config : Config) (pairs : List (Bytes × Bytes)) : Config :=
  let cache := config.headerCache.getD .standard
  { config with headerCache := some { cache with preset := cache.preset ++ pairs } }

end Config

end Scoresheet
