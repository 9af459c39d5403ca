/-
This file says where giving up bytes leads, however large the count is. The new position is the sum
of the old one and the count, computed in a machine word and held to the end of what is there. As
long as the sum fits into the word the bytes are dropped from the buffer, and what was given up is
not seen again. A sum that does not fit leads back, by as many bytes as the count falls short of the
size of a word, and these bytes stand in the buffer once more.

Whatever was asked of a source before, its position lies within the text in memory, or within the
storage of its window. So only a count that is nearly as large as a word can hold leads back, but
every position except the first has such a count.
-/

import Scoresheet.Proofs.Lossless

namespace Scoresheet

theorem Cursor.position_le_size (cursor : Cursor) : cursor.position ≤ cursor.size :=
  Nat.le_add_right _ _

theorem Window.IsSound.consume {window : Window} (sound : window.IsSound) (count : Nat) :
    (window.consume count).IsSound := by
  refine ⟨?_, sound.fits⟩
  show window.filled = (window.cursor.consume count).size
  rw [Cursor.size_consume]
  exact sound.counted

/-! ### Positions -/

namespace Source

/-- The bytes given up that can still be led back to, latest first. A window forgets them when its
storage is reused. -/
def passed : Source → Bytes
  | slice cursor => cursor.behind
  | stream window _ => window.cursor.behind
  | released => []

/-- A source that nothing was asked of yet, and where its last position lies. No text in memory has
more bytes than half a machine word can count. -/
inductive IsNew : Source → Nat → Prop
  | slice {text : Bytes} (fits : text.length < 0x8000000000000000) :
    IsNew (.ofBytes text) text.length
  | stream (device : Device) : IsNew (.ofDevice device) 16384

/-- No position of the source lies behind the given one. -/
def IsBounded (bound : Nat) : Source → Prop
  | slice cursor => cursor.size ≤ bound
  | stream window _ => window.IsSound ∧ Window.capacity ≤ bound
  | released => True

variable {source : Source} {bound count : Nat}

theorem IsNew.isBounded (new : source.IsNew bound) : source.IsBounded bound := by
  cases new with
  | slice fits => exact Nat.le_of_eq (Nat.zero_add _)
  | stream device => exact ⟨Window.isSound_empty, Nat.le_refl _⟩

theorem IsNew.lt_wordSize (new : source.IsNew bound) : bound < Cursor.wordSize := by
  unfold Cursor.wordSize
  cases new with
  | slice fits => omega
  | stream device => omega

theorem IsBounded.length_passed_le (bounded : source.IsBounded bound) :
    source.passed.length ≤ bound := by
  cases source with
  | slice cursor => exact Nat.le_trans cursor.position_le_size bounded
  | stream window device =>
    obtain ⟨sound, room⟩ := bounded
    have placed := window.cursor.position_le_size
    rw [← sound.counted] at placed
    exact Nat.le_trans placed (Nat.le_trans sound.fits room)
  | released => exact Nat.zero_le bound

theorem IsBounded.fill (bounded : source.IsBounded bound) : source.fill.2.IsBounded bound := by
  cases source with
  | slice cursor => exact bounded
  | stream window device => exact ⟨bounded.1.reuse.readInto device, bounded.2⟩
  | released => trivial

/-- Also a count that leads back leads to a position of the source. -/
theorem IsBounded.consume (bounded : source.IsBounded bound) (count : Nat) :
    (source.consume count).IsBounded bound := by
  cases source with
  | slice cursor => exact Nat.le_trans (Nat.le_of_eq (cursor.size_consume count)) bounded
  | stream window device => exact ⟨bounded.1.consume count, bounded.2⟩
  | released => trivial

theorem IsBounded.close (bounded : source.IsBounded bound) : source.close.IsBounded bound := by
  cases source with
  | slice cursor =>
    have whole : cursor.close.size = cursor.size := by
      simp only [Cursor.close, Cursor.size, List.length_append, List.length_reverse,
        List.length_nil]
      omega
    exact Nat.le_trans (Nat.le_of_eq whole) bounded
  | stream window device => trivial
  | released => trivial

/-! ### One count -/

theorem consume_of_lt (within : source.passed.length + count < Cursor.wordSize) :
    source.consume count = source.advance count := by
  cases source with
  | slice cursor => exact congrArg Source.slice (Cursor.consume_of_lt within)
  | stream window device =>
    have same : window.consume count = window.advance count :=
      congrArg (Window.mk · window.filled) (Cursor.consume_of_lt within)
    exact congrArg (Source.stream · device) same
  | released => rfl

theorem buffer_consume_of_le (word : count < Cursor.wordSize)
    (placed : source.passed.length < Cursor.wordSize)
    (beyond : Cursor.wordSize ≤ source.passed.length + count) :
    (source.consume count).buffer =
      (source.passed.take (Cursor.wordSize - count)).reverse ++ source.buffer := by
  cases source with
  | slice cursor => exact congrArg Cursor.ahead (Cursor.consume_of_le word placed beyond)
  | stream window device => exact congrArg Cursor.ahead (Cursor.consume_of_le word placed beyond)
  | released => exact (List.append_eq_nil_iff.mpr ⟨by simp [passed], rfl⟩).symm

end Source

/-! ### Sources in use -/

namespace Usage

/-- A source that is about to be used. -/
def fresh (source : Source) : Usage := ⟨source, [], []⟩

/-- Whether the position the call leads to is computed without an overflow. -/
def fits (usage : Usage) : Call → Bool
  | .consume count => usage.source.passed.length + count < Cursor.wordSize
  | _ => true

/-- Whether this holds of each of the calls where it is made. -/
def fitsAll : Usage → List Call → Bool
  | _, [] => true
  | usage, call :: calls => usage.fits call && (usage.after call).fitsAll calls

variable {usage : Usage} {bound : Nat}

theorem isBounded_after (bounded : usage.source.IsBounded bound) (call : Call) :
    (usage.after call).source.IsBounded bound := by
  cases call with
  | fill => exact bounded.fill
  | consume count => exact bounded.consume count
  | close => exact bounded.close

theorem isBounded_run (bounded : usage.source.IsBounded bound) (calls : List Call) :
    (usage.run calls).source.IsBounded bound := by
  induction calls generalizing usage with
  | nil => exact bounded
  | cons call calls inductionHypothesis => exact inductionHypothesis (isBounded_after bounded call)

/-- What was given up and what is still to come, one behind the other, only ever lose something at
their end, and that only when the source is closed. -/
theorem consumed_after {call : Call} (fits : usage.fits call) :
    (usage.after call).consumed ++ (usage.after call).source.content <+:
      usage.consumed ++ usage.source.content := by
  cases call with
  | fill =>
    have kept : usage.consumed ++ usage.source.fill.2.content =
        usage.consumed ++ usage.source.content := by
      rw [Source.content_fill]
    exact kept ▸ List.prefix_rfl
  | consume count =>
    have handed : usage.consumed ++ usage.source.buffer.take count ++
        (usage.source.consume count).content = usage.consumed ++ usage.source.content := by
      rw [Source.consume_of_lt (of_decide_eq_true fits), List.append_assoc,
        ← Source.content_advance]
    exact handed ▸ List.prefix_rfl
  | close =>
    show usage.consumed ++ usage.source.close.content <+: _
    rw [Source.content_close, List.append_nil]
    exact List.prefix_append _ _

theorem consumed_run {calls : List Call} (fits : usage.fitsAll calls) :
    (usage.run calls).consumed ++ (usage.run calls).source.content <+:
      usage.consumed ++ usage.source.content := by
  induction calls generalizing usage with
  | nil => exact List.prefix_rfl
  | cons call calls inductionHypothesis =>
    obtain ⟨first, later⟩ := Bool.and_eq_true_iff.mp fits
    exact (inductionHypothesis later).trans (consumed_after first)

end Usage

/-! ### Where giving up bytes leads -/

namespace Source

/-- Whatever was asked of a source, its position is within the text in memory or the storage of the
window. From there a count that fits into the word together with the position drops bytes from the
buffer, as many as there are and no more. Any other count brings bytes back that were given up, as
many as it falls short of the size of a word, and drops none. Where no position overflowed, the
bytes given up and those still to come are the first bytes of the input, each of them once. -/
theorem consume_leads {source : Source} {bound : Nat} (new : source.IsNew bound)
    (calls : List Call) :
    let usage := (Usage.fresh source).run calls
    usage.source.passed.length ≤ bound ∧
    (∀ count, usage.source.passed.length + count < Cursor.wordSize →
      (usage.source.consume count).buffer = usage.source.buffer.drop count) ∧
    (∀ count < Cursor.wordSize, Cursor.wordSize ≤ usage.source.passed.length + count →
      (usage.source.consume count).buffer =
          (usage.source.passed.take (Cursor.wordSize - count)).reverse ++ usage.source.buffer ∧
        (usage.source.consume count).buffer.length =
          Cursor.wordSize - count + usage.source.buffer.length) ∧
    ((Usage.fresh source).fitsAll calls →
      usage.consumed ++ usage.source.content <+: source.content) := by
  intro usage
  have placed : usage.source.passed.length ≤ bound :=
    (@Usage.isBounded_run (.fresh source) bound new.isBounded calls).length_passed_le
  have counted : usage.source.passed.length < Cursor.wordSize :=
    Nat.lt_of_le_of_lt placed new.lt_wordSize
  refine ⟨placed, fun count within => ?_, fun count word beyond => ?_, fun fits => ?_⟩
  · rw [consume_of_lt within, buffer_advance]
  · have back := buffer_consume_of_le word counted beyond
    refine ⟨back, ?_⟩
    rw [back, List.length_append, List.length_reverse, List.length_take]
    omega
  · exact @Usage.consumed_run (.fresh source) calls fits

/-- Three bytes are given up, and then nearly as many as a word can count. -/
theorem consume_leads_overrunning :
    let text := Bytes.ofString "1. e4 *"
    let usage := (Usage.fresh (.ofBytes text)).run [.consume 3]
    (ofBytes text).IsNew text.length ∧ usage.source.passed.length = 3 ∧
      (usage.source.consume 18446744073709551614).buffer.length =
        2 + usage.source.buffer.length := by
  intro text usage
  have new : (ofBytes text).IsNew text.length := .slice (by decide +kernel)
  refine ⟨new, by decide +kernel, ?_⟩
  exact ((consume_leads new [.consume 3]).2.2.1 18446744073709551614 (by decide +kernel)
    (by decide +kernel)).2

/-- A byte that was given up is offered again, by a text in memory and by a window alike. -/
theorem consume_brings_back :
    let slice := ((Usage.fresh (.ofBytes (Bytes.ofString "1. e4 *"))).run [.consume 3]).source
    let stream :=
      ((Usage.fresh (.ofDevice (.ofBytes (Bytes.ofString "1. e4 *")))).run
        [.fill, .consume 3]).source
    slice.buffer = Bytes.ofString "e4 *" ∧ stream.buffer = Bytes.ofString "e4 *" ∧
      (Bytes.ofString "e4 *").drop 18446744073709551615 = [] ∧
      (slice.consume 18446744073709551615).buffer = Bytes.ofString " e4 *" ∧
      (stream.consume 18446744073709551615).buffer = Bytes.ofString " e4 *" := by
  decide +kernel

end Source

end Scoresheet
