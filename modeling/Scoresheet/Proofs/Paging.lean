/-
This file shows that pages hold what the searches of their reader return, without loss, repetition
or change of order. All pages are full but for the last one, and an error comes directly behind the
games that were read before it.

A page makes as many searches as it has room for games, or fewer if one of them finds that the
reader is done, behind which further searches return nothing. So the reader behind a page is always
the one behind a whole page of searches, and what holds of a row of pages follows page by page from
what the searches return.
-/

import Scoresheet.Cache.PairHash
import Scoresheet.Proofs.Cutting
import Scoresheet.Proofs.History
import Scoresheet.Reader.Pages

namespace Scoresheet

namespace Reader

variable [Hashable HeaderPair] {reader : Reader} {calls more : Nat}

/-! ### What searches return -/

/-- What the given number of searches return, in order. -/
def results : Nat → Reader → List (Except ReadError Entry)
  | 0, _ => []
  | calls + 1, reader => reader.next.1.toList ++ results calls reader.next.2

theorem results_of_isDone (done : reader.isDone = true) (calls : Nat) :
    reader.results calls = [] := by
  induction calls with
  | zero => rfl
  | succ calls inductionHypothesis =>
    rw [results, next_of_isDone done]
    exact inductionHypothesis

theorem results_add (first second : Nat) (reader : Reader) :
    reader.results (first + second) =
      reader.results first ++ (reader.afterCalls first).results second := by
  induction first generalizing reader with
  | zero => rw [Nat.zero_add]; rfl
  | succ first inductionHypothesis =>
    rw [Nat.succ_add, results, results, inductionHypothesis, List.append_assoc]
    rfl

theorem afterCalls_add (first second : Nat) (reader : Reader) :
    reader.afterCalls (first + second) = (reader.afterCalls first).afterCalls second := by
  induction first generalizing reader with
  | zero => rw [Nat.zero_add]; rfl
  | succ first inductionHypothesis =>
    rw [Nat.succ_add]
    exact inductionHypothesis _

/-- Once the reader is done, further searches return nothing. -/
theorem results_of_le (done : (reader.afterCalls calls).isDone = true) (le : calls ≤ more) :
    reader.results more = reader.results calls := by
  obtain ⟨further, rfl⟩ := Nat.exists_eq_add_of_le le
  rw [results_add, results_of_isDone done, List.append_nil]

theorem isDone_of_le (done : (reader.afterCalls calls).isDone = true) (le : calls ≤ more) :
    (reader.afterCalls more).isDone = true := by
  obtain ⟨further, rfl⟩ := Nat.exists_eq_add_of_le le
  rwa [afterCalls_add, afterCalls_of_isDone done]

end Reader

namespace Pages

open Reader

variable [Hashable HeaderPair] {reader : Reader} {pages : Pages}

/-! ### Collecting a page -/

/-- What was collected with the given number of searches is all that they return, and the reader is
the one behind them all. -/
structure Gathers (count : Nat) (reader : Reader)
    (collected : List Entry × Option ReadError × Reader) : Prop where
  results : reader.results count =
    collected.1.map .ok ++ collected.2.1.toList.map .error
  reader : collected.2.2 = reader.afterCalls count
  length_le : collected.1.length ≤ count
  isDone : collected.1.length < count → collected.2.2.isDone = true
  pending : collected.2.1 ≠ none → collected.1.length < count
  fits : collected.1.length = count → ∀ entry, collected.1.getLast? = some entry →
    Draft.Step.Fits collected.2.2.lexer.token (.finished entry.game)

/-- A search that finds no game ends the page, and later ones would return nothing. -/
theorem Gathers.of_last {count : Nat} {last : Option ReadError}
    (returned : reader.next.1 = last.map .error) :
    Gathers (count + 1) reader ([], last, reader.next.2) := by
  have done : reader.next.2.isDone = true := isDone_of_next fun entry found => by
    rw [returned] at found
    cases last <;> cases found
  refine ⟨?_, (afterCalls_of_isDone done count).symm, Nat.zero_le _, fun _ => done,
    fun _ => Nat.succ_pos count, fun none => absurd none.symm (Nat.succ_ne_zero count)⟩
  rw [Reader.results, returned, results_of_isDone done, List.append_nil]
  cases last <;> rfl

/-- A game that is found comes before what is collected behind it. -/
theorem Gathers.of_game {count : Nat} {entry : Entry} {entries : List Entry}
    {pending : Option ReadError} {after : Reader} (found : reader.next.1 = some (.ok entry))
    (gathers : Gathers count reader.next.2 (entries, pending, after)) :
    Gathers (count + 1) reader (entry :: entries, pending, after) where
  results := by
    rw [Reader.results, found, gathers.results]
    rfl
  reader := gathers.reader
  length_le := Nat.succ_le_succ gathers.length_le
  isDone := fun few => gathers.isDone (Nat.lt_of_succ_lt_succ few)
  pending := fun parked => Nat.succ_lt_succ (gathers.pending parked)
  fits := fun full last final => by
    have length : entries.length = count := Nat.succ.inj full
    cases entries with
    | nil =>
      obtain rfl : count = 0 := length.symm
      obtain rfl : entry = last := Option.some.inj final
      rw [gathers.reader]
      exact next_fits found
    | cons first rest => exact gathers.fits length last (List.getLast?_cons_cons ▸ final)

theorem collect_gathers (count : Nat) (reader : Reader) :
    Gathers count reader (collect count reader) := by
  induction count generalizing reader with
  | zero =>
    exact ⟨rfl, rfl, Nat.le_refl 0, fun few => absurd few (Nat.not_lt_zero _), absurd rfl, nofun⟩
  | succ count inductionHypothesis =>
    unfold collect
    split
    · next after found =>
      have last : reader.next.1 = (none : Option ReadError).map .error := by rw [found]; rfl
      have gathers : Gathers (count + 1) reader ([], none, reader.next.2) := .of_last last
      rwa [found] at gathers
    · next error after found =>
      have last : reader.next.1 = (some error).map .error := by rw [found]; rfl
      have gathers : Gathers (count + 1) reader ([], some error, reader.next.2) := .of_last last
      rwa [found] at gathers
    · next entry after found =>
      have game : reader.next.1 = some (.ok entry) := by rw [found]
      have gathers := inductionHypothesis reader.next.2
      rw [found] at gathers
      refine .of_game game ?_
      rwa [found]

/-! ### One page -/

/-- The games of a page, or the error that stands in place of one. -/
def spread : Except ReadError (List Entry) → List (Except ReadError Entry)
  | .ok page => page.map .ok
  | .error error => [.error error]

/-- The error that is still to be told. -/
def parked (pages : Pages) : List (Except ReadError Entry) := pages.pending.toList.map .error

/-- Behind an error that is still to be told there is nothing to read. -/
def TellsLast (pages : Pages) : Prop := pages.pending ≠ none → pages.reader.isDone = true

/-- What can come of the request for a page: a full page, a shorter one that is the last, an error
or nothing. -/
inductive Yields (size : Nat) (after : Pages) : Option (Except ReadError (List Entry)) → Prop where
  | full {page : List Entry} (length : page.length = size) (pending : after.pending = none)
      (fits : ∀ entry, page.getLast? = some entry →
        Draft.Step.Fits after.reader.lexer.token (.finished entry.game)) :
      Yields size after (some (.ok page))
  | short {page : List Entry} (nonempty : page ≠ []) (length : page.length < size)
      (done : after.reader.isDone = true) : Yields size after (some (.ok page))
  | last {error : ReadError} (pending : after.pending = none) (done : after.reader.isDone = true) :
      Yields size after (some (.error error))
  | ended (pending : after.pending = none) (done : after.reader.isDone = true) :
      Yields size after none

/-- What becomes of pages when one is requested. -/
structure Turns (pages after : Pages) (result : Option (Except ReadError (List Entry))) :
    Prop where
  size : after.size = pages.size
  reader : after.reader = pages.reader.afterCalls pages.size
  results : result.toList.flatMap spread ++ after.parked =
    pages.parked ++ pages.reader.results pages.size
  telling : after.TellsLast
  yields : Yields pages.size after result

theorem next_turns (telling : pages.TellsLast) (positive : 0 < pages.size) :
    pages.Turns pages.next.2 pages.next.1 := by
  have gathers := collect_gathers pages.size pages.reader
  unfold next
  split
  · next error waiting =>
    have done : pages.reader.isDone = true := telling (by rw [waiting]; nofun)
    refine ⟨rfl, (afterCalls_of_isDone done _).symm, ?_, absurd rfl, .last rfl done⟩
    rw [results_of_isDone done, parked, parked, waiting]
    rfl
  · next waiting =>
    have empty : pages.parked = [] := by rw [parked, waiting]; rfl
    split
    · next after collected =>
      rw [collected] at gathers
      refine ⟨rfl, gathers.reader, ?_, fun told => absurd waiting told,
        .ended waiting (gathers.isDone positive)⟩
      rw [gathers.results, empty, parked, waiting]
      rfl
    · next error after collected =>
      rw [collected] at gathers
      refine ⟨rfl, gathers.reader, ?_, fun told => absurd waiting told,
        .last waiting (gathers.isDone positive)⟩
      rw [gathers.results, empty, parked, waiting]
      rfl
    · next entries pending after nothing failed collected =>
      rw [collected] at gathers
      refine ⟨rfl, gathers.reader, ?_, fun told => gathers.isDone (gathers.pending told), ?_⟩
      · rw [gathers.results, empty]
        exact congrArg (· ++ _) (List.append_nil _)
      · rcases Nat.lt_or_eq_of_le gathers.length_le with few | full
        · refine .short ?_ few (gathers.isDone few)
          rintro rfl
          cases pending with
          | none => exact nothing rfl rfl
          | some error => exact failed error rfl rfl
        · refine .full full ?_ fun entry final => gathers.fits full entry final
          cases pending with
          | none => rfl
          | some error =>
            exact absurd full (Nat.ne_of_lt (gathers.pending (Option.some_ne_none error)))

/-! ### Page after page -/

/-- The pages once the given number of them was requested. -/
def after : Nat → Pages → Pages
  | 0, pages => pages
  | count + 1, pages => after count pages.next.2

/-- What the given number of requests for a page return, in order. -/
def items : Nat → Pages → List (Except ReadError (List Entry))
  | 0, _ => []
  | count + 1, pages => pages.next.1.toList ++ items count pages.next.2

theorem after_succ (count : Nat) (pages : Pages) :
    pages.after (count + 1) = (pages.after count).next.2 := by
  induction count generalizing pages with
  | zero => rfl
  | succ count inductionHypothesis => exact inductionHypothesis pages.next.2

/-- Pages that are requested stay as they should be. -/
theorem after_keeps (telling : pages.TellsLast) (positive : 0 < pages.size) (count : Nat) :
    (pages.after count).TellsLast ∧ (pages.after count).size = pages.size ∧
      (pages.after count).reader = pages.reader.afterCalls (count * pages.size) := by
  induction count with
  | zero => exact ⟨telling, rfl, by rw [Nat.zero_mul]; rfl⟩
  | succ count inductionHypothesis =>
    obtain ⟨kept, size, reader⟩ := inductionHypothesis
    have turns := next_turns kept (size ▸ positive)
    rw [after_succ]
    refine ⟨turns.telling, turns.size.trans size, ?_⟩
    rw [turns.reader, size, reader, Nat.succ_mul, afterCalls_add]

/-- What the pages hold, and the error that is still to be told, is what a search for each of their
games returns. -/
theorem items_results (telling : pages.TellsLast) (positive : 0 < pages.size) (count : Nat) :
    (pages.items count).flatMap spread ++ (pages.after count).parked =
      pages.parked ++ pages.reader.results (count * pages.size) := by
  induction count generalizing pages with
  | zero =>
    rw [Nat.zero_mul]
    exact (List.append_nil _).symm
  | succ count inductionHypothesis =>
    have turns := next_turns telling positive
    have rest := inductionHypothesis turns.telling (turns.size ▸ positive)
    rw [turns.size, turns.reader] at rest
    rw [items, after, List.flatMap_append, List.append_assoc, rest, ← List.append_assoc,
      turns.results, Nat.succ_mul, Nat.add_comm, results_add, List.append_assoc]

theorem collect_of_isDone (done : reader.isDone = true) (count : Nat) :
    collect count reader = ([], none, reader) := by
  cases count with
  | zero => rfl
  | succ count =>
    unfold collect
    rw [Reader.next_of_isDone done]

/-- Of a reader that is done, only an error that is still to be told remains. -/
theorem next_of_isDone (done : pages.reader.isDone = true) :
    pages.next = (pages.pending.map .error, { pages with pending := none }) := by
  obtain ⟨reader, size, pending⟩ := pages
  cases pending with
  | some error => rfl
  | none =>
    unfold next
    dsimp only
    rw [collect_of_isDone done]
    rfl

theorem next_of_ended (done : pages.reader.isDone = true) (empty : pages.pending = none) :
    pages.next = (none, pages) := by
  obtain ⟨reader, size, pending⟩ := pages
  obtain rfl : pending = none := empty
  exact next_of_isDone done

theorem after_of_ended (done : pages.reader.isDone = true) (empty : pages.pending = none)
    (count : Nat) : pages.after count = pages := by
  induction count with
  | zero => rfl
  | succ count inductionHypothesis =>
    rw [after, next_of_ended done empty]
    exact inductionHypothesis

theorem items_of_ended (done : pages.reader.isDone = true) (empty : pages.pending = none)
    (count : Nat) : pages.items count = [] := by
  induction count with
  | zero => rfl
  | succ count inductionHypothesis =>
    rw [items, next_of_ended done empty]
    exact inductionHypothesis

theorem items_of_isDone (done : pages.reader.isDone = true) (count : Nat) :
    ∃ last : Option ReadError, pages.items count = last.toList.map .error := by
  cases count with
  | zero => exact ⟨none, rfl⟩
  | succ count =>
    have rest : items count { pages with pending := none } = [] :=
      @items_of_ended _ { pages with pending := none } done rfl count
    refine ⟨pages.pending, ?_⟩
    rw [items, next_of_isDone done, rest, List.append_nil]
    cases pages.pending <;> rfl

/-- All pages are full, then there may be a shorter one that is not empty, and then an error. -/
def Paginates (size : Nat) (items : List (Except ReadError (List Entry))) : Prop :=
  ∃ (full : List (List Entry)) (short : Option (List Entry)) (last : Option ReadError),
    items = full.map .ok ++ short.toList.map .ok ++ last.toList.map .error ∧
      (∀ page ∈ full, page.length = size) ∧
      ∀ page ∈ short, page ≠ [] ∧ page.length < size

theorem items_paginate (telling : pages.TellsLast) (positive : 0 < pages.size) (count : Nat) :
    Paginates pages.size (pages.items count) := by
  induction count generalizing pages with
  | zero => exact ⟨[], none, none, rfl, List.forall_mem_nil _, nofun⟩
  | succ count inductionHypothesis =>
    have turns := next_turns telling positive
    have yields := turns.yields
    rw [items]
    generalize pages.next.1 = result at yields
    cases yields with
    | full length pending fits =>
      obtain ⟨full, short, last, told, even, odd⟩ :=
        inductionHypothesis turns.telling (turns.size ▸ positive)
      rw [turns.size] at even odd
      refine ⟨_ :: full, short, last, congrArg (_ :: ·) told, ?_, odd⟩
      exact List.forall_mem_cons.mpr ⟨length, even⟩
    | @short page nonempty length done =>
      obtain ⟨last, told⟩ := items_of_isDone done count
      refine ⟨[], some page, last, congrArg (_ :: ·) told, List.forall_mem_nil _, ?_⟩
      intro other same
      obtain rfl := Option.mem_some_iff.mp same
      exact ⟨nonempty, length⟩
    | @last error pending done =>
      refine ⟨[], none, some error, ?_, List.forall_mem_nil _, nofun⟩
      rw [items_of_ended done pending]
      rfl
    | ended pending done =>
      refine ⟨[], none, none, ?_, List.forall_mem_nil _, nofun⟩
      rw [items_of_ended done pending]
      rfl

/-- With as many pages as there can be games everything was told. -/
theorem items_complete (telling : pages.TellsLast) (positive : 0 < pages.size) {calls count : Nat}
    (done : (pages.reader.afterCalls calls).isDone = true) (enough : calls < count) :
    (pages.items count).flatMap spread = pages.parked ++ pages.reader.results calls ∧
      (pages.after count).next.1 = none := by
  obtain ⟨earlier, rfl⟩ : ∃ earlier, count = earlier + 1 := ⟨count - 1, by omega⟩
  have wide : earlier ≤ earlier * pages.size := Nat.le_mul_of_pos_right earlier positive
  obtain ⟨-, -, reader⟩ := after_keeps telling positive earlier
  have ended : (pages.after earlier).reader.isDone = true :=
    reader ▸ isDone_of_le done (by omega)
  have step := next_of_isDone ended
  have empty : (pages.after (earlier + 1)).pending = none := by rw [after_succ, step]
  have past : (pages.after (earlier + 1)).reader.isDone = true := by rwa [after_succ, step]
  have told := items_results telling positive (earlier + 1)
  have long : calls ≤ (earlier + 1) * pages.size := by
    rw [Nat.succ_mul]
    omega
  rw [parked, empty, results_of_le done long] at told
  exact ⟨(List.append_nil _).symm.trans told, by rw [next_of_ended past empty]⟩

theorem next?_of_le (fits : pages.size ≤ largestSize) : pages.next? = some pages.next :=
  if_neg fun large => absurd large.2 (Nat.not_lt_of_le fits)

/-- Closed pages have nothing more to tell. -/
theorem after_close (pages : Pages) (count : Nat) : pages.close.after count = pages.close :=
  after_of_ended rfl rfl count

end Pages

namespace Reader

open Pages

/-- Pages of a size that there can be room for hold what the searches of their reader return, with
an error that a page ended with being told behind it; with enough pages, they hold all of it. All of
them are full but for the last one, an error comes behind it and nothing behind an error. A full
page has gone no further than the termination marker of its last game. Pages that are closed hold
nothing more. -/
theorem pages_hold_results [Hashable HeaderPair] (reader : Reader) {size : Nat}
    (positive : 0 < size) (fits : size ≤ largestSize) :
    ∃ pages, Pages.ofReader? size reader = some pages ∧ ∀ count,
      (pages.after count).next? = some (pages.after count).next ∧
      (pages.items count).flatMap spread ++ (pages.after count).parked =
        reader.results (count * size) ∧
      (reader.lexer.source.content.length + 2 < count →
        (∀ calls ≥ reader.lexer.source.content.length + 2,
          (pages.items count).flatMap spread = reader.results calls) ∧
        (pages.after count).next.1 = none) ∧
      Paginates size (pages.items count) ∧
      (pages.after count).reader = reader.afterCalls (count * size) ∧
      (∀ page, (pages.after count).next.1 = some (.ok page) → page.length = size →
        ∃ entry, page.getLast? = some entry ∧
          (reader.afterCalls ((count + 1) * size)).lexer.kind = .termination ∧
          (reader.afterCalls ((count + 1) * size)).lexer.span = entry.game.outcome.marker) ∧
      ∀ later, ((pages.after count).close.after later).next? =
        some (none, (pages.after count).close) := by
  refine ⟨⟨reader, size, none⟩, if_neg (Nat.ne_of_gt positive), fun count => ?_⟩
  have telling : TellsLast ⟨reader, size, none⟩ := absurd rfl
  obtain ⟨kept, same, reached⟩ := after_keeps telling positive count
  have done : (reader.afterCalls (reader.lexer.source.content.length + 2)).isDone = true :=
    (endsWithin_content reader).isDone (Nat.lt_succ_self _)
  have small : (Pages.after count ⟨reader, size, none⟩).size ≤ largestSize := same.symm ▸ fits
  refine ⟨next?_of_le small, items_results telling positive count, fun enough => ?_,
    items_paginate telling positive count, reached, fun page told length => ?_, fun later => ?_⟩
  · obtain ⟨all, nothing⟩ := items_complete telling positive done enough
    exact ⟨fun calls le => all.trans (results_of_le done le).symm, nothing⟩
  · have turns := next_turns kept (same.symm ▸ positive)
    have yields := turns.yields
    have further := (after_keeps telling positive (count + 1)).2.2
    rw [told, same] at yields
    rw [after_succ] at further
    cases yields with
    | full _ _ marked =>
      cases final : page.getLast? with
      | none =>
        rw [List.getLast?_eq_none_iff.mp final] at length
        exact absurd length (Nat.ne_of_lt positive)
      | some entry =>
        obtain ⟨kind, marker⟩ := marked entry final
        rw [further] at kind marker
        exact ⟨entry, rfl, kind, marker.symm⟩
    | short _ few _ => exact absurd length (Nat.ne_of_lt few)
  · have closed : (Pages.after count ⟨reader, size, none⟩).close.size ≤ largestSize := small
    rw [after_close, next?_of_le closed]
    exact congrArg some (next_of_ended rfl rfl)

open scoped PairHash

/-- A reader over three games and one that is refused. -/
def refusing : Reader :=
  ofBytes (Bytes.ofString "1. e4 *\n1. d4 1-0\n1. c4 *\n1. f4 ]")

theorem pages_hold_results_refusing :
    (0 < 2 ∧ 2 ≤ largestSize) ∧
      ∃ pages, Pages.ofReader? 2 refusing = some pages ∧
        (pages.items 50).flatMap spread = refusing.results 50 ∧
        (pages.items 50).length = 3 ∧
        (∃ page entry, pages.next.1 = some (.ok page) ∧ page.length = 2 ∧
          page.getLast? = some entry ∧
          (refusing.afterCalls 2).lexer.kind = .termination ∧
          (refusing.afterCalls 2).lexer.span = entry.game.outcome.marker) ∧
        (pages.after 2).pending.isSome = true ∧
        (pages.after 2).close.next? = some (none, (pages.after 2).close) := by
  have positive : 0 < 2 := Nat.two_pos
  have small : 2 ≤ largestSize := by decide
  have enough : refusing.lexer.source.content.length + 2 < 50 := by decide +kernel
  obtain ⟨pages, made, held⟩ := pages_hold_results refusing positive small
  obtain rfl : ⟨refusing, 2, none⟩ = pages := Option.some.inj made
  obtain ⟨-, -, complete, -⟩ := held 50
  obtain ⟨-, -, -, -, -, ends, -⟩ := held 0
  obtain ⟨-, -, -, -, -, -, closed⟩ := held 2
  have full : ∃ page ∈ (Pages.next ⟨refusing, 2, none⟩).1.bind Except.toOption,
      page.length = 2 := by
    decide +kernel
  obtain ⟨page, member, length⟩ := full
  obtain ⟨result, told, kept⟩ := Option.bind_eq_some_iff.mp member
  obtain rfl : result = .ok page := by
    cases result with
    | error error => cases kept
    | ok other => exact congrArg Except.ok (Option.some.inj kept)
  obtain ⟨entry, final, kind, marker⟩ := ends page told length
  refine ⟨⟨positive, small⟩, _, made, (complete enough).1 50 (Nat.le_of_lt enough), ?_,
    ⟨page, entry, told, length, final, kind, marker⟩, ?_, closed 0⟩
  · decide +kernel
  · decide +kernel

end Reader

open scoped PairHash

/-- There is no page of a size that there can be no room for, not even of the one game there is. -/
theorem Pages.next?_oversized :
    ∃ pages,
      Pages.ofReader? 4611686018427387904 (.ofBytes (Bytes.ofString "1. e4 *")) = some pages ∧
      (pages.reader.results 2).length = 1 ∧ pages.next? = none :=
  ⟨_, rfl, by decide +kernel, by decide +kernel⟩

end Scoresheet
