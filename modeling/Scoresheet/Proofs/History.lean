/-
This file says what an input comes to as a whole. Its history is made of the events of its segments
in their order. A reader that recovers from errors and has no limit spends the history of what is
left to read: a search for the next game makes the first events of it and leaves the others. So a
reader that is asked often enough for the next game makes the whole history and nothing else.
-/

import Scoresheet.Proofs.Events
import Scoresheet.Proofs.Exhaustion

namespace Scoresheet

namespace Lexer

variable {lexer after : Lexer} {config : Config}

/-! ### What a segment takes -/

theorem consumes_segment (lexer : Lexer) : lexer.Consumes lexer.segment.2 := by
  induction lexer using segment_induction with
  | failed lexer after failure failed =>
    rw [segment_of_failed failed]
    exact consumes_of_advance failed
  | last lexer after advanced last =>
    rw [segment_of_last advanced last]
    exact consumes_of_advance advanced
  | marker lexer after advanced more marker =>
    rw [segment_of_marker advanced more marker]
    exact consumes_of_advance advanced
  | inside lexer after advanced more within inductionHypothesis =>
    rw [segment_of_inside advanced more within]
    exact (consumes_of_advance advanced).trans inductionHypothesis

/-- A segment takes something, unless nothing is left. -/
theorem offset_lt_segment (unfailing : lexer.source.IsUnfailing)
    (more : lexer.segment.2.isExhausted = false) :
    lexer.place.offset < lexer.segment.2.place.offset := by
  obtain ⟨after, success, _⟩ := advance_of_isUnfailing unfailing
  cases last : after.isExhausted with
  | true =>
    rw [segment_of_last success last, last] at more
    cases more
  | false =>
    refine Nat.lt_of_lt_of_le (offset_lt_of_advance success last) ?_
    by_cases marker : after.kind = .termination
    · exact Nat.le_of_eq (by rw [segment_of_marker success last marker])
    · rw [segment_of_inside success last marker]
      exact (consumes_segment after).offset_le

/-! ### History -/

/-- The events that the segments make, one after the other, as long as they take something. -/
def history (config : Config) (lexer : Lexer) : List Event :=
  (lexer.event? config).toList ++
    if _ : lexer.segment.2.source.content.length < lexer.source.content.length then
      history config lexer.segment.2
    else []
termination_by lexer.source.content.length

/-- Behind the last token nothing happens. -/
theorem history_of_isExhausted (exhausted : lexer.isExhausted = true) :
    lexer.history config = [] := by
  fun_induction history config lexer with
  | case1 lexer inductionHypothesis =>
    rw [event?_of_isExhausted exhausted, Option.toList_none, List.nil_append]
    split
    · next shorter => exact inductionHypothesis shorter (segment_of_isExhausted exhausted).2.1
    · rfl

/-- The history goes on behind the first segment. -/
theorem history_eq (unfailing : lexer.source.IsUnfailing) :
    lexer.history config = (lexer.event? config).toList ++ lexer.segment.2.history config := by
  conv => lhs; rw [history]
  split
  · rfl
  · next rest =>
    cases last : lexer.segment.2.isExhausted with
    | true => rw [history_of_isExhausted last]
    | false =>
      exact absurd ((consumes_segment lexer).content_lt (offset_lt_segment unfailing last)) rest

end Lexer

namespace Reader

variable {reader before middle after : Reader}

/-- What is still to happen, unless the reader is done. -/
def history (reader : Reader) : List Event :=
  if reader.isDone then [] else reader.lexer.history reader.config

theorem history_of_isDone (done : reader.isDone = true) : reader.history = [] := if_pos done

theorem history_of_running (running : reader.isDone = false) :
    reader.history = reader.lexer.history reader.config :=
  if_neg (Bool.eq_false_iff.mp running)

/-- The events were the first of the history, and the others are left. -/
structure Spends (before : Reader) (events : List Event) (after : Reader) : Prop where
  history : before.history = events ++ after.history
  config : after.config = before.config
  unfailing : after.lexer.source.IsUnfailing

theorem Spends.trans {first second : List Event} (left : Spends before first middle)
    (right : Spends middle second after) : Spends before (first ++ second) after where
  history := by rw [left.history, right.history, List.append_assoc]
  config := right.config.trans left.config
  unfailing := right.unfailing

variable [Hashable HeaderPair]

theorem Spends.pass (recovering : reader.config.stopOnError = false)
    (unfailing : reader.lexer.source.IsUnfailing) (running : reader.isDone = false) :
    Spends reader (reader.lexer.event? reader.config).toList reader.pass.2 := by
  obtain ⟨ends, later⟩ := Lexer.ends_of_isUnfailing unfailing
  have history := history_of_running running
  rw [Lexer.history_eq unfailing] at history
  have onward {after : Reader} (lexer : after.lexer = reader.lexer.segment.2)
      (config : after.config = reader.config) (still : after.isDone = false) :
      Spends reader (reader.lexer.event? reader.config).toList after :=
    ⟨by rw [history, history_of_running still, lexer, config], config, lexer ▸ later⟩
  have ended {after : Reader} (lexer : after.lexer = reader.lexer.segment.2)
      (config : after.config = reader.config) (done : after.isDone = true)
      (noMarker : ¬ reader.lexer.EndsMarked) :
      Spends reader (reader.lexer.event? reader.config).toList after := by
    cases ends with
    | marked inner split inside marker more => exact absurd marker noMarker
    | unmarked inside _ last =>
      exact ⟨by rw [history, history_of_isDone done, Lexer.history_of_isExhausted last], config,
        lexer ▸ later⟩
  have outcome := pass_outcome recovering unfailing
  generalize reader.pass = result at outcome ⊢
  generalize reader.lexer.event? reader.config = event at outcome onward ended ⊢
  cases outcome with
  | game entry interner marker => exact onward rfl rfl running
  | recovered error interner => exact onward rfl rfl running
  | cut error interner noMarker => exact ended rfl rfl rfl noMarker
  | nothing interner noMarker => exact ended rfl rfl rfl noMarker

/-- The events of a search: the errors that it adds to those recorded, and what it returns. -/
theorem events_next {errors : List ReadError} {result : Option (Except ReadError Entry)}
    (found : reader.next = (result, after)) (added : after.errors = reader.errors ++ errors) :
    reader.events .next = errors.map .recorded ++ (Reply.game result).events := by
  unfold events answer
  dsimp only
  rw [found, added, List.drop_left]

/-- The search for the next game spends the events of the segments it goes over. -/
theorem Spends.next (recovering : reader.config.stopOnError = false)
    (unlimited : reader.config.gameLimit = none) (unfailing : reader.lexer.source.IsUnfailing) :
    Spends reader (reader.events .next) reader.next.2 := by
  induction reader using next_induction with
  | done reader done =>
    rw [events_next (next_of_isDone done) (List.append_nil _).symm, next_of_isDone done]
    exact ⟨rfl, rfl, unfailing⟩
  | limit reader running limit =>
    rw [atLimit, unlimited] at limit
    cases limit
  | answered reader result after running room passed =>
    have found := next_of_answered running room passed
    have spends := Spends.pass recovering unfailing running
    have outcome := pass_outcome recovering unfailing
    generalize reader.lexer.event? reader.config = event at outcome spends
    rw [passed] at outcome spends
    rw [found]
    cases outcome with
    | game entry interner marker =>
      rw [events_next found (List.append_nil _).symm]
      exact spends
    | cut error interner noMarker =>
      rw [@events_next _ _ _ [error] _ found rfl]
      exact spends
    | nothing interner noMarker =>
      rw [events_next found (List.append_nil _).symm]
      exact spends
  | again reader after running room passed inductionHypothesis =>
    have found := next_of_again running room passed
    have spends := Spends.pass recovering unfailing running
    have outcome := pass_outcome recovering unfailing
    generalize reader.lexer.event? reader.config = event at outcome spends
    rw [passed] at outcome spends
    cases outcome with
    | recovered error interner =>
      have later := inductionHypothesis recovering unlimited spends.unfailing
      obtain ⟨errors, added, _⟩ :=
        @Goes.next _ True _ (spends.config ▸ recovering) spends.unfailing fun _ => trivial
      rw [events_next rfl added] at later
      rw [@events_next _ _ _ (error :: errors) _ found (by rw [added, List.append_assoc]; rfl),
        found]
      exact spends.trans later

/-! ### Asking for every game -/

theorem run_next (calls : Nat) (reader : Reader) :
    (reader.run (List.replicate calls .next)).2 = reader.afterCalls calls := by
  induction calls generalizing reader with
  | zero => rfl
  | succ calls inductionHypothesis => exact inductionHypothesis reader.next.2

theorem Spends.run (recovering : reader.config.stopOnError = false)
    (unlimited : reader.config.gameLimit = none) (unfailing : reader.lexer.source.IsUnfailing)
    (calls : Nat) :
    Spends reader (reader.run (List.replicate calls .next)).1 (reader.afterCalls calls) := by
  induction calls generalizing reader with
  | zero => exact ⟨rfl, rfl, unfailing⟩
  | succ calls inductionHypothesis =>
    have first := Spends.next recovering unlimited unfailing
    exact first.trans (inductionHypothesis (first.config ▸ recovering) (first.config ▸ unlimited)
      first.unfailing)

theorem afterCalls_succ (calls : Nat) (reader : Reader) :
    reader.afterCalls (calls + 1) = (reader.afterCalls calls).next.2 := by
  induction calls generalizing reader with
  | zero => rfl
  | succ calls inductionHypothesis => exact inductionHypothesis reader.next.2

/-- Once a search has returned nothing, the reader is done. -/
theorem EndsWithin.isDone {bound calls : Nat} (ends : reader.EndsWithin bound)
    (enough : bound < calls) : (reader.afterCalls calls).isDone = true := by
  obtain ⟨count, le, last⟩ := ends
  obtain ⟨later, rfl⟩ := Nat.exists_eq_add_of_lt (Nat.lt_of_le_of_lt le enough)
  rw [afterCalls_succ]
  refine isDone_of_next fun entry returned => ?_
  rw [(last (count + later)).mpr (Nat.le_add_right count later)] at returned
  cases returned

/-- A reader that is asked for the next game until there is none makes the history of its input. -/
theorem run_next_eq_history (recovering : reader.config.stopOnError = false)
    (unlimited : reader.config.gameLimit = none) (unfailing : reader.lexer.source.IsUnfailing)
    {calls : Nat} (enough : reader.lexer.source.content.length + 2 ≤ calls) :
    (reader.run (List.replicate calls .next)).1 = reader.history := by
  have spends := Spends.run recovering unlimited unfailing calls
  rw [spends.history, history_of_isDone ((endsWithin_content reader).isDone enough),
    List.append_nil]

end Reader

end Scoresheet
