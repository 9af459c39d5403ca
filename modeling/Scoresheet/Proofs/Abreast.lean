/-
This file shows that a lexer reads an atom alike wherever it stands. Two lexers are abreast if the
same is left of the atom they are in, with texts behind it that white space parts from it, and their
states are the same but for where they stand. Each scan that makes up a token of the movetext looks
no further than to the white space, so it gives both lexers the same value and leaves them abreast.
Behind the atom the separators are passed, however different they are, and the lexers are abreast in
the next one.
-/

import Scoresheet.Proofs.Echoes
import Scoresheet.Proofs.Layout
import Scoresheet.Proofs.Tracking

namespace Scoresheet

open Ascii Bytes

namespace Lexer

/-! ### In an atom -/

/-- The rest of an atom is still to come, and the tail behind it. The rest is no escaped line. -/
structure Remains (rest tail : Bytes) (lexer : Lexer) : Prop where
  honest : lexer.source.IsHonest
  content : lexer.source.content = rest ++ tail
  inLine : lexer.place.lineStart ≤ lexer.place.offset
  aside : rest.head? = some percent → lexer.place.atLineStart = false

/-- The same is left of an atom for both lexers, and they differ in nothing but where they stand and
what is behind the atom. Neither is in a header section. -/
structure Abreast (rest tail tail' : Bytes) (first second : Lexer) : Prop where
  left : first.Remains rest tail
  right : second.Remains rest tail'
  same : first.unplaced = second.unplaced
  noHeader : first.scope ≠ .header

variable {keep : Bool} {rest run tail tail' : Bytes} {byte : UInt8}
  {lexer after first second firstAfter secondAfter : Lexer}

theorem Remains.takes (remains : lexer.Remains (run ++ rest) tail)
    (within : rest.head? = some percent → lineFeed ∉ run) (takes : Takes keep run lexer after) :
    after.Remains rest tail where
  honest := takes.honest
  content := by
    have content := remains.content
    rw [takes.content, List.append_assoc] at content
    exact List.append_cancel_left content
  inLine := by
    rw [takes.place]
    exact Place.lineStart_le_pass remains.inLine run
  aside escape := by
    rw [takes.place]
    have inLine := within escape
    rcases List.eq_nil_or_concat run with rfl | ⟨before, last, rfl⟩
    · exact remains.aside escape
    · rw [List.concat_eq_append] at inLine ⊢
      rw [Place.pass_append]
      refine Place.atLineStart_next (Place.lineStart_le_pass remains.inLine before) ?_
      rintro rfl
      exact inLine (List.mem_append_right _ List.mem_cons_self)

theorem Takes.unplaced (takes : Takes keep run lexer after) :
    after.unplaced = { lexer.unplaced with
      captured := if keep then run.reverse ++ lexer.captured else lexer.captured } := by
  have states := congrArg Lexer.unplaced takes.state
  exact states

/-- Passing the same part of the atom. -/
theorem Abreast.takes (abreast : Abreast (run ++ rest) tail tail' first second)
    (within : rest.head? = some percent → lineFeed ∉ run) (left : Takes keep run first firstAfter)
    (right : Takes keep run second secondAfter) :
    Abreast rest tail tail' firstAfter secondAfter where
  left := abreast.left.takes within left
  right := abreast.right.takes within right
  same := by
    have captured := congrArg Lexer.captured abreast.same
    have kept : first.captured = second.captured := captured
    rw [left.unplaced, right.unplaced, abreast.same, kept]
  noHeader := by
    rw [left.scope_eq]
    exact abreast.noHeader

/-- A change that depends neither on the source nor on where the lexer stands. -/
theorem Abreast.update {update : Lexer → Lexer} (abreast : Abreast rest tail tail' first second)
    (source : ∀ lexer : Lexer, (update lexer).source = lexer.source)
    (place : ∀ lexer : Lexer, (update lexer).place = lexer.place)
    (oblivious : ∀ lexer : Lexer, (update lexer).unplaced = (update lexer.unplaced).unplaced)
    (noHeader : (update first).scope ≠ .header) :
    Abreast rest tail tail' (update first) (update second) where
  left := ⟨source first ▸ abreast.left.honest, source first ▸ abreast.left.content,
    place first ▸ abreast.left.inLine, place first ▸ abreast.left.aside⟩
  right := ⟨source second ▸ abreast.right.honest, source second ▸ abreast.right.content,
    place second ▸ abreast.right.inLine, place second ▸ abreast.right.aside⟩
  same := by rw [oblivious, abreast.same, ← oblivious]
  noHeader := noHeader

/-- What depends neither on the source nor on where the lexer stands is the same. -/
theorem Abreast.view {Value : Type} {view : Lexer → Value}
    (abreast : Abreast rest tail tail' first second)
    (oblivious : ∀ lexer : Lexer, view lexer = view lexer.unplaced) : view first = view second := by
  rw [oblivious, abreast.same, ← oblivious]

theorem Abreast.markStart (abreast : Abreast rest tail tail' first second) :
    Abreast rest tail tail' first.markStart second.markStart :=
  abreast.update (fun _ => rfl) (fun _ => rfl) (fun _ => rfl) abreast.noHeader

/-- Taking one byte of the atom that is in sight on both sides. -/
theorem Abreast.take_one (abreast : Abreast (byte :: rest) tail tail' first second) (keep : Bool)
    (noFeed : byte ≠ lineFeed) (shows : first.source.ShowsNext)
    (shows' : second.source.ShowsNext) :
    Abreast rest tail tail' (first.take keep 1) (second.take keep 1) := by
  have left := Takes.take abreast.left.honest keep 1
  have right := Takes.take abreast.right.honest keep 1
  rw [← shows.take_content, abreast.left.content] at left
  rw [← shows'.take_content, abreast.right.content] at right
  have within : lineFeed ∉ [byte] := fun member => noFeed (List.mem_singleton.mp member).symm
  have whole : Abreast ([byte] ++ rest) tail tail' first second := abreast
  exact whole.takes (fun _ => within) left right

end Lexer

/-! ### Scans within plain bytes -/

namespace Scan

open Lexer

variable {Value Result : Type} {holds : Bytes → Source → Prop} {byte : UInt8}

/-- Where so much is left of an atom without braces and so much is in sight, the scan gives lexers
that are abreast the same value and leaves them abreast in the same atom. -/
def SteadyFrom (holds : Bytes → Source → Prop) (scan : Scan Value) : Prop :=
  ∀ ⦃rest tail tail' : Bytes⦄ ⦃first second firstAfter secondAfter : Lexer⦄ ⦃value other : Value⦄,
    Abreast rest tail tail' first second → rest.all isPlain = true → Ends tail → Ends tail' →
      holds rest first.source → holds rest second.source →
      scan.run first = (.ok value, firstAfter) → scan.run second = (.ok other, secondAfter) →
      value = other ∧ ∃ left, left.all isPlain = true ∧
        Abreast left tail tail' firstAfter secondAfter

/-- The scan is steady wherever in the atom it is made. -/
abbrev Steady (scan : Scan Value) : Prop := scan.SteadyFrom fun _ _ => True

theorem SteadyFrom.weaken {scan : Scan Value} {known : Bytes → Source → Prop}
    (steady : scan.SteadyFrom known)
    (knows : ∀ rest source, holds rest source → known rest source) : scan.SteadyFrom holds :=
  fun _ _ _ _ _ _ _ _ _ abreast plain ends ends' shown shown' =>
    steady abreast plain ends ends' (knows _ _ shown) (knows _ _ shown')

theorem SteadyFrom.bind {first : Scan Value} {second : Value → Scan Result}
    (left : first.SteadyFrom holds) (right : ∀ value, (second value).Steady) :
    (first >>= second).SteadyFrom holds := by
  intro rest tail tail' lexer lexer' after after' value value' abreast plain ends ends' shown shown'
    success success'
  obtain ⟨found, middle, early, late⟩ := run_bind_ok success
  obtain ⟨found', middle', early', late'⟩ := run_bind_ok success'
  obtain ⟨rfl, rest, plain, between⟩ := left abreast plain ends ends' shown shown' early early'
  exact right found between plain ends ends' trivial trivial late late'

theorem SteadyFrom.pure (value : Value) : (Pure.pure value : Scan Value).SteadyFrom holds := by
  intro rest tail tail' lexer lexer' after after' found found' abreast plain _ _ _ _ success
    success'
  cases success
  cases success'
  exact ⟨rfl, rest, plain, abreast⟩

theorem SteadyFrom.look {view : Lexer → Value}
    (oblivious : ∀ lexer : Lexer, view lexer = view lexer.unplaced) :
    (Scan.look view).SteadyFrom holds := by
  intro rest tail tail' lexer lexer' after after' found found' abreast plain _ _ _ _ success
    success'
  cases success
  cases success'
  exact ⟨abreast.view oblivious, rest, plain, abreast⟩

theorem SteadyFrom.terminate : Scan.terminate.SteadyFrom holds := by
  intro rest tail tail' lexer lexer' after after' found found' abreast plain _ _ _ _ success
    success'
  cases success
  cases success'
  exact ⟨rfl, rest, plain, @Abreast.update _ _ _ _ _ Lexer.terminate abreast (fun _ => rfl)
    (fun _ => rfl) (fun _ => rfl) nofun⟩

theorem noFeed_of_isPlain {run : Bytes} (plain : run.all isPlain = true) : lineFeed ∉ run :=
  fun member => absurd (List.all_eq_true.mp plain lineFeed member) (by decide)

/-- Passing the byte that begins the rest. -/
theorem SteadyFrom.take (keep : Bool) :
    (Scan.change (·.take keep 1)).SteadyFrom fun rest source =>
      rest.head? = some byte ∧ source.IsReady := by
  intro rest tail tail' lexer lexer' after after' found found' abreast plain _ _ shown shown'
    success success'
  cases success
  cases success'
  obtain ⟨others, rfl⟩ := List.head?_eq_some_iff.mp shown.1
  rw [List.all_cons, Bool.and_eq_true] at plain
  refine ⟨rfl, others, plain.2, abreast.take_one keep ?_ shown.2.showsNext shown'.2.showsNext⟩
  rintro rfl
  exact absurd plain.1 (by decide)

/-- A run that white space stops. -/
theorem SteadyFrom.captureUntil {stop : UInt8 → Bool}
    (stops : ∀ byte, isSpace byte = true → stop byte = true) :
    (Scan.captureUntil stop).SteadyFrom holds := by
  intro rest tail tail' lexer lexer' after after' found found' abreast plain ends ends' _ _ success
    success'
  have left := runUntil_takes abreast.left.honest success
  have right := runUntil_takes abreast.right.honest success'
  rw [abreast.left.content, ends.takeWhile stops] at left
  rw [abreast.right.content, ends'.takeWhile stops] at right
  rw [← List.takeWhile_append_dropWhile (p := (!stop ·)) (l := rest), List.all_append,
    Bool.and_eq_true] at plain
  have split : Abreast (rest.takeWhile (!stop ·) ++ rest.dropWhile (!stop ·)) tail tail' lexer
      lexer' := by
    rwa [List.takeWhile_append_dropWhile]
  exact ⟨rfl, _, plain.2, split.takes (fun _ => noFeed_of_isPlain plain.1) left right⟩

theorem isDelimiter_of_isSpace : ∀ byte, isSpace byte = true → isDelimiter byte = true :=
  forall_isSpace (by decide)

theorem SteadyFrom.delimiter (kind : TokenKind) :
    (Scan.delimiter kind).SteadyFrom fun rest source => rest.head? = some byte ∧ source.IsReady :=
  (SteadyFrom.take false).bind fun _ => .pure kind

theorem SteadyFrom.captureMarker (marker : Bytes) :
    (Scan.capture marker.length).SteadyFrom fun rest source =>
      marker.isPrefixOf rest = true ∧ marker.isPrefixOf source.buffer = true := by
  intro rest tail tail' lexer lexer' after after' found found' abreast plain _ _ shown shown'
    success success'
  cases success
  cases success'
  obtain ⟨begins, sees⟩ := shown
  obtain ⟨others, rfl⟩ := List.isPrefixOf_iff_prefix.mp begins
  have left := Takes.take abreast.left.honest true marker.length
  have right := Takes.take abreast.right.honest true marker.length
  rw [← List.prefix_iff_eq_take.mp (List.isPrefixOf_iff_prefix.mp sees)] at left
  rw [← List.prefix_iff_eq_take.mp (List.isPrefixOf_iff_prefix.mp shown'.2)] at right
  rw [List.all_append, Bool.and_eq_true] at plain
  exact ⟨rfl, others, plain.2, abreast.takes (fun _ => noFeed_of_isPlain plain.1) left right⟩

theorem SteadyFrom.moveKind : Scan.moveKind.SteadyFrom holds := .look fun _ => rfl

/-- White space behind a number says the same as the end of the input. -/
theorem behindDigits_of_ends {tail : Bytes} (ends : Ends tail) :
    behindDigits tail.head? = Pure.pure .moveNumber := by
  cases tail with
  | nil => rfl
  | cons byte tail =>
    have other : ¬ (byte = minus ∨ isLetter byte = true) :=
      @forall_isSpace (fun byte => ¬ (byte = minus ∨ isLetter byte = true)) (by decide) byte
        (ends byte rfl)
    exact if_neg other

theorem SteadyFrom.behindDigits (next : Option UInt8) :
    (Scan.behindDigits next).SteadyFrom holds := by
  unfold Scan.behindDigits
  split
  · split
    · exact (SteadyFrom.captureUntil isDelimiter_of_isSpace).bind fun _ => .moveKind
    · exact .pure _
  · exact .pure _

theorem SteadyFrom.numberToken : Scan.numberToken.SteadyFrom holds := by
  refine (SteadyFrom.captureUntil (forall_isSpace (by decide))).bind fun _ => ?_
  intro rest tail tail' lexer lexer' after after' found found' abreast plain ends ends' _ _ success
    success'
  obtain ⟨next, middle, peeked, onward⟩ := run_bind_ok success
  obtain ⟨next', middle', peeked', onward'⟩ := run_bind_ok success'
  obtain ⟨taking, _, shown⟩ := peek_takes abreast.left.honest peeked
  obtain ⟨taking', _, shown'⟩ := peek_takes abreast.right.honest peeked'
  rw [abreast.left.content] at shown
  rw [abreast.right.content] at shown'
  have between : Abreast rest tail tail' middle middle' :=
    (show Abreast ([] ++ rest) tail tail' lexer lexer' from abreast).takes
      (fun _ => List.not_mem_nil) taking taking'
  cases rest with
  | nil =>
    -- The next bytes may differ here: they are those of two separators.
    rw [shown, List.nil_append, behindDigits_of_ends ends] at onward
    rw [shown', List.nil_append, behindDigits_of_ends ends'] at onward'
    have told : (Pure.pure .moveNumber : Scan TokenKind).Steady := .pure _
    exact told between plain ends ends' trivial trivial onward onward'
  | cons byte others =>
    rw [shown] at onward
    rw [shown'] at onward'
    have told : (Scan.behindDigits (some byte)).Steady := .behindDigits _
    exact told between plain ends ends' trivial trivial onward onward'

theorem isSpace_numericMarkers {marker : Bytes} (member : marker ∈ numericMarkers) :
    marker.any isSpace = false := by
  simp only [numericMarkers, List.mem_cons, List.not_mem_nil, or_false] at member
  rcases member with rfl | rfl | rfl <;> decide

/-- The marker in sight is the one that begins the rest of the atom. -/
theorem find_numericMarkers_of_remains {rest tail : Bytes} {lexer : Lexer}
    (remains : lexer.Remains rest tail) (ends : Ends tail) (ready : lexer.source.IsReady) :
    numericMarkers.find? (·.isPrefixOf lexer.source.buffer) =
      numericMarkers.find? (·.isPrefixOf rest) := by
  rw [find_numericMarkers_buffer ready, remains.content]
  exact find_numericMarkers fun _ member => ends.isPrefixOf (isSpace_numericMarkers member) rest

theorem SteadyFrom.digitToken :
    Scan.digitToken.SteadyFrom fun _ source => source.IsReady := by
  intro rest tail tail' lexer lexer' after after' found found' abreast plain ends ends' ready ready'
    success success'
  have here := find_numericMarkers_of_remains abreast.left ends ready
  have here' := find_numericMarkers_of_remains abreast.right ends' ready'
  unfold Scan.digitToken at success success'
  rw [run_bind, run_look] at success success'
  simp only [here] at success
  simp only [here'] at success'
  split at success
  · next marker shown =>
    rw [shown] at success' here here'
    have begins := List.find?_some shown
    have sees := List.find?_some here
    have sees' := List.find?_some here'
    have told : (Scan.capture marker.length >>= fun _ => Scan.terminate).SteadyFrom _ :=
      (SteadyFrom.captureMarker marker).bind fun _ => .terminate
    exact told abreast plain ends ends' ⟨begins, sees⟩ ⟨begins, sees'⟩ success success'
  · next none =>
    rw [none] at success'
    have told : Scan.numberToken.Steady := .numberToken
    exact told abreast plain ends ends' trivial trivial success success'

theorem SteadyFrom.moveToken : Scan.moveToken.SteadyFrom holds := by
  refine (SteadyFrom.captureUntil isDelimiter_of_isSpace).bind fun _ =>
    (SteadyFrom.look fun _ => rfl).bind fun span => ?_
  split
  · exact .pure _
  · exact .moveKind

/-- No atom without braces begins with a byte that is not plain. -/
theorem SteadyFrom.absurd {scan : Scan Value} (odd : isPlain byte = false) :
    scan.SteadyFrom fun rest source => rest.head? = some byte ∧ source.IsReady := by
  intro rest tail tail' lexer lexer' after after' found found' _ plain _ _ shown
  obtain ⟨others, rfl⟩ := List.head?_eq_some_iff.mp shown.1
  rw [List.all_cons, odd] at plain
  cases plain

theorem SteadyFrom.movetextTokenAt (byte : UInt8) :
    (Scan.movetextTokenAt byte).SteadyFrom fun rest source =>
      rest.head? = some byte ∧ source.IsReady := by
  unfold Scan.movetextTokenAt
  split
  · exact .delimiter _
  · split
    · next line => exact .absurd (by rw [line]; decide)
    · split
      · exact (SteadyFrom.take true).bind fun _ =>
          (SteadyFrom.captureUntil isDelimiter_of_isSpace).bind fun _ => .pure _
      · split
        · exact (SteadyFrom.captureUntil (forall_isSpace (by decide))).bind fun _ => .pure _
        · split
          · exact (SteadyFrom.take true).bind fun _ => .terminate
          · split
            · exact (SteadyFrom.captureUntil (forall_isSpace (by decide))).bind fun _ =>
                (SteadyFrom.look fun _ => rfl).bind fun _ => .pure _
            · split
              · exact SteadyFrom.digitToken.weaken fun _ _ shown => shown.2
              · split
                · next stray => exact .absurd (by rcases stray with rfl | rfl | rfl <;> decide)
                · exact .moveToken

/-- No other byte than an opening brace begins a comment in braces. -/
theorem leads_movetextTokenAt_aside (aside : byte ≠ openBrace) :
    (Scan.movetextTokenAt byte).Leads (fun _ => True) fun told _ => told ≠ .commentBegin := by
  have other {Value : Type} {scan : Scan Value} {told : TokenKind}
      (differs : told ≠ .commentBegin) :
      (scan >>= fun _ => Pure.pure told).Leads (fun _ => True) fun told _ => told ≠ .commentBegin :=
    (Leads.any scan).bind fun _ => .pure fun _ _ => differs
  have moveKind : Scan.moveKind.Leads (fun _ => True) fun told _ => told ≠ .commentBegin :=
    .look fun lexer _ => by cases lexer.kind <;> decide
  have number : Scan.numberToken.Leads (fun _ => True) fun told _ => told ≠ .commentBegin := by
    refine (Leads.any _).bind fun _ => (Leads.any _).bind fun next => ?_
    unfold Scan.behindDigits
    split
    · split
      · exact (Leads.any _).bind fun _ => moveKind
      · exact .pure fun _ _ => by decide
    · exact .pure fun _ _ => by decide
  have digits : Scan.digitToken.Leads (fun _ => True) fun told _ => told ≠ .commentBegin := by
    refine .bind_look fun buffer => ?_
    split
    · exact (Leads.any _).bind fun _ => other (by decide)
    · exact number
  have move : Scan.moveToken.Leads (fun _ => True) fun told _ => told ≠ .commentBegin := by
    refine (Leads.any _).bind fun _ => .bind_look fun span => ?_
    split
    · exact .pure fun _ _ => by decide
    · exact moveKind
  unfold Scan.movetextTokenAt
  split
  · next kind found =>
    refine other fun same => aside ?_
    rw [same] at found
    unfold delimiterKind? at found
    split at found
    · assumption
    · repeat' split at found
      all_goals cases found
  · repeat' split
    · exact (Leads.any _).bind fun _ => other (by decide)
    · exact (Leads.any _).bind fun _ => other (by decide)
    · exact other (by decide)
    · exact (Leads.any _).bind fun _ => other (by decide)
    · exact (Leads.any _).bind fun _ => .bind_look fun _ => .pure fun _ _ => by split <;> decide
    · exact digits
    · exact other (by decide)
    · exact move

end Scan

end Scoresheet
