/-
This file says what the loops of the lexer pass, in terms of what is still to come and not of what
happens to be in sight. A run ends before the first byte that stops it, quoted text before the first
closing byte that no backslash takes along, and white space takes in the lines that begin with a
percent sign. Over an honest source a loop that succeeds passes exactly that part of the content,
however often it had to fill the buffer on the way.
-/

import Scoresheet.Lexer.Progress
import Scoresheet.Proofs.Honest

namespace Scoresheet

/-- The part of a text before the first closing byte that is not behind a backslash. -/
def Bytes.quoted (closing : UInt8) : Bytes → Bytes
  | [] => []
  | [byte] => if byte = closing then [] else [byte]
  | byte :: next :: rest =>
    if byte = closing then []
    else if byte = Ascii.backslash then byte :: next :: quoted closing rest
    else byte :: quoted closing (next :: rest)

/-- The white space and the escaped lines at the beginning of a text that stands at the given
place. The first argument tells whether the text begins inside an escaped line. -/
def Place.blanks : Bool → Place → Bytes → Bytes
  | _, _, [] => []
  | true, place, byte :: rest =>
    byte :: blanks (byte != Ascii.lineFeed) (place.next byte) rest
  | false, place, byte :: rest =>
    if Ascii.isSpace byte then byte :: blanks false (place.next byte) rest
    else if byte = Ascii.percent ∧ place.atLineStart then
      byte :: blanks true (place.next byte) rest
    else []

namespace Lexer

/-- From the first state the second is reached by passing exactly the given part of the content,
and keeping it for the current token if asked to. -/
structure Takes (keep : Bool) (run : Bytes) (before after : Lexer) : Prop where
  honest : after.source.IsHonest
  content : before.source.content = run ++ after.source.content
  state : { after with source := before.source } =
    { before with
      place := before.place.pass run
      captured := if keep then run.reverse ++ before.captured else before.captured }

variable {keep : Bool} {lexer before middle after : Lexer} {run first second : Bytes}

theorem Takes.refl (honest : lexer.source.IsHonest) : Takes keep [] lexer lexer :=
  ⟨honest, rfl, by cases keep <;> rfl⟩

theorem Takes.trans (left : Takes keep first before middle)
    (right : Takes keep second middle after) :
    Takes keep (first ++ second) before after := by
  refine ⟨right.honest, by rw [left.content, right.content, List.append_assoc], ?_⟩
  obtain ⟨source, kind, scope, unsettled, opening, captured, start, place⟩ := middle
  have early := left.state
  have late := right.state
  simp only [mk.injEq] at early late ⊢
  obtain ⟨_, rfl, rfl, rfl, rfl, rfl, rfl, rfl⟩ := early
  obtain ⟨_, kinds, scopes, unsettleds, openings, captureds, starts, places⟩ := late
  refine ⟨trivial, kinds, scopes, unsettleds, openings, ?_, starts, ?_⟩
  · rw [captureds]
    cases keep
    · rfl
    · simp only [if_true, List.reverse_append, List.append_assoc]
  · rw [places, Place.pass_append]

theorem Takes.place (takes : Takes keep run before after) :
    after.place = before.place.pass run := congrArg Lexer.place takes.state

theorem Takes.kind_eq (takes : Takes keep run before after) : after.kind = before.kind := by
  have kinds := congrArg Lexer.kind takes.state
  exact kinds

theorem Takes.scope_eq (takes : Takes keep run before after) : after.scope = before.scope := by
  have scopes := congrArg Lexer.scope takes.state
  exact scopes

theorem Takes.fill (honest : lexer.source.IsHonest) :
    Takes keep [] lexer (Scan.fill.run lexer).2 := by
  refine ⟨honest.fill, (Source.content_fill lexer.source).symm, ?_⟩
  cases keep <;> rfl

/-- What is passed behind a fill is passed from before it. -/
theorem Takes.of_fill (honest : lexer.source.IsHonest)
    (later : Takes keep run (Scan.fill.run lexer).2 after) : Takes keep run lexer after :=
  (Takes.fill honest).trans later

theorem Takes.take (honest : lexer.source.IsHonest) (keep : Bool) (count : Nat) :
    Takes keep (lexer.source.buffer.take count) lexer (lexer.take keep count) := by
  cases keep
  · exact ⟨honest.advance count, Source.content_advance count lexer.source, rfl⟩
  · exact ⟨honest.advance count, Source.content_advance count lexer.source, rfl⟩

/-- Filling the buffer of an honest source, if it succeeds. -/
theorem isReady_fill (honest : lexer.source.IsHonest)
    (success : (Scan.fill.run lexer).1 = .ok ()) : (Scan.fill.run lexer).2.source.IsReady :=
  honest.isReady_fill success

/-- The byte that is peeked at is the next one of the content, and is in sight. -/
theorem peek_takes {next : Option UInt8} (honest : lexer.source.IsHonest)
    (success : Scan.peek.run lexer = (.ok next, after)) :
    Takes false [] lexer after ∧ after.source.IsReady ∧ next = lexer.source.content.head? := by
  obtain ⟨_, filled, filling, seen⟩ := Scan.run_bind_ok success
  cases seen
  have ready := isReady_fill honest (congrArg Prod.fst filling)
  have taking : Takes false [] lexer (Scan.fill.run lexer).2 := .fill honest
  rw [filling] at ready taking
  have content : lexer.source.content = after.source.content := taking.content
  refine ⟨taking, ready, ?_⟩
  rw [content]
  exact ready.showsNext.head_content.symm

/-! ### Runs -/

/-- Taking as many bytes as a run in sight has passes the run. -/
theorem Takes.takeWhile (honest : lexer.source.IsHonest) (keep : Bool) (onward : UInt8 → Bool) :
    Takes keep (lexer.source.buffer.takeWhile onward) lexer
      (lexer.take keep (lexer.source.buffer.takeWhile onward).length) := by
  have takes := Takes.take honest keep (lexer.source.buffer.takeWhile onward).length
  rwa [Bytes.take_length_takeWhile] at takes

/-- Behind the first part of a run the rest of the run is still to come. -/
theorem takeWhile_content {onward : UInt8 → Bool}
    (takes : Takes keep (before.source.buffer.takeWhile onward) before after) :
    before.source.content.takeWhile onward =
      before.source.buffer.takeWhile onward ++ after.source.content.takeWhile onward := by
  rw [takes.content]
  exact List.takeWhile_append_of_pos (List.all_eq_true.mp List.all_takeWhile)

/-- A run that ends in sight ends there. -/
theorem takeWhile_content_eq_nil {onward : UInt8 → Bool}
    (stopped : (lexer.take keep (lexer.source.buffer.takeWhile onward).length).source.buffer ≠ []) :
    (lexer.take keep (lexer.source.buffer.takeWhile onward).length).source.content.takeWhile onward
      = [] := by
  have shown := List.head?_dropWhile_not onward lexer.source.buffer
  rw [← Bytes.drop_length_takeWhile, ← buffer_take keep] at shown
  obtain ⟨byte, rest, equal⟩ := List.exists_cons_of_ne_nil stopped
  rw [equal] at shown
  rw [Source.content, equal, List.cons_append]
  exact List.takeWhile_cons_of_neg (Bool.eq_false_iff.mp shown)

/-- A run takes in all bytes before the first one that stops it. -/
theorem runUntil_takes {stop : UInt8 → Bool} (honest : lexer.source.IsHonest)
    (success : runUntil keep stop lexer = (.ok (), after)) :
    Takes keep (lexer.source.content.takeWhile (!stop ·)) lexer after := by
  fun_induction runUntil keep stop lexer with
  | case1 => cases success
  | case2 lexer answer filled filledOk empty =>
    have ended : filled.source.content = [] := (isReady_fill honest filledOk).showsNext empty
    rw [← Source.content_fill, ← (Prod.mk.inj success).2,
      show lexer.source.fill.2.content = [] from ended]
    exact .fill honest
  | case3 lexer answer filled _ next _ _ inductionHypothesis =>
    have taking : Takes keep _ filled next := .takeWhile honest.fill keep (!stop ·)
    rw [← Source.content_fill]
    refine .of_fill honest ?_
    show Takes keep (filled.source.content.takeWhile (!stop ·)) filled after
    rw [takeWhile_content taking]
    exact taking.trans (inductionHypothesis taking.honest success)
  | case4 lexer answer filled _ next _ stopped =>
    have taking : Takes keep _ filled next := .takeWhile honest.fill keep (!stop ·)
    rw [← (Prod.mk.inj success).2, ← Source.content_fill]
    refine .of_fill honest ?_
    show Takes keep (filled.source.content.takeWhile (!stop ·)) filled next
    rw [takeWhile_content taking, takeWhile_content_eq_nil stopped, List.append_nil]
    exact taking

/-- A run that succeeds leaves the byte that stopped it in sight. -/
theorem runUntil_showsNext {stop : UInt8 → Bool} (honest : lexer.source.IsHonest)
    (success : runUntil keep stop lexer = (.ok (), after)) : after.source.ShowsNext := by
  fun_induction runUntil keep stop lexer with
  | case1 => cases success
  | case2 lexer answer filled filledOk empty =>
    rw [← (Prod.mk.inj success).2]
    exact (isReady_fill honest filledOk).showsNext
  | case3 lexer answer filled _ next _ _ inductionHypothesis =>
    exact inductionHypothesis (Takes.take honest.fill keep _).honest success
  | case4 lexer answer filled _ next _ stopped =>
    rw [← (Prod.mk.inj success).2]
    exact .of_ne_nil stopped

/-! ### White space -/

end Lexer

namespace Place

variable {place : Place} {run rest : Bytes}

theorem blanks_space {byte : UInt8} (blank : Ascii.isSpace byte = true) :
    blanks false place (byte :: rest) = byte :: blanks false (place.next byte) rest :=
  if_pos blank

theorem blanks_escape (start : place.atLineStart = true) :
    blanks false place (Ascii.percent :: rest) = blanks true place (Ascii.percent :: rest) := by
  conv => lhs; rw [blanks, if_neg (by decide), if_pos ⟨rfl, start⟩]
  rfl

theorem blanks_significant {byte : UInt8} (significant : ¬ Ascii.isSpace byte = true)
    (plain : ¬ (byte = Ascii.percent ∧ place.atLineStart = true)) :
    blanks false place (byte :: rest) = [] := by
  rw [blanks, if_neg significant, if_neg plain]

theorem blanks_append_spaces (spaces : ∀ byte ∈ run, Ascii.isSpace byte = true) :
    blanks false place (run ++ rest) = run ++ blanks false (place.pass run) rest := by
  induction run generalizing place with
  | nil => rfl
  | cons byte run inductionHypothesis =>
    rw [List.cons_append, blanks_space (spaces byte List.mem_cons_self),
      inductionHypothesis fun other member => spaces other (List.mem_cons_of_mem _ member)]
    rfl

theorem blanks_append_line (line : ∀ byte ∈ run, byte ≠ Ascii.lineFeed) :
    blanks true place (run ++ rest) = run ++ blanks true (place.pass run) rest := by
  induction run generalizing place with
  | nil => rfl
  | cons byte run inductionHypothesis =>
    rw [List.cons_append, blanks, bne_iff_ne.mpr (line byte List.mem_cons_self),
      inductionHypothesis fun other member => line other (List.mem_cons_of_mem _ member)]
    rfl

end Place

namespace Lexer

/-- Passing a line leads to where the blanks go on behind it. -/
theorem passLine_takes (honest : lexer.source.IsHonest)
    (success : Scan.passLine.run lexer = (.ok (), after)) :
    ∃ line, Takes false line lexer after ∧
      Place.blanks true lexer.place lexer.source.content =
        line ++ Place.blanks false after.place after.source.content := by
  obtain ⟨_, middle, found, passed⟩ := Scan.run_bind_ok success
  have running : runUntil false (· == Ascii.lineFeed) lexer = (.ok (), middle) := found
  have run := runUntil_takes honest running
  have shows := runUntil_showsNext honest running
  have last : Takes false (middle.source.content.take 1) middle after := by
    rw [← (Prod.mk.inj passed).2, shows.take_content]
    exact .take run.honest false 1
  have inLine : ∀ byte ∈ lexer.source.content.takeWhile (!· == Ascii.lineFeed),
      byte ≠ Ascii.lineFeed := fun byte member => by
    simpa using List.all_eq_true.mp List.all_takeWhile byte member
  have stopped := List.head?_dropWhile_not (!· == Ascii.lineFeed) lexer.source.content
  have rest : lexer.source.content.dropWhile (!· == Ascii.lineFeed) = middle.source.content :=
    List.append_cancel_left (List.takeWhile_append_dropWhile.trans run.content)
  rw [rest] at stopped
  refine ⟨_, run.trans last, ?_⟩
  conv => lhs; rw [run.content]
  rw [Place.blanks_append_line inLine, ← run.place, List.append_assoc, last.place]
  refine congrArg (lexer.source.content.takeWhile (!· == Ascii.lineFeed) ++ ·) ?_
  have late := last.content
  cases next : middle.source.content with
  | nil =>
    rw [next] at late
    rw [(List.nil_eq_append_iff.mp late).2]
    rfl
  | cons byte tail =>
    rw [next] at late stopped
    have equal : byte = Ascii.lineFeed := by simpa using stopped
    have rest : byte :: tail = byte :: after.source.content := late
    rw [← (List.cons.inj rest).2, equal]
    rfl

/-- Passing white space, if it succeeds, passes the blanks of the content and gives the byte behind
them, with a whole lookahead in sight. -/
theorem passSpace_takes {next : Option UInt8} (honest : lexer.source.IsHonest)
    (success : passSpace lexer = (.ok next, after)) :
    Takes false (Place.blanks false lexer.place lexer.source.content) lexer after ∧
      after.source.IsReady ∧ after.source.content.head? = next := by
  rw [← Source.content_fill]
  fun_induction passSpace lexer with
  | case1 => cases success
  | case2 lexer answer filled filledOk empty =>
    have ready := isReady_fill honest filledOk
    have ended : filled.source.content = [] := ready.showsNext empty
    obtain ⟨none, same⟩ := Prod.mk.inj success
    rw [← same, show lexer.source.fill.2.content = [] from ended]
    exact ⟨.fill honest, ready, by rw [ended]; exact Except.ok.inj none⟩
  | case3 lexer answer filled _ head rest inSight blank inductionHypothesis =>
    have taking : Takes false _ filled _ := .takeWhile honest.fill false Ascii.isSpace
    have spaces : ∀ byte ∈ filled.source.buffer.takeWhile Ascii.isSpace,
        Ascii.isSpace byte = true := List.all_eq_true.mp List.all_takeWhile
    obtain ⟨later, ready, last⟩ := inductionHypothesis taking.honest success
    rw [Source.content_fill] at later
    refine ⟨.of_fill honest ?_, ready, last⟩
    show Takes false (Place.blanks false filled.place filled.source.content) filled after
    rw [taking.content, Place.blanks_append_spaces spaces, ← taking.place]
    exact taking.trans later
  | case4 => cases success
  | case5 lexer answer filled _ head rest inSight blank escaped middle line inductionHypothesis =>
    obtain ⟨run, taking, same⟩ := passLine_takes honest.fill line
    obtain ⟨later, ready, last⟩ := inductionHypothesis taking.honest success
    rw [Source.content_fill] at later
    refine ⟨.of_fill honest ?_, ready, last⟩
    have begins : filled.source.content = Ascii.percent :: (rest ++ filled.source.unread) := by
      rw [Source.content, inSight, escaped.1, List.cons_append]
    show Takes false (Place.blanks false filled.place filled.source.content) filled after
    rw [begins, Place.blanks_escape escaped.2, ← begins, same]
    exact taking.trans later
  | case6 lexer answer filled filledOk head rest inSight blank plain =>
    have ready := isReady_fill honest filledOk
    have begins : filled.source.content = head :: (rest ++ filled.source.unread) := by
      rw [Source.content, inSight, List.cons_append]
    obtain ⟨some, same⟩ := Prod.mk.inj success
    have none : Place.blanks false lexer.place filled.source.content = [] := by
      rw [begins]
      exact Place.blanks_significant blank plain
    rw [← same, show Place.blanks false lexer.place lexer.source.fill.2.content = [] from none]
    exact ⟨.fill honest, ready, by rw [begins]; exact Except.ok.inj some⟩

/-! ### Quoted text -/

end Lexer

namespace Bytes

variable {closing byte : UInt8} {run rest : Bytes}

theorem quoted_closing : quoted closing (closing :: rest) = [] := by
  cases rest <;> exact if_pos rfl

theorem quoted_cons (onward : byte ≠ closing) (plain : byte ≠ Ascii.backslash) :
    quoted closing (byte :: rest) = byte :: quoted closing rest := by
  cases rest with
  | nil => exact if_neg onward
  | cons next rest => rw [quoted, if_neg onward, if_neg plain]

/-- A backslash takes the byte behind it along. -/
theorem quoted_backslash (onward : Ascii.backslash ≠ closing) :
    quoted closing (Ascii.backslash :: rest) =
      Ascii.backslash :: (rest.take 1 ++ quoted closing (rest.drop 1)) := by
  cases rest with
  | nil => exact if_neg onward
  | cons next rest =>
    rw [quoted, if_neg onward, if_pos rfl]
    rfl

theorem quoted_append (inside : ∀ byte ∈ run, byte ≠ closing ∧ byte ≠ Ascii.backslash) :
    quoted closing (run ++ rest) = run ++ quoted closing rest := by
  induction run with
  | nil => rfl
  | cons byte run inductionHypothesis =>
    obtain ⟨onward, plain⟩ := inside byte List.mem_cons_self
    rw [List.cons_append, quoted_cons onward plain,
      inductionHypothesis fun other member => inside other (List.mem_cons_of_mem _ member)]
    rfl

end Bytes

namespace Lexer

/-- The run in front of a backslash or the closing byte is kept, and none of its bytes is one. -/
theorem takes_quotedRun {closing : UInt8} (honest : lexer.source.IsHonest) :
    let run := lexer.source.buffer.takeWhile
      fun byte => !(byte == Ascii.backslash || byte == closing)
    Takes true run lexer (lexer.capture run.length) ∧
      lexer.source.content.quoted closing =
        run ++ (lexer.capture run.length).source.content.quoted closing := by
  intro run
  have taking : Takes true run lexer (lexer.capture run.length) := .takeWhile honest true _
  have inside : ∀ byte ∈ run, byte ≠ closing ∧ byte ≠ Ascii.backslash := fun byte member => by
    simpa [and_comm] using List.all_eq_true.mp List.all_takeWhile byte member
  exact ⟨taking, by rw [taking.content, Bytes.quoted_append inside]⟩

/-- Such a run stops at the closing byte or at a backslash. -/
theorem backslash_of_quotedRun {lexer : Lexer} {closing byte : UInt8} {others : Bytes}
    (shown : (lexer.capture (lexer.source.buffer.takeWhile
      fun byte => !(byte == Ascii.backslash || byte == closing)).length).source.buffer =
        byte :: others) (onward : byte ≠ closing) : byte = Ascii.backslash := by
  have stopped := List.head?_dropWhile_not
    (fun byte => !(byte == Ascii.backslash || byte == closing)) lexer.source.buffer
  rw [← Bytes.drop_length_takeWhile, ← buffer_take true,
    show (lexer.take true _).source.buffer = byte :: others from shown] at stopped
  simpa [onward] using stopped

/-- A backslash is kept together with the byte behind it. -/
theorem takes_escaped {closing : UInt8} {others : Bytes} (honest : lexer.source.IsHonest)
    (shown : lexer.source.buffer = Ascii.backslash :: others)
    (onward : Ascii.backslash ≠ closing)
    (filled : (Scan.fill.run (lexer.capture 1)).1 = .ok ()) :
    ∃ run, Takes true run lexer ((Scan.fill.run (lexer.capture 1)).2.capture 1) ∧
      lexer.source.content.quoted closing =
        run ++ ((Scan.fill.run (lexer.capture 1)).2.capture 1).source.content.quoted closing := by
  have first : Takes true [Ascii.backslash] lexer (lexer.capture 1) := by
    have takes := Takes.take honest true 1
    rwa [shown] at takes
  generalize escape : Scan.fill.run (lexer.capture 1) = filling at *
  have second : Takes true [] (lexer.capture 1) filling.2 := escape ▸ .fill first.honest
  have ready : filling.2.source.IsReady := escape ▸ isReady_fill first.honest (escape ▸ filled)
  have third : Takes true (filling.2.source.content.take 1) filling.2 (filling.2.capture 1) := by
    rw [ready.showsNext.take_content]
    exact .take second.honest true 1
  have rest : filling.2.source.content.drop 1 = (filling.2.capture 1).source.content :=
    List.append_cancel_left ((List.take_append_drop 1 _).trans third.content)
  refine ⟨_, first.trans (second.trans third), ?_⟩
  rw [first.content, second.content, List.nil_append, List.singleton_append,
    Bytes.quoted_backslash onward, rest]
  rfl

/-- Capturing quoted text, if it succeeds, keeps the quoted part of the content. -/
theorem captureQuoted_takes {closing : UInt8} (honest : lexer.source.IsHonest)
    (success : captureQuoted closing lexer = (.ok (), after)) :
    Takes true (lexer.source.content.quoted closing) lexer after := by
  rw [← Source.content_fill]
  fun_induction captureQuoted closing lexer with
  | case1 => cases success
  | case2 lexer answer filled filledOk empty =>
    have ended : filled.source.content = [] := (isReady_fill honest filledOk).showsNext empty
    rw [← (Prod.mk.inj success).2, show lexer.source.fill.2.content = [] from ended]
    exact .fill honest
  | case3 lexer answer filled _ run next _ drained inductionHypothesis =>
    obtain ⟨taking, quoted⟩ := @takes_quotedRun filled closing honest.fill
    have later := inductionHypothesis taking.honest success
    rw [Source.content_fill] at later
    refine .of_fill honest ?_
    show Takes true (filled.source.content.quoted closing) filled after
    rw [quoted]
    exact taking.trans later
  | case4 lexer answer filled _ run next _ others shown =>
    obtain ⟨taking, quoted⟩ := @takes_quotedRun filled closing honest.fill
    rw [← (Prod.mk.inj success).2]
    refine .of_fill honest ?_
    show Takes true (filled.source.content.quoted closing) filled next
    have ends : next.source.content = closing :: (others ++ next.source.unread) := by
      rw [Source.content, shown, List.cons_append]
    rw [quoted, show (filled.capture _).source.content = _ from ends, Bytes.quoted_closing,
      List.append_nil]
    exact taking
  | case5 => cases success
  | case6 lexer answer filled _ run next _ byte others shown onward escape escapeOk
      inductionHypothesis =>
    obtain ⟨taking, quoted⟩ := @takes_quotedRun filled closing honest.fill
    obtain rfl := backslash_of_quotedRun shown onward
    obtain ⟨kept, escaping, quotedBehind⟩ := takes_escaped taking.honest shown onward escapeOk
    have later := inductionHypothesis escaping.honest success
    rw [Source.content_fill] at later
    refine .of_fill honest ?_
    show Takes true (filled.source.content.quoted closing) filled after
    rw [quoted, show (filled.capture _).source.content.quoted closing = _ from quotedBehind]
    exact taking.trans (escaping.trans later)

end Lexer

end Scoresheet
