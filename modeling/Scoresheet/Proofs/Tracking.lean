/-
This file shows that a lexer reads its content and nothing else. One lexer tracks another if the
same bytes are still to come for it, and perhaps more behind them, from whatever honest source, and
everything else about it is the same but for being moved on by some bytes and lines. As long as
neither source fails, every scan gives both the same value and the one still tracks the other,
although their buffers may have been filled differently all along.

Where more bytes are behind those of the first lexer, that one has to stop before its last line
feed. Then nothing that a scan looks for reaches into the further bytes: no mark or marker has a
line feed in it, and a run that is not the whole text ends in the same place whatever follows the
text.
-/

import Scoresheet.Proofs.Content
import Scoresheet.Proofs.Shift
import Scoresheet.Proofs.Tokens

namespace Scoresheet

/-! ### Parts of a text that more text does not change -/

theorem Bytes.takeWhile_append_of_ne {onward : UInt8 → Bool} {text : Bytes} (rest : Bytes)
    (stopped : text.takeWhile onward ≠ text) :
    (text ++ rest).takeWhile onward = text.takeWhile onward := by
  rw [List.takeWhile_append, if_neg]
  intro whole
  exact stopped ((List.takeWhile_prefix onward).eq_of_length whole)

theorem Bytes.quoted_append_of_ne {closing : UInt8} {text : Bytes} (rest : Bytes)
    (stopped : text.quoted closing ≠ text) :
    (text ++ rest).quoted closing = text.quoted closing := by
  fun_induction Bytes.quoted closing text with
  | case1 => exact absurd rfl stopped
  | case2 => exact quoted_closing
  | case3 => exact absurd rfl stopped
  | case4 => exact quoted_closing
  | case5 next others onward inductionHypothesis =>
    have later := inductionHypothesis fun same => stopped (by rw [same])
    rw [List.cons_append, quoted_backslash onward, List.cons_append]
    exact congrArg (Ascii.backslash :: next :: ·) later
  | case6 byte next others onward plain inductionHypothesis =>
    have later := inductionHypothesis fun same => stopped (by rw [same])
    rw [List.cons_append, quoted_cons onward plain, later]

theorem Place.blanks_append_of_ne {inLine : Bool} {place : Place} {text : Bytes} (rest : Bytes)
    (stopped : blanks inLine place text ≠ text) :
    blanks inLine place (text ++ rest) = blanks inLine place text := by
  fun_induction blanks inLine place text with
  | case1 => exact absurd rfl stopped
  | case2 place byte others inductionHypothesis =>
    have later := inductionHypothesis fun same => stopped (by rw [same])
    rw [List.cons_append, blanks, later]
  | case3 place byte others space inductionHypothesis =>
    have later := inductionHypothesis fun same => stopped (by rw [same])
    rw [List.cons_append, blanks_space space, later]
  | case4 place byte others significant escape inductionHypothesis =>
    have later := inductionHypothesis fun same => stopped (by rw [same])
    rw [List.cons_append, blanks, if_neg significant, if_pos escape, later]
  | case5 place byte others significant plain => exact blanks_significant significant plain

theorem Place.blanks_shift {shift : Shift} (inLine : Bool) (place : Place) (text : Bytes) :
    blanks inLine (place.shift shift) text = blanks inLine place text := by
  induction text generalizing inLine place with
  | nil => cases inLine <;> rfl
  | cons byte rest inductionHypothesis =>
    cases inLine with
    | true =>
      unfold blanks
      rw [next_shift, inductionHypothesis]
    | false =>
      unfold blanks
      rw [next_shift, inductionHypothesis, inductionHypothesis, atLineStart_shift]

/-- A text without a line feed that comes next comes before the last line feed. -/
theorem Bytes.isPrefixOf_append {mark text : Bytes} (rest : Bytes)
    (inLine : Ascii.lineFeed ∉ mark) (ends : text.getLast? = some Ascii.lineFeed) :
    mark.isPrefixOf (text ++ rest) = mark.isPrefixOf text := by
  rw [Bool.eq_iff_iff, List.isPrefixOf_iff_prefix, List.isPrefixOf_iff_prefix]
  refine ⟨fun begins => ?_, fun begins => begins.trans (List.prefix_append text rest)⟩
  rcases List.prefix_or_prefix_of_prefix begins (List.prefix_append text rest) with whole | whole
  · exact whole
  · exact absurd (whole.subset (List.mem_of_getLast? ends)) inLine

/-! ### Tracking a lexer -/

namespace Lexer

/-- A lexer that is moved on, over the same source. -/
def shift (shift : Shift) (lexer : Lexer) : Lexer :=
  { lexer with place := lexer.place.shift shift, start := lexer.start.shift shift }

/-- The second lexer has the same still to come as the first one, and the given text behind that.
The states are the same but for the sources and for how far the second one is moved on. -/
structure Tracks (rest : Bytes) (shift : Shift) (first second : Lexer) : Prop where
  honestFirst : first.source.IsHonest
  honestSecond : second.source.IsHonest
  content : second.source.content = first.source.content ++ rest
  state : { second with source := first.source } = first.shift shift

/-- Nothing is behind what is still to come, or a line feed parts the two. -/
def Separate (rest : Bytes) (lexer : Lexer) : Prop :=
  rest = [] ∨ lexer.source.content.getLast? = some Ascii.lineFeed

variable {rest : Bytes} {shift : Shift} {first second firstAfter secondAfter : Lexer} {keep : Bool}
  {run : Bytes}

/-- What is parted from the rest is parted from it until it was passed. -/
theorem Separate.before (apart : firstAfter.Separate rest) (consumes : first.Consumes firstAfter) :
    first.Separate rest := by
  obtain ⟨eaten, content, _⟩ := consumes
  refine apart.imp_right fun ends => ?_
  rw [content, List.getLast?_append, ends]
  rfl

/-- The part of the content that was passed does not depend on the rest. -/
theorem Separate.part_eq {part : Bytes → Bytes}
    (fixed : ∀ text, part text ≠ text → part (text ++ rest) = part text)
    (apart : firstAfter.Separate rest)
    (passed : first.source.content = part first.source.content ++ firstAfter.source.content) :
    part (first.source.content ++ rest) = part first.source.content := by
  rcases apart with rfl | ends
  · rw [List.append_nil]
  · refine fixed _ fun whole => ?_
    rw [whole, List.self_eq_append_right] at passed
    rw [passed] at ends
    cases ends

theorem Separate.isPrefixOf_eq {mark : Bytes} (inLine : Ascii.lineFeed ∉ mark)
    (apart : first.Separate rest) :
    mark.isPrefixOf (first.source.content ++ rest) = mark.isPrefixOf first.source.content := by
  rcases apart with rfl | ends
  · rw [List.append_nil]
  · exact Bytes.isPrefixOf_append rest inLine ends

theorem Separate.head?_eq (apart : first.Separate rest) :
    (first.source.content ++ rest).head? = first.source.content.head? := by
  rcases apart with rfl | ends
  · rw [List.append_nil]
  · cases next : first.source.content with
    | nil =>
      rw [next] at ends
      cases ends
    | cons byte others => rfl

theorem Tracks.place (tracks : Tracks rest shift first second) :
    second.place = first.place.shift shift := congrArg Lexer.place tracks.state

theorem Tracks.eq (tracks : Tracks rest shift first second) :
    second = { first.shift shift with source := second.source } :=
  congrArg (fun lexer : Lexer => { lexer with source := second.source }) tracks.state

/-- What depends neither on the source nor on the place is the same for the lexer that tracks. -/
theorem Tracks.view {Value : Type} {view : Lexer → Value} (tracks : Tracks rest shift first second)
    (oblivious : ∀ (lexer : Lexer) (source : Source) (shift : Shift),
      view { lexer.shift shift with source } = view lexer) : view second = view first := by
  rw [tracks.eq, oblivious]

/-- A change that depends neither on the source nor on how far the lexer is moved on. -/
theorem Tracks.update {update : Lexer → Lexer} (tracks : Tracks rest shift first second)
    (oblivious : ∀ (lexer : Lexer) (source : Source) (shift : Shift),
      update { lexer.shift shift with source } = { (update lexer).shift shift with source }) :
    Tracks rest shift (update first) (update second) := by
  have source (lexer : Lexer) : (update lexer).source = lexer.source := by
    have unmoved := congrArg Lexer.source (oblivious lexer lexer.source ⟨0, 0⟩)
    exact unmoved
  refine ⟨by rw [source]; exact tracks.honestFirst, by rw [source]; exact tracks.honestSecond,
    by rw [source, source]; exact tracks.content, ?_⟩
  conv => lhs; rw [tracks.eq, oblivious]
  rfl

/-- Passing the same part of the content. -/
theorem Tracks.takes (tracks : Tracks rest shift first second)
    (left : Takes keep run first firstAfter) (right : Takes keep run second secondAfter) :
    Tracks rest shift firstAfter secondAfter := by
  refine ⟨left.honest, right.honest, ?_, ?_⟩
  · have content := tracks.content
    rw [left.content, right.content, List.append_assoc] at content
    exact List.append_cancel_left content
  · have early := left.state
    have late := right.state
    have start := tracks.state
    obtain ⟨source, kind, scope, unsettled, opening, captured, position, place⟩ := second
    obtain ⟨source', kind', scope', unsettled', opening', captured', position', place'⟩ := first
    obtain ⟨source, kind, scope, unsettled, opening, captured, position, place⟩ := secondAfter
    obtain ⟨source', kind', scope', unsettled', opening', captured', position', place'⟩ :=
      firstAfter
    simp only [Lexer.shift, mk.injEq] at start early late ⊢
    obtain ⟨_, rfl, rfl, rfl, rfl, rfl, rfl, rfl⟩ := early
    obtain ⟨_, rfl, rfl, rfl, rfl, rfl, rfl, rfl⟩ := late
    obtain ⟨_, rfl, rfl, rfl, rfl, rfl, rfl, rfl⟩ := start
    exact ⟨trivial, rfl, rfl, rfl, rfl, rfl, rfl, Place.pass_shift _ _⟩

/-- The start of a token is moved on with its place. -/
theorem markStart_shift (lexer : Lexer) (source : Source) (shift : Shift) :
    markStart { lexer.shift shift with source } =
      { lexer.markStart.shift shift with source } := by
  show { lexer.shift shift with source, start := (lexer.place.shift shift).position } = _
  rw [Place.position_shift]
  rfl

theorem settle_shift (next : Option UInt8) (lexer : Lexer) (source : Source) (shift : Shift) :
    settle next { lexer.shift shift with source } =
      { (lexer.settle next).shift shift with source } := by
  obtain ⟨_, _, scope, _, _, _, _, _⟩ := lexer
  cases next with
  | none => rfl
  | some byte =>
    dsimp only [settle, Lexer.shift]
    split
    · rfl
    · split <;> rfl

theorem Tracks.fill (tracks : Tracks rest shift first second) :
    Tracks rest shift (Scan.fill.run first).2 (Scan.fill.run second).2 :=
  have left : Takes false [] first _ := .fill tracks.honestFirst
  tracks.takes left (.fill tracks.honestSecond)

/-- Taking one byte that is in sight on both sides. -/
theorem Tracks.take_one (tracks : Tracks rest shift first second) (keep : Bool)
    (firstShows : first.source.ShowsNext) (secondShows : second.source.ShowsNext)
    (apart : first.Separate rest) : Tracks rest shift (first.take keep 1) (second.take keep 1) := by
  have left := Takes.take tracks.honestFirst keep 1
  have right := Takes.take tracks.honestSecond keep 1
  rw [← firstShows.take_content] at left
  rw [← secondShows.take_content, tracks.content, List.take_one, apart.head?_eq,
    ← List.take_one] at right
  exact tracks.takes left right

/-- Taking a short text that is in sight on both sides. -/
theorem Tracks.take_prefix (tracks : Tracks rest shift first second) (keep : Bool) {text : Bytes}
    (firstSees : text.isPrefixOf first.source.buffer = true)
    (secondSees : text.isPrefixOf second.source.buffer = true) :
    Tracks rest shift (first.take keep text.length) (second.take keep text.length) := by
  have left := Takes.take tracks.honestFirst keep text.length
  have right := Takes.take tracks.honestSecond keep text.length
  rw [← List.prefix_iff_eq_take.mp (List.isPrefixOf_iff_prefix.mp firstSees)] at left
  rw [← List.prefix_iff_eq_take.mp (List.isPrefixOf_iff_prefix.mp secondSees)] at right
  exact tracks.takes left right

end Lexer

/-! ### Every scan -/

namespace Scan

open Lexer Ascii

variable {Value Result : Type} {ready : Source → Prop}

/-- Over sources as described the scan gives a lexer and one that tracks it the same value, and the
one still tracks the other, unless one of the sources fails or the scan reaches what is behind the
content of the first one. -/
structure LocalFrom (ready : Source → Prop) (scan : Scan Value) : Prop where
  consuming : scan.Consuming
  tracks : ∀ ⦃rest : Bytes⦄ ⦃shift : Shift⦄ ⦃first second firstAfter secondAfter : Lexer⦄
    ⦃value other : Value⦄, Tracks rest shift first second → ready first.source →
      ready second.source → scan.run first = (.ok value, firstAfter) →
      scan.run second = (.ok other, secondAfter) → firstAfter.Separate rest →
      value = other ∧ Tracks rest shift firstAfter secondAfter

/-- The scan is local wherever it is made. -/
abbrev Local (scan : Scan Value) : Prop := scan.LocalFrom fun _ => True

theorem LocalFrom.anywhere {scan : Scan Value} (isLocal : scan.Local) : scan.LocalFrom ready where
  consuming := isLocal.consuming
  tracks _ _ _ _ _ _ _ _ tracks _ _ := isLocal.tracks tracks trivial trivial

/-- What the second scan reads was not reached by the first one. -/
theorem separate_of_run {scan : Scan Value} (consuming : scan.Consuming) {rest : Bytes}
    {lexer after : Lexer} {result : Except Failure Value} (run : scan.run lexer = (result, after))
    (apart : after.Separate rest) : lexer.Separate rest := by
  have consumes := consuming lexer
  rw [run] at consumes
  exact apart.before consumes

theorem LocalFrom.bind {first : Scan Value} {second : Value → Scan Result}
    (left : first.LocalFrom ready) (right : ∀ value, (second value).Local) :
    (first >>= second).LocalFrom ready where
  consuming := left.consuming.bind fun value => (right value).consuming
  tracks rest shift lexer lexer' after after' value value' tracks holds holds' success success'
      apart := by
    obtain ⟨found, middle, early, late⟩ := run_bind_ok success
    obtain ⟨found', middle', early', late'⟩ := run_bind_ok success'
    obtain ⟨rfl, between⟩ := left.tracks tracks holds holds' early early'
      (separate_of_run (right found).consuming late apart)
    exact (right found).tracks between trivial trivial late late' apart

theorem LocalFrom.pure (value : Value) : (Pure.pure value : Scan Value).LocalFrom ready where
  consuming := .pure value
  tracks rest shift lexer lexer' after after' found found' tracks _ _ success success' _ := by
    cases success
    cases success'
    exact ⟨rfl, tracks⟩

theorem LocalFrom.look {view : Lexer → Value}
    (oblivious : ∀ (lexer : Lexer) (source : Source) (shift : Shift),
      view { lexer.shift shift with source } = view lexer) :
    (look view).LocalFrom ready where
  consuming := .look view
  tracks rest shift lexer lexer' after after' found found' tracks _ _ success success' _ := by
    cases success
    cases success'
    exact ⟨(tracks.view oblivious).symm, tracks⟩

theorem LocalFrom.update {update : Lexer → Lexer}
    (consumes : ∀ lexer : Lexer, lexer.Consumes (update lexer))
    (oblivious : ∀ (lexer : Lexer) (source : Source) (shift : Shift),
      update { lexer.shift shift with source } = { (update lexer).shift shift with source }) :
    (change update).Local where
  consuming := .change consumes
  tracks rest shift lexer lexer' after after' found found' tracks _ _ success success' _ := by
    cases success
    cases success'
    exact ⟨rfl, tracks.update oblivious⟩

/-- A look that depends neither on the source nor on the place changes nothing for what follows. -/
theorem LocalFrom.bind_look {view : Lexer → Value} {second : Value → Scan Result}
    (oblivious : ∀ (lexer : Lexer) (source : Source) (shift : Shift),
      view { lexer.shift shift with source } = view lexer)
    (right : ∀ value, (second value).LocalFrom ready) :
    (Scan.look view >>= second).LocalFrom ready where
  consuming := (Consuming.look view).bind fun value => (right value).consuming
  tracks rest shift lexer lexer' after after' value value' tracks holds holds' success success'
      apart := by
    rw [run_bind, run_look] at success success'
    rw [tracks.view oblivious] at success'
    exact (right _).tracks tracks holds holds' success success' apart

/-- Behind a fill a whole lookahead is in sight. -/
theorem LocalFrom.bind_fill {second : Unit → Scan Result}
    (right : (second ()).LocalFrom Source.IsReady) : (fill >>= second).Local where
  consuming := Consuming.fill.bind fun _ => right.consuming
  tracks rest shift lexer lexer' after after' value value' tracks _ _ success success' apart := by
    obtain ⟨_, middle, filled, late⟩ := run_bind_ok success
    obtain ⟨_, middle', filled', late'⟩ := run_bind_ok success'
    have later := tracks.fill
    have ready := isReady_fill tracks.honestFirst (congrArg Prod.fst filled)
    have ready' := isReady_fill tracks.honestSecond (congrArg Prod.fst filled')
    rw [filled, filled'] at later
    rw [filled] at ready
    rw [filled'] at ready'
    exact right.tracks later ready ready' late late' apart

theorem bind_assoc {Middle : Type} (first : Scan Value) (second : Value → Scan Middle)
    (third : Middle → Scan Result) :
    first >>= second >>= third = first >>= fun value => second value >>= third := by
  refine congrArg Scan.mk (funext fun lexer => ?_)
  simp only [run_bind]
  cases first.run lexer with
  | mk result after => cases result <;> rfl

/-- The next byte is the same, and a whole lookahead is in sight behind it. -/
theorem LocalFrom.bind_peek {second : Option UInt8 → Scan Result}
    (right : ∀ next, (second next).LocalFrom Source.IsReady) : (peek >>= second).Local := by
  unfold Scan.peek
  rw [bind_assoc]
  refine .bind_fill ⟨(Consuming.look _).bind fun next => (right next).consuming, ?_⟩
  intro rest shift lexer lexer' after after' value value' tracks ready ready' success success' apart
  rw [run_bind, run_look] at success success'
  have apartHere := separate_of_run (right _).consuming success apart
  rw [← ready'.showsNext.head_content, tracks.content, apartHere.head?_eq,
    ready.showsNext.head_content] at success'
  exact (right _).tracks tracks ready ready' success success' apart

/-- The byte behind white space is the same, and a whole lookahead is in sight behind it. -/
theorem LocalFrom.bind_passSpace {second : Option UInt8 → Scan Result}
    (right : ∀ next, (second next).LocalFrom Source.IsReady) : (passSpace >>= second).Local where
  consuming := Consuming.passSpace.bind fun next => (right next).consuming
  tracks rest shift lexer lexer' after after' value value' tracks _ _ success success' apart := by
    obtain ⟨next, middle, passed, late⟩ := run_bind_ok success
    obtain ⟨next', middle', passed', late'⟩ := run_bind_ok success'
    have apartBetween := separate_of_run (right next).consuming late apart
    obtain ⟨taking, ready, shown⟩ := passSpace_takes tracks.honestFirst passed
    obtain ⟨taking', ready', shown'⟩ := passSpace_takes tracks.honestSecond passed'
    rw [tracks.content, tracks.place, Place.blanks_shift,
      apartBetween.part_eq (fun _ => Place.blanks_append_of_ne rest) taking.content] at taking'
    have later := tracks.takes taking taking'
    rw [later.content, apartBetween.head?_eq, shown] at shown'
    exact (right next).tracks later ready ready' late (shown' ▸ late') apart

theorem LocalFrom.markStart : markStart.Local :=
  .update (fun _ => .of_eq rfl rfl rfl) markStart_shift

/-- Marking the start leaves in sight what was in sight. -/
theorem LocalFrom.bind_markStart {second : Unit → Scan Result}
    (right : (second ()).LocalFrom ready) : (Scan.markStart >>= second).LocalFrom ready where
  consuming := Consuming.markStart.bind fun _ => right.consuming
  tracks _ _ _ _ _ _ _ _ tracks holds holds' success success' apart :=
    right.tracks (tracks.update markStart_shift) holds holds' success success' apart

theorem LocalFrom.pass : (Scan.pass 1).LocalFrom Source.IsReady where
  consuming := .pass 1
  tracks rest shift lexer lexer' after after' value value' tracks ready ready' success success'
      apart := by
    have apartBefore := separate_of_run (Consuming.pass 1) success apart
    cases success
    cases success'
    exact ⟨rfl, tracks.take_one false ready.showsNext ready'.showsNext apartBefore⟩

theorem LocalFrom.capture : (Scan.capture 1).LocalFrom Source.IsReady where
  consuming := .capture 1
  tracks rest shift lexer lexer' after after' value value' tracks ready ready' success success'
      apart := by
    have apartBefore := separate_of_run (Consuming.capture 1) success apart
    cases success
    cases success'
    exact ⟨rfl, tracks.take_one true ready.showsNext ready'.showsNext apartBefore⟩

theorem LocalFrom.captureUntil (stop : UInt8 → Bool) : (captureUntil stop).Local where
  consuming := .captureUntil stop
  tracks rest shift lexer lexer' after after' value value' tracks _ _ success success' apart := by
    have left := runUntil_takes tracks.honestFirst success
    have right := runUntil_takes tracks.honestSecond success'
    rw [tracks.content,
      apart.part_eq (fun _ => Bytes.takeWhile_append_of_ne rest) left.content] at right
    exact ⟨rfl, tracks.takes left right⟩

theorem LocalFrom.captureQuoted (closing : UInt8) : (captureQuoted closing).Local where
  consuming := .captureQuoted closing
  tracks rest shift lexer lexer' after after' value value' tracks _ _ success success' apart := by
    have left := captureQuoted_takes tracks.honestFirst success
    have right := captureQuoted_takes tracks.honestSecond success'
    rw [tracks.content,
      apart.part_eq (fun _ => Bytes.quoted_append_of_ne rest) left.content] at right
    exact ⟨rfl, tracks.takes left right⟩

theorem LocalFrom.captureLine : captureLine.Local := by
  refine .bind (.captureUntil _) fun _ =>
    .update (fun lexer => (Reads.dropReturn lexer).consumes) fun lexer source shift => ?_
  unfold Lexer.dropReturn
  dsimp only [Lexer.shift]
  split <;> rfl

theorem LocalFrom.finish : finish.Local := by
  refine .bind (.update (fun _ => .of_eq rfl rfl rfl) fun lexer source shift => ?_) fun _ => .pure _
  exact congrArg (fun marked : Lexer => { marked with scope := .outside, unsettled := false })
    (markStart_shift lexer source shift)

theorem LocalFrom.findScope : findScope.Local :=
  .bind (.update (fun _ => .of_eq rfl rfl rfl) fun _ _ _ => rfl) fun _ =>
    .bind_passSpace fun next =>
      LocalFrom.anywhere (.update (Consumes.settle next) (settle_shift next))

theorem LocalFrom.delimiter (kind : TokenKind) : (delimiter kind).LocalFrom Source.IsReady :=
  .bind .pass fun _ => .pure _

theorem LocalFrom.terminate : terminate.Local :=
  .bind (.update (fun _ => .of_eq rfl rfl rfl) fun _ _ _ => rfl) fun _ => .pure _

theorem LocalFrom.quotedToken (closing : UInt8) (text close : TokenKind) :
    (quotedToken closing text close).Local := by
  refine .bind .markStart fun _ => .bind_peek fun next => ?_
  split
  · exact LocalFrom.finish.anywhere
  · split
    · exact .delimiter _
    · exact (LocalFrom.captureQuoted _).anywhere.bind fun _ => .pure _

theorem LocalFrom.headerTokenAt (byte : UInt8) :
    (headerTokenAt byte).LocalFrom Source.IsReady := by
  refine .bind_look (fun _ _ _ => rfl) fun previous => ?_
  split
  · exact .delimiter _
  · split
    · exact .bind .pass fun _ =>
        .bind (.update (fun _ => .of_eq rfl rfl rfl) fun _ _ _ => rfl) fun _ => .pure _
    · split
      · exact .delimiter _
      · exact (LocalFrom.captureUntil _).anywhere.bind fun _ => .pure _

theorem LocalFrom.spacedToken {token : UInt8 → Scan TokenKind}
    (each : ∀ byte, (token byte).LocalFrom Source.IsReady) : (spacedToken token).Local := by
  refine .bind_passSpace fun next => ?_
  split
  · exact LocalFrom.finish.anywhere
  · exact .bind_markStart (each _)

theorem LocalFrom.headerToken : headerToken.Local := by
  have spaced : (Scan.spacedToken Scan.headerTokenAt).Local := .spacedToken .headerTokenAt
  refine .bind (.look fun _ _ _ => rfl) fun kind => ?_
  split
  · exact .quotedToken _ _ _
  · refine .bind_peek fun next => ?_
    split
    · split
      · exact .bind_markStart ((LocalFrom.captureUntil _).anywhere.bind fun _ => .pure _)
      · exact spaced.anywhere
    · exact spaced.anywhere
  · exact spaced

/-- A marker is short, and it has no line feed in it. -/
theorem mem_numericMarkers {marker : Bytes} (member : marker ∈ numericMarkers) :
    marker.length ≤ Window.lookahead ∧ lineFeed ∉ marker := by
  simp only [numericMarkers, List.mem_cons, List.not_mem_nil, or_false] at member
  rcases member with rfl | rfl | rfl <;> decide

/-- Texts that begin with the same markers have the same first one of them. -/
theorem find_numericMarkers {left right : Bytes}
    (same : ∀ marker ∈ numericMarkers, marker.isPrefixOf left = marker.isPrefixOf right) :
    numericMarkers.find? (·.isPrefixOf left) = numericMarkers.find? (·.isPrefixOf right) := by
  unfold numericMarkers at *
  simp only [List.find?_cons, List.find?_nil, same _ List.mem_cons_self,
    same _ (List.mem_cons_of_mem _ List.mem_cons_self),
    same _ (List.mem_cons_of_mem _ (List.mem_cons_of_mem _ List.mem_cons_self))]

/-- The marker in sight is the one that comes next. -/
theorem find_numericMarkers_buffer {source : Source} (ready : source.IsReady) :
    numericMarkers.find? (·.isPrefixOf source.buffer) =
      numericMarkers.find? (·.isPrefixOf source.content) :=
  find_numericMarkers fun _ member => ready.isPrefixOf_buffer (mem_numericMarkers member).1

theorem LocalFrom.captureMarker (marker : Bytes) :
    (Scan.capture marker.length).LocalFrom (marker.isPrefixOf ·.buffer = true) where
  consuming := .capture marker.length
  tracks rest shift lexer lexer' after after' found found' tracks sees sees' success success'
      _ := by
    cases success
    cases success'
    exact ⟨rfl, tracks.take_prefix true sees sees'⟩

theorem LocalFrom.numberToken : numberToken.Local := by
  refine .bind (.captureUntil _) fun _ => .bind_peek fun next => LocalFrom.anywhere ?_
  unfold Scan.behindDigits
  split
  · split
    · exact .bind (.captureUntil _) fun _ => .look fun _ _ _ => rfl
    · exact .pure _
  · exact .pure _

theorem LocalFrom.digitToken : digitToken.LocalFrom Source.IsReady where
  consuming := .digitToken
  tracks rest shift lexer lexer' after after' found found' tracks ready ready' success success'
      apart := by
    have apartBefore := separate_of_run Consuming.digitToken success apart
    have next : numericMarkers.find? (·.isPrefixOf lexer'.source.content) =
        numericMarkers.find? (·.isPrefixOf lexer.source.content) := by
      rw [tracks.content]
      exact find_numericMarkers fun _ member =>
        apartBefore.isPrefixOf_eq (mem_numericMarkers member).2
    unfold Scan.digitToken at success success'
    rw [run_bind, run_look] at success success'
    simp only [find_numericMarkers_buffer ready] at success
    simp only [find_numericMarkers_buffer ready', next] at success'
    split at success
    · next marker shown =>
      have short := (mem_numericMarkers (List.mem_of_find?_eq_some shown)).1
      have stands := List.find?_some shown
      have stands' := List.find?_some (next.trans shown)
      rw [shown] at success'
      exact ((LocalFrom.captureMarker marker).bind fun _ => .terminate).tracks tracks
        ((ready.isPrefixOf_buffer short).trans stands)
        ((ready'.isPrefixOf_buffer short).trans stands') success success' apart
    · next none =>
      rw [none] at success'
      exact LocalFrom.numberToken.tracks tracks trivial trivial success success' apart

theorem LocalFrom.moveToken : moveToken.Local := by
  refine .bind (.captureUntil _) fun _ => .bind (.look fun _ _ _ => rfl) fun span => ?_
  split
  · exact .pure _
  · exact .look fun _ _ _ => rfl

theorem LocalFrom.movetextTokenAt (byte : UInt8) :
    (movetextTokenAt byte).LocalFrom Source.IsReady := by
  unfold Scan.movetextTokenAt
  repeat' split
  · exact .delimiter _
  · exact .bind .pass fun _ => .bind .captureLine fun _ => .pure _
  · exact .bind .capture fun _ => .bind (.captureUntil _) fun _ => .pure _
  · exact (LocalFrom.captureUntil _).anywhere.bind fun _ => .pure _
  · exact .bind .capture fun _ => .terminate
  · exact (LocalFrom.captureUntil _).anywhere.bind fun _ => .bind (.look fun _ _ _ => rfl) fun _ =>
      .pure _
  · exact .digitToken
  · exact .bind .capture fun _ => .pure _
  · exact LocalFrom.moveToken.anywhere

theorem LocalFrom.movetextToken : movetextToken.Local := by
  refine .bind (.look fun _ _ _ => rfl) fun kind => ?_
  split
  · exact .quotedToken _ _ _
  · exact .spacedToken .movetextTokenAt

theorem LocalFrom.closeOpening (kind : TokenKind) : (change (Lexer.closeOpening kind)).Local := by
  refine .update (Consumes.closeOpening kind) fun lexer source shift => ?_
  obtain ⟨_, _, _, _, opening, _, _, _⟩ := lexer
  cases opening with
  | false => rfl
  | true => cases kind <;> rfl

theorem LocalFrom.scopedToken : scopedToken.Local := by
  refine .bind (.look fun _ _ _ => rfl) fun scope => ?_
  split
  · exact .finish
  · exact .headerToken
  · exact .bind .movetextToken fun kind => .bind (.closeOpening kind) fun _ => .pure _
  · exact .bind .movetextToken fun kind => .bind (.closeOpening kind) fun _ => .pure _

theorem LocalFrom.passMark : (change Lexer.passMark).LocalFrom Source.IsReady where
  consuming := .change Consumes.passMark
  tracks rest shift lexer lexer' after after' found found' tracks ready ready' success success'
      apart := by
    have apartBefore := separate_of_run (Consuming.change Consumes.passMark) success apart
    cases success
    cases success'
    refine ⟨rfl, ?_⟩
    have same : byteOrderMark.isPrefixOf lexer'.source.buffer =
        byteOrderMark.isPrefixOf lexer.source.buffer := by
      rw [ready.isPrefixOf_buffer (by decide), ready'.isPrefixOf_buffer (by decide), tracks.content,
        apartBefore.isPrefixOf_eq (by decide)]
    unfold Lexer.passMark
    split
    · next marked =>
      rw [if_pos (same.trans marked)]
      have passed := tracks.take_prefix false marked (same.trans marked)
      exact @Tracks.update _ _ _ _
        (fun behind =>
          { behind with place := { behind.place with lineStart := behind.place.offset } })
        passed fun _ _ _ => rfl
    · next unmarked =>
      rw [if_neg (same ▸ unmarked)]
      exact tracks

end Scan

/-! ### The next token -/

namespace Lexer

/-- Unless the lexer is at the beginning of the input, or a byte order mark comes next. -/
def Unmarked (lexer : Lexer) : Prop :=
  lexer.place.offset ≠ 0 ∨ byteOrderMark.isPrefixOf lexer.source.content = false

variable {rest : Bytes} {shift : Shift} {first second lexer after firstAfter secondAfter : Lexer}

/-- Without a byte order mark nothing is passed. -/
theorem Unmarked.takes (unmarked : lexer.Unmarked) (honest : lexer.source.IsHonest)
    (success : Scan.passByteOrderMark.run lexer = (.ok (), after)) :
    Takes false [] lexer after := by
  unfold Scan.passByteOrderMark at success
  rw [Scan.run_bind, Scan.run_look] at success
  dsimp only at success
  split at success
  · next start =>
    obtain ⟨_, middle, filled, passed⟩ := Scan.run_bind_ok success
    have ready := isReady_fill honest (congrArg Prod.fst filled)
    have taking : Takes false [] lexer (Scan.fill.run lexer).2 := .fill honest
    rw [filled] at ready taking
    have content : lexer.source.content = middle.source.content := taking.content
    have plain := unmarked.resolve_left (not_not_intro start)
    rw [content, ← ready.isPrefixOf_buffer (by decide)] at plain
    cases passed
    unfold passMark
    rw [if_neg (Bool.eq_false_iff.mp plain)]
    exact taking
  · cases success
    exact .refl honest

/-- Only the byte order mark depends on how far a lexer is moved on. -/
theorem Tracks.passByteOrderMark (tracks : Tracks rest shift first second)
    (unmoved : shift.bytes = 0 ∨ first.Unmarked)
    (success : Scan.passByteOrderMark.run first = (.ok (), firstAfter))
    (success' : Scan.passByteOrderMark.run second = (.ok (), secondAfter))
    (apart : firstAfter.Separate rest) : Tracks rest shift firstAfter secondAfter := by
  have offset : second.place.offset = first.place.offset + shift.bytes := by
    rw [tracks.place]
    rfl
  by_cases same : second.place.offset = 0 ↔ first.place.offset = 0
  · unfold Scan.passByteOrderMark at success success'
    rw [Scan.run_bind, Scan.run_look] at success success'
    dsimp only at success success'
    by_cases start : first.place.offset = 0
    · rw [if_pos start] at success
      rw [if_pos (same.mpr start)] at success'
      exact ((Scan.LocalFrom.bind_fill .passMark).tracks tracks trivial trivial success success'
        apart).2
    · rw [if_neg start] at success
      rw [if_neg (mt same.mp start)] at success'
      cases success
      cases success'
      exact tracks
  · have later : second.Unmarked := .inl (by omega)
    exact tracks.takes ((unmoved.resolve_left (by omega)).takes tracks.honestFirst success)
      (later.takes tracks.honestSecond success')

theorem Tracks.nextToken {kind kind' : TokenKind} (tracks : Tracks rest shift first second)
    (unmoved : shift.bytes = 0 ∨ first.Unmarked)
    (success : Scan.nextToken.run first = (.ok kind, firstAfter))
    (success' : Scan.nextToken.run second = (.ok kind', secondAfter))
    (apart : firstAfter.Separate rest) :
    kind = kind' ∧ Tracks rest shift firstAfter secondAfter := by
  have unsettled : second.unsettled = first.unsettled := tracks.view fun _ _ _ => rfl
  unfold Scan.nextToken at success success'
  rw [Scan.run_bind, Scan.run_look] at success success'
  dsimp only at success success'
  rw [unsettled] at success'
  split at success
  · next fresh =>
    rw [if_pos fresh] at success'
    obtain ⟨_, middle, early, late⟩ := Scan.run_bind_ok success
    obtain ⟨_, middle', early', late'⟩ := Scan.run_bind_ok success'
    have onward : (Scan.findScope >>= fun _ => Scan.scopedToken).Local :=
      .bind .findScope fun _ => .scopedToken
    have between := tracks.passByteOrderMark unmoved early early'
      (Scan.separate_of_run onward.consuming late apart)
    exact onward.tracks between trivial trivial late late' apart
  · next settled =>
    rw [if_neg settled] at success'
    exact Scan.LocalFrom.scopedToken.tracks tracks trivial trivial success success' apart

/-- The next token is the same for the one that tracks, but for being moved on. -/
theorem Tracks.advance (tracks : Tracks rest shift first second)
    (unmoved : shift.bytes = 0 ∨ first.Unmarked)
    (success : Scan.advance.run first = (.ok (), firstAfter))
    (success' : Scan.advance.run second = (.ok (), secondAfter))
    (apart : firstAfter.Separate rest) : Tracks rest shift firstAfter secondAfter := by
  have emptied : Tracks rest shift { first with captured := [] } { second with captured := [] } :=
    @Tracks.update _ _ _ _ ({ · with captured := [] }) tracks fun _ _ _ => rfl
  obtain ⟨kind, _, told, rfl⟩ := nextToken_of_advance success
  obtain ⟨kind', _, told', rfl⟩ := nextToken_of_advance success'
  obtain ⟨rfl, later⟩ := emptied.nextToken unmoved told told' apart
  exact @Tracks.update _ _ _ _ ({ · with kind }) later fun _ _ _ => rfl

end Lexer

end Scoresheet
