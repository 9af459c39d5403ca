/-
This file says how the tokens of each kind are written. A delimiter is one byte and covers none, a
line comment is written with a semicolon and perhaps with a carriage return that it does not cover,
and every other token covers what it is written with. What a token covers is described kind by kind:
which bytes a number, a move, an annotation or a comment may consist of, and how it may begin.

A scan that tells a token passes exactly the bytes the token is written with, from where the token
is said to start. The source has to be honest: one that claims an end too early can cut a marker in
two, and the halves are told as something else.
-/

import Scoresheet.Proofs.Spelling
import Scoresheet.Proofs.Tracking

namespace Scoresheet

open Ascii

/-! ### Kinds of tokens and their bytes -/

namespace TokenKind

/-- The byte that a delimiter is. -/
def delimiter? : TokenKind → Option UInt8
  | headerBegin => some openBracket
  | headerEnd => some closeBracket
  | valueBegin => some quote
  | valueEnd => some quote
  | commentBegin => some openBrace
  | commentEnd => some closeBrace
  | variationBegin => some openParen
  | variationEnd => some closeParen
  | _ => none

/-- A token of the kind that covers the span takes the written bytes in the input. -/
def Writes (kind : TokenKind) (span written : Bytes) : Prop :=
  match kind.delimiter? with
  | some byte => span = [] ∧ written = [byte]
  | none =>
    if kind = .lineComment then
      written = semicolon :: span ∨ written = semicolon :: span ++ [carriageReturn]
    else written = span

end TokenKind

/-- The span of a move. -/
structure Bytes.IsMoveSpan (span : Bytes) : Prop where
  some : span ≠ []
  undelimited : ∀ byte ∈ span, isDelimiter byte = false
  noMark : ∀ byte ∈ span.head?, byte ≠ exclamation ∧ byte ≠ question
  noMarker : ∀ marker ∈ numericMarkers, ¬ marker <+: span
  noGlyph : span ∉ standaloneGlyphs

/-- The span of an annotation: a code behind a dollar sign, marks, or a glyph that stands alone. -/
inductive Bytes.IsNagSpan : Bytes → Prop where
  | code {code : Bytes} (undelimited : ∀ byte ∈ code, isDelimiter byte = false) :
      IsNagSpan (dollar :: code)
  | marks {span : Bytes} (some : span ≠ [])
      (all : ∀ byte ∈ span, byte = exclamation ∨ byte = question) : IsNagSpan span
  | glyph {span : Bytes} (standalone : span ∈ standaloneGlyphs) : IsNagSpan span

/-- What a token of the kind can cover that comes behind a token of the previous kind. -/
def TokenKind.Admits (kind previous : TokenKind) (span : Bytes) : Prop :=
  match kind with
  | moveNumber => span ≠ [] ∧ ∀ byte ∈ span, isDigit byte = true
  | dot => span = [Ascii.dot]
  | ellipsis => 2 ≤ span.length ∧ ∀ byte ∈ span, byte = Ascii.dot
  | whiteMove => span.IsMoveSpan
  | blackMove => span.IsMoveSpan
  | nag => span.IsNagSpan
  | comment => span ≠ [] ∧ span.quoted closeBrace = span
  | value => span ≠ [] ∧ (previous = valueBegin → span.quoted quote = span)
  | separator => span ≠ [] ∧ ∀ byte ∈ span, isBlank byte = true
  | termination => ∃ outcome : Outcome, outcome.marker = span
  | _ => True

/-- The part of a text in front of its closing byte has no closing byte in it. -/
theorem Bytes.quoted_quoted (closing : UInt8) (text : Bytes) :
    (text.quoted closing).quoted closing = text.quoted closing := by
  fun_induction Bytes.quoted closing text with
  | case1 => rfl
  | case2 => rfl
  | case3 byte onward => exact if_neg onward
  | case4 => rfl
  | case5 next rest onward inductionHypothesis =>
    rw [quoted_backslash onward]
    exact congrArg (backslash :: next :: ·) inductionHypothesis
  | case6 byte next rest onward plain inductionHypothesis =>
    rw [quoted_cons onward plain, inductionHypothesis]

/-- A text that does not begin with its closing byte has a part in front of it. -/
theorem Bytes.quoted_ne_nil {closing byte : UInt8} {rest : Bytes} (onward : byte ≠ closing) :
    quoted closing (byte :: rest) ≠ [] := by
  cases rest with
  | nil =>
    rw [quoted, if_neg onward]
    exact List.cons_ne_nil _ _
  | cons next rest =>
    rw [quoted, if_neg onward]
    split <;> exact List.cons_ne_nil _ _

/-- Every marker that is no star begins with a digit. -/
theorem not_marker_prefix {marker span : Bytes} (member : marker ∈ numericMarkers)
    (other : ∀ byte ∈ span.head?, isDigit byte = false) : ¬ marker <+: span := by
  rintro ⟨rest, rfl⟩
  simp only [numericMarkers, List.mem_cons, List.not_mem_nil, or_false] at member
  rcases member with rfl | rfl | rfl <;> exact absurd (other _ rfl) (by decide)

/-- No glyph that stands alone begins with a digit. -/
theorem not_mem_standaloneGlyphs {byte : UInt8} {rest : Bytes} (digit : isDigit byte = true) :
    byte :: rest ∉ standaloneGlyphs := by
  intro member
  have heads : ∀ glyph ∈ standaloneGlyphs, glyph.head?.any isDigit = false := by decide
  have other := heads _ member
  rw [List.head?_cons, Option.any_some, digit] at other
  cases other

/-- A move is told to be of white, of black, or of neither. -/
theorem TokenKind.moveKindAfter_cases (previous : TokenKind) :
    previous.moveKindAfter = whiteMove ∨ previous.moveKindAfter = blackMove ∨
      previous.moveKindAfter = undefined := by
  cases previous <;> decide

/-- A delimiter covers nothing. -/
theorem TokenKind.admits_of_delimiter {kind previous : TokenKind} {byte : UInt8}
    (delimiter : kind.delimiter? = some byte) : kind.Admits previous [] := by
  cases kind with
  | headerBegin | headerEnd | valueBegin | valueEnd => trivial
  | commentBegin | commentEnd | variationBegin | variationEnd => trivial
  | _ => cases delimiter

theorem delimiter?_of_delimiterKind? {byte : UInt8} {kind : TokenKind}
    (found : delimiterKind? byte = some kind) : kind.delimiter? = some byte := by
  unfold delimiterKind? at found
  split at found
  · next opens =>
    cases found
    exact congrArg some opens.symm
  split at found
  · next closes =>
    cases found
    exact congrArg some closes.symm
  split at found
  · next opens =>
    cases found
    exact congrArg some opens.symm
  split at found
  · next closes =>
    cases found
    exact congrArg some closes.symm
  · cases found

namespace Lexer

/-! ### From the start of a token -/

/-- From the origin on the lexer has passed the written bytes and kept some of them, and the rest is
still to come. -/
structure Wrote (origin : Lexer) (written kept rest : Bytes) (lexer : Lexer) : Prop where
  honest : lexer.source.IsHonest
  content : lexer.source.content = rest
  place : lexer.place = origin.place.pass written
  span : lexer.span = kept
  start : lexer.start = origin.start
  inside : lexer.scope ≠ .outside

/-- The lexer is where a token starts, and the next byte is in sight. -/
structure AtStart (origin : Lexer) (text : Bytes) (lexer : Lexer) : Prop where
  wrote : Wrote origin [] [] text lexer
  ready : lexer.source.IsReady

/-- The lexer is behind a token that was written at the beginning of the text. -/
def Lexed (origin : Lexer) (previous : TokenKind) (text : Bytes) (kind : TokenKind)
    (lexer : Lexer) : Prop :=
  ∃ written kept rest, text = written ++ rest ∧ Wrote origin written kept rest lexer ∧
    kind.Writes kept written ∧ kind.Admits previous kept

variable {origin before after lexer : Lexer} {written kept rest run text : Bytes} {keep : Bool}
  {previous kind : TokenKind}

theorem Wrote.takes (wrote : Wrote origin written kept (run ++ rest) before)
    (takes : Takes keep run before after) :
    Wrote origin (written ++ run) (if keep then kept ++ run else kept) rest after where
  honest := takes.honest
  content := List.append_cancel_left (takes.content.symm.trans wrote.content)
  place := by rw [takes.place, wrote.place, Place.pass_append]
  span := by
    have captured : after.captured =
        if keep then run.reverse ++ before.captured else before.captured :=
      congrArg Lexer.captured takes.state
    rw [← wrote.span, Lexer.span, captured]
    cases keep <;> simp [Lexer.span]
  start := by
    have starts := congrArg Lexer.start takes.state
    exact starts.trans wrote.start
  inside := by
    rw [takes.scope_eq]
    exact wrote.inside

theorem Wrote.captured (wrote : Wrote origin written kept rest lexer) :
    lexer.captured = kept.reverse := by
  rw [← wrote.span]
  exact (List.reverse_reverse lexer.captured).symm

/-- Dropping a carriage return changes nothing else. -/
theorem Wrote.dropReturn (wrote : Wrote origin written kept rest lexer) :
    ∃ span, (kept = span ∨ kept = span ++ [carriageReturn]) ∧
      Wrote origin written span rest lexer.dropReturn := by
  unfold Lexer.dropReturn
  split
  · next others shown =>
    refine ⟨others.reverse, .inr ?_, { wrote with span := rfl }⟩
    rw [← wrote.span, Lexer.span, shown]
    exact List.reverse_cons
  · exact ⟨kept, .inl rfl, wrote⟩

end Lexer

namespace Scan

open Lexer

variable {origin : Lexer} {written kept rest text : Bytes} {byte : UInt8}
  {previous kind : TokenKind}

/-! ### Loops from the start of a token -/

theorem wrote_fill : Scan.fill.Leads (Wrote origin written kept rest)
    fun _ lexer => Wrote origin written kept rest lexer ∧ lexer.source.IsReady := by
  intro lexer later value wrote success
  have same : later = (Scan.fill.run lexer).2 := congrArg Prod.snd success.symm
  have takes : Takes false [] lexer later := same ▸ Takes.fill wrote.honest
  have none : Wrote origin written kept ([] ++ rest) lexer := wrote
  have kept := none.takes takes
  rw [List.append_nil, if_neg Bool.false_ne_true] at kept
  refine ⟨kept, ?_⟩
  rw [same]
  exact isReady_fill wrote.honest (congrArg Prod.fst success)

theorem wrote_peek : Scan.peek.Leads (Wrote origin written kept rest) fun next lexer =>
    next = rest.head? ∧ Wrote origin written kept rest lexer ∧ lexer.source.IsReady :=
  wrote_fill.bind fun _ => .look fun lexer holds =>
    ⟨by rw [← holds.1.content, holds.2.showsNext.head_content], holds⟩

theorem wrote_take (keep : Bool) : (Scan.change (·.take keep 1)).Leads
    (AtStart origin (byte :: rest)) fun _ =>
      Wrote origin [byte] (if keep then [byte] else []) rest := by
  refine .change fun lexer holds => ?_
  have takes := Takes.take holds.wrote.honest keep 1
  rw [← holds.ready.showsNext.take_content, holds.wrote.content] at takes
  have one : Wrote origin [] [] ([byte] ++ rest) lexer := holds.wrote
  exact one.takes takes

theorem wrote_captureUntil (stop : UInt8 → Bool) :
    (Scan.captureUntil stop).Leads (Wrote origin written kept rest) fun _ =>
      Wrote origin (written ++ rest.takeWhile (!stop ·)) (kept ++ rest.takeWhile (!stop ·))
        (rest.dropWhile (!stop ·)) := by
  intro lexer later value wrote success
  have takes := runUntil_takes wrote.honest success
  rw [wrote.content] at takes
  have parted : Wrote origin written kept
      (rest.takeWhile (!stop ·) ++ rest.dropWhile (!stop ·)) lexer := by
    rwa [List.takeWhile_append_dropWhile]
  exact parted.takes takes

theorem wrote_captureQuoted (closing : UInt8) :
    (Scan.captureQuoted closing).Leads (Wrote origin written kept rest) fun _ lexer =>
      ∃ more, rest = rest.quoted closing ++ more ∧
        Wrote origin (written ++ rest.quoted closing) (kept ++ rest.quoted closing) more lexer := by
  intro lexer later value wrote success
  have takes := captureQuoted_takes wrote.honest success
  rw [wrote.content] at takes
  have whole : rest = rest.quoted closing ++ later.source.content :=
    wrote.content.symm.trans takes.content
  have parted : Wrote origin written kept (rest.quoted closing ++ later.source.content) lexer := by
    rwa [← whole]
  exact ⟨later.source.content, whole, parted.takes takes⟩

/-- The rest of a line is kept without its line break. -/
theorem wrote_captureLine : Scan.captureLine.Leads (Wrote origin written [] rest) fun _ lexer =>
    ∃ run more span, rest = run ++ more ∧ (run = span ∨ run = span ++ [carriageReturn]) ∧
      Wrote origin (written ++ run) span more lexer :=
  (wrote_captureUntil (· == lineFeed)).bind fun _ => .change fun _ wrote =>
    have ⟨span, kept, later⟩ := wrote.dropReturn
    ⟨_, _, span, List.takeWhile_append_dropWhile.symm, kept, later⟩

/-! ### Tokens from their start -/

theorem lexes_pure (whole : text = written ++ rest) (writes : kind.Writes kept written)
    (admits : kind.Admits previous kept) :
    (pure kind : Scan TokenKind).Leads (Wrote origin written kept rest)
      (Lexed origin previous text) :=
  .pure fun _ wrote => ⟨written, kept, rest, whole, wrote, writes, admits⟩

theorem lexes_delimiter (delimiter : kind.delimiter? = some byte) :
    (Scan.delimiter kind).Leads (AtStart origin (byte :: rest))
      (Lexed origin previous (byte :: rest)) :=
  (wrote_take false).bind fun _ => lexes_pure rfl
    (by rw [TokenKind.Writes, delimiter]; exact ⟨rfl, rfl⟩)
    (TokenKind.admits_of_delimiter delimiter)

theorem lexes_terminate (outcome : Outcome) (whole : text = outcome.marker ++ rest) :
    Scan.terminate.Leads (Wrote origin outcome.marker outcome.marker rest)
      (Lexed origin previous text) := by
  have terminated : (Scan.change Lexer.terminate).Leads
      (Wrote origin outcome.marker outcome.marker rest)
      fun _ => Wrote origin outcome.marker outcome.marker rest :=
    .change fun lexer wrote => { wrote with inside := nofun }
  exact terminated.bind fun _ => lexes_pure whole rfl ⟨outcome, rfl⟩

theorem lexes_moveKind (isMove : kept.IsMoveSpan) (whole : text = kept ++ rest) :
    Scan.moveKind.Leads (Wrote origin kept kept rest) (Lexed origin previous text) := by
  refine .look fun lexer wrote => ⟨kept, kept, rest, whole, wrote, ?_⟩
  rcases lexer.kind.moveKindAfter_cases with told | told | told
  · rw [told]
    exact ⟨rfl, isMove⟩
  · rw [told]
    exact ⟨rfl, isMove⟩
  · rw [told]
    exact ⟨rfl, trivial⟩

/-- A run that goes on over its first byte. -/
theorem wrote_run {stop : UInt8 → Bool} (onward : stop byte = false) :
    (Scan.captureUntil stop).Leads (Wrote origin [] [] (byte :: rest)) fun _ =>
      Wrote origin (byte :: rest.takeWhile (!stop ·)) (byte :: rest.takeWhile (!stop ·))
        (rest.dropWhile (!stop ·)) := by
  refine (wrote_captureUntil stop).weaken (fun _ wrote => wrote) fun _ lexer wrote => ?_
  rwa [List.takeWhile_cons_of_pos (by rw [onward]; rfl),
    List.dropWhile_cons_of_pos (by rw [onward]; rfl)] at wrote

theorem lexes_run {stop : UInt8 → Bool} (onward : stop byte = false) :
    (Scan.captureUntil stop).Leads (AtStart origin (byte :: rest)) fun _ =>
      Wrote origin (byte :: rest.takeWhile (!stop ·)) (byte :: rest.takeWhile (!stop ·))
        (rest.dropWhile (!stop ·)) :=
  (wrote_run onward).weaken (fun _ start => start.wrote) fun _ _ wrote => wrote

theorem cons_takeWhile_append_dropWhile (onward : UInt8 → Bool) :
    byte :: rest = byte :: rest.takeWhile onward ++ rest.dropWhile onward := by
  rw [List.cons_append, List.takeWhile_append_dropWhile]

/-- What holds of the first byte and of every byte a run goes on over holds of the whole run. -/
theorem forall_mem_run {holds : UInt8 → Prop} {onward : UInt8 → Bool} (first : holds byte)
    (others : ∀ other, onward other = true → holds other) :
    ∀ other ∈ byte :: rest.takeWhile onward, holds other := by
  intro other member
  rcases List.mem_cons.mp member with rfl | later
  · exact first
  · exact others other (List.all_eq_true.mp List.all_takeWhile other later)

theorem isMoveSpan_of_letter (inside : isDelimiter byte = false) (letter : isDigit byte = false)
    (noMark : byte ≠ exclamation ∧ byte ≠ question)
    (noGlyph : byte :: rest.takeWhile (!isDelimiter ·) ∉ standaloneGlyphs) :
    Bytes.IsMoveSpan (byte :: rest.takeWhile (!isDelimiter ·)) where
  some := List.cons_ne_nil _ _
  undelimited := forall_mem_run inside fun other onward => by simpa using onward
  noMark other head := by
    cases head
    exact noMark
  noMarker marker member := by
    refine not_marker_prefix member fun other head => ?_
    cases head
    exact letter
  noGlyph := noGlyph

theorem lexes_moveToken (inside : isDelimiter byte = false) (letter : isDigit byte = false)
    (noMark : byte ≠ exclamation ∧ byte ≠ question) :
    Scan.moveToken.Leads (AtStart origin (byte :: rest)) (Lexed origin previous (byte :: rest)) := by
  refine (lexes_run inside).bind fun _ => .bind_look_of _ (fun _ wrote => wrote.span) ?_
  split
  · next standalone =>
    exact lexes_pure (cons_takeWhile_append_dropWhile _) rfl
      (.glyph (List.contains_iff_mem.mp standalone))
  · next moving =>
    exact lexes_moveKind (isMoveSpan_of_letter inside letter noMark fun member =>
      moving (List.contains_iff_mem.mpr member)) (cons_takeWhile_append_dropWhile _)

/-- A run that begins with a digit and with no marker, and consists of digits and other bytes that
delimit nothing, is a move if it is one at all. -/
theorem isMoveSpan_of_digit {more : Bytes} (digit : isDigit byte = true)
    (noMarker : ∀ marker ∈ numericMarkers, ¬ marker <+: byte :: rest)
    (begins : byte :: more <+: byte :: rest)
    (undelimited : ∀ other ∈ byte :: more, isDelimiter other = false) :
    Bytes.IsMoveSpan (byte :: more) where
  some := List.cons_ne_nil _ _
  undelimited := undelimited
  noMark other head := by
    cases head
    constructor
    all_goals
      rintro rfl
      exact absurd digit (by decide)
  noMarker marker member begun := noMarker marker member (begun.trans begins)
  noGlyph := not_mem_standaloneGlyphs digit

/-- Digits and what goes on behind them up to a delimiter. -/
theorem isMoveSpan_digits (digit : isDigit byte = true)
    (noMarker : ∀ marker ∈ numericMarkers, ¬ marker <+: byte :: rest) :
    Bytes.IsMoveSpan (byte :: rest.takeWhile isDigit ++
      (rest.dropWhile isDigit).takeWhile (!isDelimiter ·)) := by
  rw [List.cons_append]
  refine isMoveSpan_of_digit digit noMarker ?_ fun other member => ?_
  · refine ⟨(rest.dropWhile isDigit).dropWhile (!isDelimiter ·), ?_⟩
    rw [List.cons_append, List.append_assoc, List.takeWhile_append_dropWhile,
      List.takeWhile_append_dropWhile]
  · rw [← List.cons_append] at member
    rcases List.mem_append.mp member with inDigits | behind
    · exact isDelimiter_of_isDigit (forall_mem_run digit (fun _ onward => onward) other inDigits)
    · simpa using List.all_eq_true.mp List.all_takeWhile other behind

/-- Behind digits a move goes on, or a number ends. -/
theorem lexes_numberToken (digit : isDigit byte = true)
    (noMarker : ∀ marker ∈ numericMarkers, ¬ marker <+: byte :: rest) :
    Scan.numberToken.Leads (AtStart origin (byte :: rest))
      (Lexed origin previous (byte :: rest)) := by
  have onward : (!isDigit byte) = false := by rw [digit]; rfl
  have run := @lexes_run origin rest byte (!isDigit ·) onward
  simp only [Bool.not_not] at run
  have number : (pure TokenKind.moveNumber : Scan TokenKind).Leads
      (Wrote origin (byte :: rest.takeWhile isDigit) (byte :: rest.takeWhile isDigit)
        (rest.dropWhile isDigit)) (Lexed origin previous (byte :: rest)) :=
    lexes_pure (cons_takeWhile_append_dropWhile _) rfl
      ⟨List.cons_ne_nil _ _, forall_mem_run digit fun _ onward => onward⟩
  refine run.bind fun _ => wrote_peek.bind fun next =>
    Leads.weaken ?_ (fun _ holds => holds.2.1) fun _ _ holds => holds
  unfold Scan.behindDigits
  split
  · split
    · refine (wrote_captureUntil isDelimiter).bind fun _ =>
        lexes_moveKind (isMoveSpan_digits digit noMarker) ?_
      rw [List.append_assoc, List.takeWhile_append_dropWhile]
      exact cons_takeWhile_append_dropWhile _
    · exact number
  · exact number

/-- A marker that is in sight is kept as a whole. -/
theorem lexes_marker (outcome : Outcome) {count : Nat} {shown : Lexer → Prop}
    (marked : ∀ lexer, shown lexer → lexer.source.buffer.take count = outcome.marker) :
    (do
      Scan.capture count
      Scan.terminate : Scan TokenKind).Leads (fun lexer => AtStart origin text lexer ∧ shown lexer)
        (Lexed origin previous text) := by
  intro lexer later kind holds success
  obtain ⟨_, middle, captured, terminated⟩ := run_bind_ok success
  cases captured
  have takes := Takes.take holds.1.wrote.honest true count
  rw [marked lexer holds.2] at takes
  have whole : text = outcome.marker ++ (lexer.take true count).source.content :=
    holds.1.wrote.content.symm.trans takes.content
  have parted : Wrote origin [] [] (outcome.marker ++ (lexer.take true count).source.content)
      lexer := whole ▸ holds.1.wrote
  exact lexes_terminate outcome whole _ _ _ (parted.takes takes) terminated

theorem lexes_digitToken (digit : isDigit byte = true) :
    Scan.digitToken.Leads (AtStart origin (byte :: rest))
      (Lexed origin previous (byte :: rest)) := by
  have buffer : (Scan.look (·.source.buffer)).Leads (AtStart origin (byte :: rest))
      fun buffer lexer => AtStart origin (byte :: rest) lexer ∧ lexer.source.buffer = buffer :=
    .look fun _ start => ⟨start, rfl⟩
  refine buffer.bind fun buffer => ?_
  split
  · next marker found =>
    obtain ⟨outcome, rfl⟩ := exists_of_mem_numericMarkers (List.mem_of_find?_eq_some found)
    have begins := List.find?_some found
    refine lexes_marker outcome fun lexer shown => ?_
    rw [shown]
    exact (List.prefix_iff_eq_take.mp (List.isPrefixOf_iff_prefix.mp begins)).symm
  · next none =>
    rintro lexer later kind ⟨start, rfl⟩ success
    rw [find_numericMarkers_buffer start.ready, start.wrote.content, List.find?_eq_none] at none
    exact lexes_numberToken digit (fun marker member begins =>
      none marker member (List.isPrefixOf_iff_prefix.mpr begins)) lexer later kind start success

theorem lexes_dots : (do
      Scan.captureUntil (· != dot)
      return if (← Scan.look (·.captured)) = [dot] then .dot else .ellipsis :
        Scan TokenKind).Leads (AtStart origin (dot :: rest)) (Lexed origin previous (dot :: rest)) := by
  refine (lexes_run rfl).bind fun _ => .bind_look_of _ (fun _ wrote => wrote.captured) ?_
  have all : ∀ byte ∈ dot :: rest.takeWhile (!· != dot), byte = dot :=
    forall_mem_run rfl fun other onward => by simpa using onward
  have whole := @cons_takeWhile_append_dropWhile rest dot (!· != dot)
  split
  · next single =>
    exact lexes_pure whole rfl (List.reverse_eq_iff.mp single)
  · next several =>
    refine lexes_pure whole rfl ⟨?_, all⟩
    cases behind : rest.takeWhile (!· != dot) with
    | nil => exact absurd (by rw [behind]; rfl) several
    | cons => exact Nat.le_add_left 2 _

/-- A comment up to the end of its line, where a carriage return is left out. -/
theorem lexes_lineComment : (do
      Scan.pass 1
      Scan.captureLine
      return .lineComment : Scan TokenKind).Leads (AtStart origin (semicolon :: rest))
        (Lexed origin previous (semicolon :: rest)) := by
  refine (wrote_take false).bind fun _ => wrote_captureLine.bind fun _ => .pure ?_
  rintro lexer ⟨run, more, span, whole, kept, wrote⟩
  refine ⟨_, span, more, ?_, wrote, ?_, trivial⟩
  · rw [whole]
    rfl
  · rcases kept with rfl | rfl
    · exact .inl rfl
    · exact .inr rfl

theorem lexes_code : (do
      Scan.capture 1
      Scan.captureUntil isDelimiter
      return .nag : Scan TokenKind).Leads (AtStart origin (dollar :: rest))
        (Lexed origin previous (dollar :: rest)) := by
  refine (wrote_take true).bind fun _ => (wrote_captureUntil isDelimiter).bind fun _ =>
    lexes_pure (cons_takeWhile_append_dropWhile _) rfl ?_
  refine .code fun other member => ?_
  simpa using List.all_eq_true.mp List.all_takeWhile other member

theorem lexes_marks (mark : byte = exclamation ∨ byte = question) : (do
      Scan.captureUntil fun next => !(next == exclamation || next == question)
      return .nag : Scan TokenKind).Leads (AtStart origin (byte :: rest))
        (Lexed origin previous (byte :: rest)) := by
  refine (lexes_run ?_).bind fun _ =>
    lexes_pure (cons_takeWhile_append_dropWhile _) rfl
      (.marks (List.cons_ne_nil _ _) (forall_mem_run mark fun other onward => ?_))
  · rcases mark with rfl | rfl <;> rfl
  · simpa using onward

theorem lexes_movetextTokenAt (significant : isSpace byte = false) :
    (movetextTokenAt byte).Leads (AtStart origin (byte :: rest))
      (Lexed origin previous (byte :: rest)) := by
  unfold Scan.movetextTokenAt
  split
  · next kind found => exact lexes_delimiter (delimiter?_of_delimiterKind? found)
  · next noDelimiter =>
    split
    · next line =>
      rw [line]
      exact lexes_lineComment
    · next noLine =>
      split
      · next code =>
        rw [code]
        exact lexes_code
      · next noCode =>
        split
        · next mark => exact lexes_marks mark
        · next noMark =>
          split
          · next star =>
            rw [star]
            exact (wrote_take true).bind fun _ => lexes_terminate .unknown rfl
          · next noStar =>
            split
            · next single =>
              rw [single]
              exact lexes_dots
            · next noDot =>
              split
              · next digit => exact lexes_digitToken digit
              · next letter =>
                split
                · exact (wrote_take true).bind fun _ => lexes_pure rfl rfl trivial
                · next stray =>
                  exact lexes_moveToken
                    (isDelimiter_eq_false significant noDelimiter noLine noCode noStar noDot stray)
                    (Bool.eq_false_iff.mpr letter) (not_or.mp noMark)

/-- A value that no quotes enclose comes behind another token than an opening quote. -/
theorem lexes_headerTokenAt (significant : isSpace byte = false)
    (bare : previous ≠ .valueBegin) :
    (headerTokenAt byte).Leads (AtStart origin (byte :: rest))
      (Lexed origin previous (byte :: rest)) := by
  refine .bind_look fun kind => ?_
  split
  · next opens =>
    rw [opens]
    exact lexes_delimiter rfl
  · next noOpening =>
    split
    · next closes =>
      rw [closes]
      have unsettled : (Scan.change ({ · with unsettled := true })).Leads
          (Wrote origin [closeBracket] [] rest) fun _ => Wrote origin [closeBracket] [] rest :=
        .change fun lexer wrote => { wrote with }
      exact (wrote_take false).bind fun _ => unsettled.bind fun _ =>
        lexes_pure rfl ⟨rfl, rfl⟩ trivial
    · next noClosing =>
      split
      · next quotes =>
        rw [quotes]
        split
        · exact lexes_delimiter rfl
        · exact lexes_delimiter rfl
      · next noQuote =>
        refine (lexes_run ?_).bind fun _ => ?_
        · simp [significant, noOpening, noClosing, noQuote]
        · split
          · exact lexes_pure (cons_takeWhile_append_dropWhile _) rfl trivial
          · exact lexes_pure (cons_takeWhile_append_dropWhile _) rfl
              ⟨List.cons_ne_nil _ _, fun quoted => absurd quoted bare⟩

end Scan

end Scoresheet
