/-
This file shows that the tokens account for every byte of the input and know where they are. Where
something stands is told from the text alone: the line by the line feeds before it, the column by
the distance to the last of them, or on the first line to the end of a byte order mark. The lexer
never looks back; it counts lines and columns along with the bytes it passes, and what it has counted
always agrees with the text.

The bytes between one token and the next are described without the lexer as well: white space, whole
lines that begin with a percent sign, and a byte order mark at the very beginning. That the sign
escapes a line only where a line begins is known to the lexer by its counting, so the two halves of
this file lean on each other.
-/

import Scoresheet.Proofs.Searching

namespace Scoresheet

open Ascii

/-! ### Places in a text -/

/-- The bytes of the line that were read before the offset, latest first. -/
def Bytes.lineBefore (text : Bytes) (offset : Nat) : Bytes :=
  (text.take offset).reverse.takeWhile (· != lineFeed)

/-- Where the line of the offset begins: behind the last line feed before it or, on the first line,
at the beginning of the text or behind the byte order mark there. -/
def Bytes.lineBegin (text : Bytes) (offset : Nat) : Nat :=
  if lineFeed ∈ text.take offset then offset - (text.lineBefore offset).length
  else if byteOrderMark.isPrefixOf text then byteOrderMark.length
  else 0

/-- The line and the column of an offset in a text. -/
def Position.within (text : Bytes) (offset : Nat) : Position where
  line := 1 + (text.take offset).count lineFeed
  column := offset - text.lineBegin offset
  offset := offset

/-- The place was counted as the text has it. -/
structure Place.IsAt (text : Bytes) (place : Place) : Prop where
  inside : place.offset ≤ text.length
  line : place.line = 1 + (text.take place.offset).count lineFeed
  lineStart : place.lineStart = text.lineBegin place.offset

/-- What may stand at an offset of a text between two tokens: white space, lines that begin with a
percent sign where a line begins, and at the very beginning a byte order mark. -/
inductive Gap (text : Bytes) : Nat → Bytes → Prop where
  | none {offset : Nat} : Gap text offset []
  | mark {rest : Bytes} (behind : Gap text byteOrderMark.length rest) :
      Gap text 0 (byteOrderMark ++ rest)
  | space {offset : Nat} {byte : UInt8} {rest : Bytes} (blank : isSpace byte = true)
      (behind : Gap text (offset + 1) rest) : Gap text offset (byte :: rest)
  | escape {offset : Nat} {line rest : Bytes} (start : text.lineBegin offset = offset)
      (inLine : lineFeed ∉ line) (behind : Gap text (offset + (line.length + 2)) rest) :
      Gap text offset (percent :: line ++ lineFeed :: rest)

/-- From one offset of the text to another there are the tokens and nothing but gaps before them.
Each token begins where it says, and takes the bytes its kind and its span are written with. -/
inductive Accounts (text : Bytes) : Nat → List Token → Nat → Prop where
  | none {offset : Nat} : Accounts text offset [] offset
  | next {offset last : Nat} {token : Token} {tokens : List Token} {gap written : Bytes}
      (passed : gap ++ written <+: text.drop offset) (between : Gap text offset gap)
      (position : token.position = .within text (offset + gap.length))
      (writes : token.kind.Writes token.text written)
      (later : Accounts text (offset + gap.length + written.length) tokens last) :
      Accounts text offset (token :: tokens) last

variable {text run rest : Bytes} {offset : Nat} {place : Place} {byte : UInt8}

/-! ### Counting along -/

theorem Bytes.take_succ_of_drop (next : text.drop offset = byte :: rest) :
    text.take (offset + 1) = text.take offset ++ [byte] := by
  rw [List.take_add, next]
  rfl

theorem Bytes.lineBefore_length_le (text : Bytes) (offset : Nat) :
    (text.lineBefore offset).length ≤ offset := by
  have shorter := (List.takeWhile_prefix (· != lineFeed) (l := (text.take offset).reverse)).length_le
  rw [List.length_reverse, List.length_take] at shorter
  exact Nat.le_trans shorter (Nat.min_le_left _ _)

theorem Bytes.lineBefore_next (next : text.drop offset = byte :: rest) :
    text.lineBefore (offset + 1) =
      if byte = lineFeed then [] else byte :: text.lineBefore offset := by
  unfold lineBefore
  rw [take_succ_of_drop next, List.reverse_append, List.reverse_singleton, List.singleton_append]
  split
  · next feed => exact List.takeWhile_cons_of_neg (by simp [feed])
  · next onward => exact List.takeWhile_cons_of_pos (by simpa using onward)

/-- A line begins behind each line feed and goes on behind every other byte. -/
theorem Bytes.lineBegin_next (next : text.drop offset = byte :: rest) :
    text.lineBegin (offset + 1) =
      if byte = lineFeed then offset + 1 else text.lineBegin offset := by
  have shorter := text.lineBefore_length_le offset
  have before : lineFeed ∈ text.take (offset + 1) ↔
      lineFeed ∈ text.take offset ∨ byte = lineFeed := by
    rw [take_succ_of_drop next, List.mem_append, List.mem_singleton, eq_comm]
  unfold lineBegin
  simp only [before, lineBefore_next next]
  by_cases feed : byte = lineFeed
  · rw [if_pos (.inr feed), if_pos feed, if_pos feed]
    rfl
  · rw [if_neg feed, if_neg feed, List.length_cons]
    simp only [feed, or_false]
    split
    · omega
    · rfl

namespace Place

theorem IsAt.next (here : place.IsAt text) (next : text.drop place.offset = byte :: rest) :
    (place.next byte).IsAt text := by
  have offset := place.offset_next byte
  refine ⟨?_, ?_, ?_⟩
  · have more := congrArg List.length next
    rw [List.length_drop, List.length_cons] at more
    omega
  · rw [offset, line_next, here.line, Bytes.take_succ_of_drop next, List.count_append,
      Nat.add_assoc]
  · rw [offset, Bytes.lineBegin_next next, ← here.lineStart]
    unfold Place.next
    split <;> rfl

theorem drop_offset_next (next : text.drop place.offset = byte :: rest) :
    text.drop (place.next byte).offset = rest := by
  rw [offset_next, ← List.drop_drop, next]
  rfl

theorem IsAt.pass (here : place.IsAt text) (next : text.drop place.offset = run ++ rest) :
    (place.pass run).IsAt text ∧ text.drop (place.pass run).offset = rest := by
  induction run generalizing place with
  | nil => exact ⟨here, next⟩
  | cons byte run inductionHypothesis =>
    exact inductionHypothesis (here.next next) (drop_offset_next next)

theorem IsAt.position (here : place.IsAt text) :
    place.position = .within text place.offset := by
  unfold Place.position Position.within
  rw [here.line, here.lineStart]

/-- Without a byte order mark the text begins where counting does. -/
theorem isAt_start (unmarked : byteOrderMark.isPrefixOf text = false) : start.IsAt text := by
  refine ⟨Nat.zero_le _, rfl, ?_⟩
  show 0 = text.lineBegin 0
  unfold Bytes.lineBegin
  rw [unmarked]
  rfl

/-- The first line counts from behind the byte order mark. -/
theorem isAt_behindMark (rest : Bytes) :
    IsAt (byteOrderMark ++ rest) ⟨byteOrderMark.length, 1, byteOrderMark.length⟩ := by
  refine ⟨?_, ?_, ?_⟩
  · rw [List.length_append]
    exact Nat.le_add_right _ _
  · rw [List.take_left]
    rfl
  · unfold Bytes.lineBegin
    rw [List.take_left, if_neg (by decide),
      if_pos (List.isPrefixOf_iff_prefix.mpr (List.prefix_append _ _))]

end Place

/-! ### Gaps -/

theorem Gap.append {first second : Bytes} (left : Gap text offset first)
    (right : Gap text (offset + first.length) second) : Gap text offset (first ++ second) := by
  induction left with
  | none => exact right
  | mark _ inductionHypothesis =>
    rw [List.append_assoc]
    refine .mark (inductionHypothesis ?_)
    rwa [List.length_append, Nat.zero_add] at right
  | space blank _ inductionHypothesis =>
    refine .space blank (inductionHypothesis ?_)
    rwa [List.length_cons, Nat.add_comm _ 1, ← Nat.add_assoc] at right
  | @escape offset line rest start inLine _ inductionHypothesis =>
    rw [List.append_assoc]
    refine .escape start inLine (inductionHypothesis ?_)
    have total : offset + (percent :: line ++ lineFeed :: rest).length =
        offset + (line.length + 2) + rest.length := by
      simp only [List.length_append, List.length_cons]
      omega
    rwa [total] at right

/-- The end of an escaped line that goes on at the offset, and a gap behind it. -/
def EscapedGap (text : Bytes) (offset : Nat) (run : Bytes) : Prop :=
  ∃ line gap, run = line ++ lineFeed :: gap ∧ lineFeed ∉ line ∧
    Gap text (offset + (line.length + 1)) gap

theorem EscapedGap.cons (onward : byte ≠ lineFeed) (behind : EscapedGap text (offset + 1) run) :
    EscapedGap text offset (byte :: run) := by
  obtain ⟨line, gap, rfl, inLine, later⟩ := behind
  refine ⟨byte :: line, gap, rfl, ?_, ?_⟩
  · simp only [List.mem_cons, not_or]
    exact ⟨onward.symm, inLine⟩
  · rwa [Nat.add_assoc, Nat.add_comm 1] at later

/-- White space that is not the whole rest of the text is a gap. -/
theorem Place.IsAt.gap_blanks {inLine : Bool} {content : Bytes} (here : place.IsAt text)
    (next : text.drop place.offset = content) (stops : blanks inLine place content ≠ content) :
    if inLine then EscapedGap text place.offset (blanks inLine place content)
    else Gap text place.offset (blanks inLine place content) := by
  fun_induction blanks inLine place content with
  | case1 => exact absurd rfl stops
  | case2 place byte rest inductionHypothesis =>
    have later := inductionHypothesis (here.next next) (drop_offset_next next)
      fun same => stops (by rw [same])
    rw [offset_next] at later
    rw [if_pos rfl]
    by_cases feed : byte = lineFeed
    · rw [feed] at later ⊢
      exact ⟨[], _, rfl, List.not_mem_nil, later⟩
    · rw [bne_iff_ne.mpr feed, if_pos rfl] at later
      rw [bne_iff_ne.mpr feed]
      exact later.cons feed
  | case3 place byte rest blank inductionHypothesis =>
    have later := inductionHypothesis (here.next next) (drop_offset_next next)
      fun same => stops (by rw [same])
    rw [offset_next] at later
    exact .space blank later
  | case4 place byte rest _ escape inductionHypothesis =>
    have later := inductionHypothesis (here.next next) (drop_offset_next next)
      fun same => stops (by rw [same])
    rw [offset_next, if_pos rfl] at later
    obtain ⟨line, gap, equal, inLine, behind⟩ := later
    have start : text.lineBegin place.offset = place.offset := by
      rw [← here.lineStart]
      exact (beq_iff_eq.mp escape.2).symm
    rw [if_neg Bool.false_ne_true, equal, escape.1]
    rw [Nat.add_assoc, Nat.add_comm 1] at behind
    exact .escape start inLine behind
  | case5 place byte rest => exact Gap.none

/-! ### The lexer in its text -/

namespace Lexer

variable {lexer before marked origin after : Lexer}

/-- What is still to come for the lexer is the rest of the text, and it has counted right so far. At
the beginning it may still have to pass a byte order mark. -/
structure StandsIn (text : Bytes) (lexer : Lexer) : Prop where
  honest : lexer.source.IsHonest
  content : lexer.source.content = text.drop lexer.place.offset
  place : lexer.place.IsAt text ∨ lexer.place = .start ∧ lexer.unsettled = true

/-- Skipping white space leads over a gap, if anything is behind it. -/
theorem Skips.gap (skips : Skips before origin) (here : before.place.IsAt text)
    (content : before.source.content = text.drop before.place.offset)
    (more : origin.source.content ≠ []) :
    ∃ gap, Gap text before.place.offset gap ∧ origin.place.IsAt text ∧
      origin.place.offset = before.place.offset + gap.length ∧
      before.source.content = gap ++ origin.source.content ∧
      origin.source.content = text.drop origin.place.offset := by
  obtain ⟨gap, blank, passed, place⟩ := skips
  have next := content.symm.trans passed
  obtain ⟨there, rest⟩ := here.pass next
  rw [← place] at there rest
  refine ⟨gap, ?_, there, by rw [place, Place.offset_pass], passed, rest.symm⟩
  rcases blank with rfl | blanks
  · exact .none
  · have stops : Place.blanks false before.place before.source.content ≠ before.source.content := by
      intro whole
      rw [← blanks] at whole
      exact more (List.self_eq_append_right.mp (whole.trans passed))
    rw [blanks]
    exact here.gap_blanks content.symm stops

/-- Behind a byte order mark that was passed at the beginning, the first line begins. -/
theorem StandsIn.behindMark (stands : StandsIn text lexer) (start : lexer.place.offset = 0) :
    { lexer.place.pass byteOrderMark with lineStart := byteOrderMark.length } =
      (⟨byteOrderMark.length, 1, byteOrderMark.length⟩ : Place) := by
  have line : lexer.place.line = 1 := by
    rcases stands.place with here | ⟨begins, _⟩
    · rw [here.line, start]
      rfl
    · rw [begins]
      rfl
  have offset := lexer.place.offset_pass byteOrderMark
  have lines := lexer.place.line_pass byteOrderMark
  rw [start] at offset
  rw [line] at lines
  rw [Place.mk.injEq]
  exact ⟨offset, lines, rfl⟩

/-- The search for a token begins behind a gap. -/
theorem Approaches.gap (approaches : Approaches lexer before) (stands : StandsIn text lexer)
    (more : before.source.content ≠ []) :
    ∃ gap, Gap text lexer.place.offset gap ∧ before.place.IsAt text ∧
      before.place.offset = lexer.place.offset + gap.length ∧
      lexer.source.content = gap ++ before.source.content ∧
      before.source.content = text.drop before.place.offset := by
  cases approaches with
  | settled known content place =>
    have here := stands.place.resolve_right fun start => by
      rw [known] at start
      cases start.2
    rw [← place] at here
    refine ⟨[], .none, here, by rw [place]; rfl, content.symm, ?_⟩
    rw [content, place]
    exact stands.content
  | unmarked unmarked skips =>
    refine skips.gap ?_ stands.content more
    rcases stands.place with here | ⟨start, _⟩
    · exact here
    · have plain := unmarked.resolve_left (not_not_intro (by rw [start]; rfl))
      have content := stands.content
      rw [start] at content ⊢
      rw [content] at plain
      exact Place.isAt_start plain
  | @marked marked _ start content place skips =>
    have whole : text = byteOrderMark ++ marked.source.content := by
      rw [← content, stands.content, start]
      rfl
    have behind := place.trans (stands.behindMark start)
    have here : marked.place.IsAt text := by
      rw [behind, whole]
      exact Place.isAt_behindMark _
    have rest : marked.source.content = text.drop marked.place.offset := by
      rw [behind, whole, List.drop_left]
    obtain ⟨gap, between, there, offset, passed, later⟩ := skips.gap here rest more
    rw [behind] at between offset
    refine ⟨byteOrderMark ++ gap, ?_, there, ?_, ?_, later⟩
    · rw [start]
      exact .mark between
    · rw [offset, start, List.length_append, Nat.zero_add]
    · rw [content, passed, List.append_assoc]

/-- A token that is not the last begins behind a gap and takes what it is written with, and the
lexer is in the same text as before. -/
theorem StandsIn.advance (stands : StandsIn text lexer)
    (success : Scan.advance.run lexer = (.ok (), after)) (more : after.isExhausted = false) :
    StandsIn text after ∧ ∃ gap written, gap ++ written <+: text.drop lexer.place.offset ∧
      Gap text lexer.place.offset gap ∧
      after.start = .within text (lexer.place.offset + gap.length) ∧
      after.kind.Writes after.span written ∧
      after.place.offset = lexer.place.offset + gap.length + written.length := by
  rcases advance_finds stands.honest success with ended | told
  · unfold isExhausted at more
    rw [ended.outside, ended.settled] at more
    cases more
  obtain ⟨before, approaches, origin, skips, begins, some, written, kept, rest, whole, wrote, writes,
    _⟩ := told
  have behind : before.source.content ≠ [] := by
    obtain ⟨gap, _, passed, _⟩ := skips
    rw [passed]
    exact List.append_ne_nil_of_right_ne_nil _ some
  obtain ⟨first, gapFirst, here, offset, passed, content⟩ := approaches.gap stands behind
  obtain ⟨second, gapSecond, there, offset', passed', content'⟩ := skips.gap here content some
  obtain ⟨last, ends⟩ := there.pass (content'.symm.trans whole)
  rw [← wrote.place] at last ends
  rw [offset] at gapSecond offset'
  have gap := gapFirst.append gapSecond
  have position : origin.place.offset = lexer.place.offset + (first ++ second).length := by
    rw [offset', List.length_append, Nat.add_assoc]
  refine ⟨⟨wrote.honest, wrote.content.trans ends.symm, .inl last⟩, first ++ second, written, ?_, gap,
    ?_, ?_, ?_⟩
  · rw [← stands.content, passed, passed', whole]
    exact ⟨rest, by simp only [List.append_assoc]⟩
  · rw [wrote.start, begins, there.position, position]
  · rw [wrote.span]
    exact writes
  · rw [wrote.place, Place.offset_pass, position]

/-! ### Runs of tokens -/

/-- The tokens that are read until the source fails or there are no more of them, at most the given
number, and the lexer at the last of them. -/
def tokens : Nat → Lexer → List Token × Lexer
  | 0, lexer => ([], lexer)
  | count + 1, lexer =>
    match Scan.advance.run lexer with
    | (.ok (), next) =>
      if next.isExhausted then ([], lexer)
      else (next.token :: (tokens count next).1, (tokens count next).2)
    | (.error _, _) => ([], lexer)

theorem StandsIn.tokens (stands : StandsIn text lexer) (count : Nat) :
    Accounts text lexer.place.offset (lexer.tokens count).1 (lexer.tokens count).2.place.offset ∧
      StandsIn text (lexer.tokens count).2 := by
  fun_induction Lexer.tokens count lexer with
  | case1 => exact ⟨.none, stands⟩
  | case2 => exact ⟨.none, stands⟩
  | case3 count lexer next success more inductionHypothesis =>
    obtain ⟨onward, gap, written, passed, between, position, writes, offset⟩ :=
      stands.advance success (Bool.eq_false_iff.mpr more)
    obtain ⟨later, last⟩ := inductionHypothesis onward
    rw [offset] at later
    exact ⟨.next passed between position writes later, last⟩
  | case4 => exact ⟨.none, stands⟩

/-- The tokens of an input account for every byte of it up to the end of the last one. -/
theorem tokens_account {source : Source} (honest : source.IsHonest) (count : Nat) :
    Accounts source.content 0 ((ofSource source).tokens count).1
        ((ofSource source).tokens count).2.place.offset ∧
      ((ofSource source).tokens count).2.source.content =
        source.content.drop ((ofSource source).tokens count).2.place.offset := by
  have stands : StandsIn source.content (ofSource source) := ⟨honest, rfl, .inr ⟨rfl, rfl⟩⟩
  obtain ⟨accounts, last⟩ := stands.tokens count
  exact ⟨accounts, last.content⟩

/-- A byte order mark, an escaped line, a comment and a star, delivered byte by byte. -/
def escaping : Source :=
  .ofDevice ⟨[0xEF, 0xBB, 0xBF, percent, 0x78, lineFeed, openBrace, 0x61, closeBrace, space, star],
    [], .deliver 1⟩

theorem tokens_account_escaping :
    escaping.IsHonest ∧
    ((ofSource escaping).tokens 9).1 = [⟨.commentBegin, [], ⟨2, 0, 6⟩⟩,
      ⟨.comment, [0x61], ⟨2, 1, 7⟩⟩, ⟨.commentEnd, [], ⟨2, 2, 8⟩⟩,
      ⟨.termination, [star], ⟨2, 4, 10⟩⟩] ∧
    Accounts escaping.content 0 ((ofSource escaping).tokens 9).1
        ((ofSource escaping).tokens 9).2.place.offset ∧
      ((ofSource escaping).tokens 9).2.source.content =
        escaping.content.drop ((ofSource escaping).tokens 9).2.place.offset := by
  have honest : escaping.IsHonest := .ofDevice ⟨List.not_mem_nil, nofun⟩
  exact ⟨honest, by decide +kernel, tokens_account honest 9⟩

end Lexer

end Scoresheet
