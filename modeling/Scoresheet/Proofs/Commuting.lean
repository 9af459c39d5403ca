/-
This file shows that the escapes of a header value can be replaced before its bytes are decoded or
afterwards, in its characters. The bytes of an escape are ASCII, and wherever a text is read such a
byte stands for itself: no other character and no ill-formed part goes on with it. So what stands in
front of an escape ends there as it ends in front of the byte that is left of the escape, and
replacing neither joins two parts nor splits one.
-/

import Scoresheet.Proofs.Characters
import Scoresheet.Proofs.Unescaping

namespace Scoresheet

open String (utf8EncodeChar)
open Ascii

namespace HeaderPair

/-! ### Escapes in texts of any kind -/

section Replacing

variable {α β : Type} {opens closes : α → Bool} {list : List α}

/-- What is read from left to right with its escapes replaced. An escape is an entry that opens one
and one behind it that closes it; the latter is kept. -/
def replaceEscapes (opens closes : α → Bool) : List α → List α
  | [] => []
  | [entry] => [entry]
  | first :: second :: rest =>
    if opens first ∧ closes second then second :: replaceEscapes opens closes rest
    else first :: replaceEscapes opens closes (second :: rest)

/-- It does not matter what the entries are as long as the escapes are the same. -/
theorem map_replaceEscapes {mapOpens mapCloses : β → Bool} {map : α → β}
    (sameOpens : ∀ entry, mapOpens (map entry) = opens entry)
    (sameCloses : ∀ entry, mapCloses (map entry) = closes entry) :
    (replaceEscapes opens closes list).map map =
      replaceEscapes mapOpens mapCloses (list.map map) := by
  fun_induction replaceEscapes opens closes list with
  | case1 => rfl
  | case2 => rfl
  | case3 first second rest escape inductionHypothesis =>
    rw [List.map_cons, List.map_cons, List.map_cons, replaceEscapes, sameOpens, sameCloses,
      if_pos escape, inductionHypothesis]
  | case4 first second rest plain inductionHypothesis =>
    rw [List.map_cons, List.map_cons, List.map_cons, replaceEscapes, sameOpens, sameCloses,
      if_neg plain, inductionHypothesis, List.map_cons]

/-- Only what opens an escape is left out. -/
theorem mem_replaceEscapes {entry : α} (member : entry ∈ list) (kept : opens entry = false) :
    entry ∈ replaceEscapes opens closes list := by
  fun_induction replaceEscapes opens closes list with
  | case1 => exact member
  | case2 => exact member
  | case3 first second rest escape inductionHypothesis =>
    rcases List.mem_cons.mp member with rfl | later
    · exact absurd escape.1 (kept ▸ Bool.false_ne_true)
    · rcases List.mem_cons.mp later with rfl | behind
      · exact List.mem_cons_self
      · exact List.mem_cons_of_mem _ (inductionHypothesis behind)
  | case4 first second rest plain inductionHypothesis =>
    rcases List.mem_cons.mp member with rfl | later
    · exact List.mem_cons_self
    · exact List.mem_cons_of_mem _ (inductionHypothesis later)

end Replacing

/-- Whether a character behind a backslash makes an escape with it. -/
def isEscapableChar (char : Char) : Bool := char == '\\' || char == '"'

/-- The string with its escapes replaced. -/
def unescapeText (text : String) : String :=
  String.ofList (replaceEscapes (· == '\\') isEscapableChar text.toList)

/-- The reading of a text with its escapes replaced. No ill-formed part belongs to one. -/
def unescapeShown : List (Option Char) → List (Option Char) :=
  replaceEscapes (· == some '\\') (·.any isEscapableChar)

/-! ### Escapes in bytes -/

variable {front rest : Bytes} {value : Char}

/-- A part without a backslash is kept. -/
theorem unescape_append (plain : backslash ∉ front) :
    unescape (front ++ rest) = front ++ unescape rest := by
  induction front with
  | nil => rfl
  | cons byte front inductionHypothesis =>
    obtain ⟨other, later⟩ := not_or.mp fun either => plain (List.mem_cons.mpr either)
    rw [List.cons_append, List.cons_append, ← inductionHypothesis later]
    cases whole : front ++ rest with
    | nil => rfl
    | cons next whole => rw [unescape, if_neg fun escape => other escape.1.symm]

/-- So is a backslash with nothing behind it that makes an escape. -/
theorem unescape_backslash (plain : ∀ next ∈ rest.head?, isEscapable next = false) :
    unescape (backslash :: rest) = backslash :: unescape rest := by
  cases rest with
  | nil => rfl
  | cons next rest =>
    have none := plain next rfl
    rw [unescape, if_neg fun escape => Bool.false_ne_true (none ▸ escape.2)]

/-- Replacing begins with the same byte, or with the one of an escape. -/
theorem head?_unescape {next : UInt8} (comes : next ∈ (unescape rest).head?) :
    next ∈ rest.head? ∨ isEscapable next = true := by
  revert comes
  fun_cases unescape rest with
  | case1 => exact .inl
  | case2 => exact .inl
  | case3 first second rest escape =>
    intro comes
    obtain rfl : second = next := Option.some.inj comes
    exact .inr escape.2
  | case4 => exact .inl

theorem isEscapable_iff {byte : UInt8} :
    isEscapable byte = true ↔ byte = backslash ∨ byte = quote := by
  unfold isEscapable
  simp

/-- The bytes that make an escape are those of the characters that do. -/
theorem exists_utf8EncodeChar_of_isEscapable {byte : UInt8} (escapable : isEscapable byte = true) :
    ∃ value, utf8EncodeChar value = [byte] ∧ isEscapableChar value = true := by
  rcases isEscapable_iff.mp escapable with rfl | rfl
  · exact ⟨'\\', rfl, rfl⟩
  · exact ⟨'"', rfl, rfl⟩

theorem exists_isEscapable_of_utf8EncodeChar (escapable : isEscapableChar value = true) :
    ∃ byte, utf8EncodeChar value = [byte] ∧ isEscapable byte = true := by
  unfold isEscapableChar at escapable
  simp only [Bool.or_eq_true, beq_iff_eq] at escapable
  rcases escapable with rfl | rfl
  · exact ⟨backslash, rfl, rfl⟩
  · exact ⟨quote, rfl, rfl⟩

end HeaderPair

namespace Utf8

open HeaderPair

variable {text part rest : Bytes} {value : Char} {entry : Option Char}
  {shown after : List (Option Char)}

/-! ### Escapes in what is read -/

/-- No ill-formed part holds a backslash. -/
theorem IsMalformed.backslash_not_mem (illFormed : IsMalformed part rest) : backslash ∉ part := by
  intro member
  have alone : part = [backslash] := by
    rcases illFormed.begins with single | begins
    · obtain ⟨byte, rfl⟩ := List.length_eq_one_iff.mp single
      rw [List.mem_singleton.mp member]
    · exact eq_of_mem_begins begins member (by decide)
  exact illFormed.incomplete '\\' (alone ▸ rfl)

/-- Behind an ill-formed part escapes can be replaced. -/
theorem IsMalformed.unescape (illFormed : IsMalformed part rest) :
    IsMalformed part (unescape rest) := by
  refine ⟨illFormed.nonempty, illFormed.incomplete, illFormed.begins, fun next comes begins => ?_⟩
  rcases head?_unescape comes with same | escapable
  · exact illFormed.longest next same begins
  · have ascii : next < 0x80 := by
      rcases isEscapable_iff.mp escapable with rfl | rfl <;> decide
    have alone := eq_of_mem_begins begins (List.mem_append_right part List.mem_cons_self) ascii
    exact illFormed.nonempty (List.append_left_eq_self.mp alone)

theorem backslash_not_mem_utf8EncodeChar (other : value ≠ '\\') :
    backslash ∉ utf8EncodeChar value := by
  intro member
  have alone := utf8EncodeChar_of_mem member (by decide)
  have encoded : utf8EncodeChar '\\' = [backslash] := rfl
  exact other (eq_of_isPrefix_utf8EncodeChar (alone.trans encoded.symm ▸ List.prefix_refl _))

/-- What is read at a character is that character. -/
theorem Reads.head?_eq (reads : Reads (utf8EncodeChar value ++ rest) shown) :
    shown.head? = some (some value) := by
  rw [reads.unique (.char value (reads_piecesFrom rest).1)]
  rfl

/-- Behind what opens no escape the escapes are replaced in the rest. -/
theorem Reads.unescape_cons (reads : Reads text (entry :: shown))
    (plain : entry = some '\\' → ∀ next ∈ shown.head?, next.any isEscapableChar = false)
    (later : ∀ rest, Reads rest shown → Reads (unescape rest) after) :
    Reads (unescape text) (entry :: after) := by
  cases reads with
  | @char value rest _ read =>
    by_cases isBackslash : value = '\\'
    · subst isBackslash
      have none : ∀ next ∈ rest.head?, isEscapable next = false := by
        intro next comes
        refine Bool.eq_false_iff.mpr fun escapable => ?_
        obtain ⟨value, encoded, closes⟩ := exists_utf8EncodeChar_of_isEscapable escapable
        obtain ⟨more, rfl⟩ := List.head?_eq_some_iff.mp comes
        have shows := @Reads.head?_eq more value shown (encoded ▸ read)
        exact Bool.false_ne_true ((plain rfl _ shows).symm.trans closes)
      have kept : unescape (utf8EncodeChar '\\' ++ rest) = utf8EncodeChar '\\' ++ unescape rest :=
        unescape_backslash none
      rw [kept]
      exact .char '\\' (later rest read)
    · rw [unescape_append (backslash_not_mem_utf8EncodeChar isBackslash)]
      exact .char value (later rest read)
  | malformed illFormed read =>
    rw [unescape_append illFormed.backslash_not_mem]
    exact .malformed illFormed.unescape (later _ read)

/-- Replacing the escapes of a text replaces those of its reading. -/
theorem Reads.unescape (reads : Reads text shown) :
    Reads (HeaderPair.unescape text) (unescapeShown shown) := by
  unfold unescapeShown
  fun_induction replaceEscapes (· == some '\\') (·.any isEscapableChar) shown generalizing text with
  | case1 =>
    cases reads
    exact .nothing
  | case2 entry =>
    refine reads.unescape_cons (fun _ next comes => by cases comes) fun rest read => ?_
    cases read
    exact .nothing
  | case3 first second rest escape inductionHypothesis =>
    obtain ⟨opens, closes⟩ := escape
    obtain rfl := beq_iff_eq.mp opens
    cases reads with
    | char _ read =>
      cases read with
      | malformed => exact absurd closes Bool.false_ne_true
      | @char value rest _ read =>
        obtain ⟨byte, encoded, escapable⟩ := exists_isEscapable_of_utf8EncodeChar closes
        have replaced :
            HeaderPair.unescape (utf8EncodeChar '\\' ++ (utf8EncodeChar value ++ rest)) =
              utf8EncodeChar value ++ HeaderPair.unescape rest := by
          rw [encoded]
          exact if_pos ⟨rfl, escapable⟩
        rw [replaced]
        exact .char value (inductionHypothesis read)
  | case4 first second rest plain inductionHypothesis =>
    refine reads.unescape_cons (fun opens next comes => ?_) fun _ read => inductionHypothesis read
    obtain rfl : second = next := Option.some.inj comes
    exact Bool.eq_false_iff.mpr fun closes => plain ⟨beq_iff_eq.mpr opens, closes⟩

end Utf8

namespace HeaderPair

variable {shown : List (Option Char)}

/-! ### Strings -/

theorem unescapeShown_map_some (raw : String) :
    unescapeShown (raw.toList.map some) = (unescapeText raw).toList.map some := by
  unfold unescapeShown unescapeText
  rw [String.toList_ofList]
  exact (map_replaceEscapes (fun _ => rfl) fun _ => rfl).symm

/-- The replacement of an ill-formed part belongs to no escape. -/
theorem ofList_unescapeShown (shown : List (Option Char)) :
    String.ofList ((unescapeShown shown).map (·.getD Utf8.replacement)) =
      unescapeText (String.ofList (shown.map (·.getD Utf8.replacement))) := by
  unfold unescapeShown unescapeText
  rw [String.toList_ofList]
  refine congrArg String.ofList (map_replaceEscapes (fun entry => ?_) fun entry => ?_)
  · cases entry <;> rfl
  · cases entry <;> rfl

/-- What has no ill-formed part is the reading of a string. -/
theorem exists_map_some (whole : none ∉ shown) : ∃ raw : String, raw.toList.map some = shown := by
  refine ⟨String.ofList (shown.map (·.getD Utf8.replacement)), ?_⟩
  rw [String.toList_ofList, List.map_map]
  refine (List.map_congr_left fun entry member => ?_).trans (List.map_id shown)
  cases entry with
  | none => exact absurd member whole
  | some value => rfl

/-- Replacing leaves no ill-formed part out. -/
theorem none_not_mem_of_unescapeShown {decoded : String}
    (replaced : unescapeShown shown = decoded.toList.map some) : none ∉ shown := by
  intro member
  have kept : none ∈ unescapeShown shown := mem_replaceEscapes member rfl
  rw [replaced] at kept
  obtain ⟨value, -, isSome⟩ := List.mem_map.mp kept
  cases isSome

theorem decodeUtf8_eq_ok_iff {pair : HeaderPair} {decoded : String} :
    pair.decodeUtf8 = .ok decoded ↔
      ∃ raw, Bytes.ofString raw = pair.value ∧ unescapeText raw = decoded := by
  unfold decodeUtf8
  rw [decode_eq_unescape, Utf8.decode_eq_ok_iff, ← Utf8.reads_map_some_toList_iff]
  constructor
  · intro readsDecoded
    obtain ⟨shown, reads⟩ := Utf8.exists_reads pair.value
    have replaced := reads.unescape.unique readsDecoded
    obtain ⟨raw, rfl⟩ := exists_map_some (none_not_mem_of_unescapeShown replaced)
    refine ⟨raw, Utf8.reads_map_some_toList_iff.mp reads, ?_⟩
    rw [unescapeShown_map_some] at replaced
    exact String.toList_inj.mp ((List.map_inj_right fun _ _ => Option.some.inj).mp replaced)
  · rintro ⟨raw, encoded, rfl⟩
    rw [← unescapeShown_map_some]
    exact (Utf8.reads_map_some_toList_iff.mpr encoded).unescape

theorem decodeLossy_eq (pair : HeaderPair) :
    pair.decodeLossy = unescapeText (Utf8.decodeLossy pair.value) := by
  obtain ⟨shown, reads⟩ := Utf8.exists_reads pair.value
  unfold decodeLossy
  rw [decode_eq_unescape, Utf8.decodeLossy_of_reads reads.unescape, ofList_unescapeShown,
    Utf8.decodeLossy_of_reads reads]

/-- Replacing the escapes of a header value and decoding it commute. Decoding succeeds exactly if
the value encodes a string as it is written, and gives that string with its escapes replaced. Lossy
decoding gives what is shown of the value as it is written, with its escapes replaced; shown are the
characters of the only reading the value has, with one replacement for each ill-formed part. Where
decoding succeeds the two agree. -/
theorem unescaping_commutes (pair : HeaderPair) :
    (∀ decoded, pair.decodeUtf8 = .ok decoded ↔
        ∃ raw, Bytes.ofString raw = pair.value ∧ unescapeText raw = decoded) ∧
      pair.decodeLossy = unescapeText (Utf8.decodeLossy pair.value) ∧
      (∃ shown, (∀ other, Utf8.Reads pair.value other ↔ other = shown) ∧
        Utf8.decodeLossy pair.value = String.ofList (shown.map (·.getD Utf8.replacement))) ∧
      ∀ decoded, pair.decodeUtf8 = .ok decoded → pair.decodeLossy = decoded := by
  obtain ⟨shown, reads⟩ := Utf8.exists_reads pair.value
  refine ⟨fun _ => decodeUtf8_eq_ok_iff, decodeLossy_eq pair,
    ⟨shown, fun other => ⟨fun also => also.unique reads, fun same => same ▸ reads⟩,
      Utf8.decodeLossy_of_reads reads⟩, fun decoded decodes => ?_⟩
  obtain ⟨raw, encoded, rfl⟩ := decodeUtf8_eq_ok_iff.mp decodes
  rw [decodeLossy_eq, Utf8.decodeLossy_of_encoded encoded]

/-- An escape between the first byte of a character and one that would have gone on in it. -/
example : (HeaderPair.mk [] [0xC3, backslash, quote, 0xA9]).decodeLossy = "\uFFFD\"\uFFFD" := by
  decide +kernel

end HeaderPair

end Scoresheet
