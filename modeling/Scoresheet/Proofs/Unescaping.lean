/-
This file shows that decoding a header value is reading it from left to right. Decoding goes through
all backslashes of the value, also those that are the second byte of an escape, and copies in runs;
reading takes one byte at a time, or the two of an escape. Behind each escape the two agree again,
since the backslashes inside it are not looked at twice.
-/

import Scoresheet.HeaderPair

namespace Scoresheet.HeaderPair

open Ascii

/-- The text with its escapes replaced, read from left to right. -/
def unescape : Bytes → Bytes
  | [] => []
  | [byte] => [byte]
  | first :: second :: rest =>
    if first = backslash ∧ isEscapable second then second :: unescape rest
    else first :: unescape (second :: rest)

/-- The number of escapes that are replaced when the text is read from left to right. -/
def replacements : Bytes → Nat
  | [] => 0
  | [_] => 0
  | first :: second :: rest =>
    if first = backslash ∧ isEscapable second then replacements rest + 1
    else replacements (second :: rest)

/-- Each replacement takes one byte away. -/
theorem length_unescape (text : Bytes) :
    (unescape text).length + replacements text = text.length := by
  fun_induction unescape text with
  | case1 => rfl
  | case2 => rfl
  | case3 first second rest escape inductionHypothesis =>
    rw [replacements, if_pos escape, List.length_cons, List.length_cons, List.length_cons]
    omega
  | case4 first second rest plain inductionHypothesis =>
    rw [replacements, if_neg plain, List.length_cons, List.length_cons]
    omega

namespace Decoding

/-- Where the backslashes of a text are that begins at an offset of the value. -/
def backslashesFrom (offset : Nat) (text : Bytes) : List Nat :=
  ((text.zipIdx offset).filter (·.1 == backslash)).map Prod.snd

/-- Looks at the backslashes of what is still to be read, behind the part that was read already. -/
def readOn (front rest : Bytes) (decoding : Decoding) : Decoding :=
  (backslashesFrom front.length rest).foldl (look (front ++ rest).toArray) decoding

variable {front rest : Bytes} {decoding : Decoding} {first second byte : UInt8}

/-! ### One backslash -/

theorem backslashesFrom_cons (offset : Nat) (byte : UInt8) (rest : Bytes) :
    backslashesFrom offset (byte :: rest) =
      if byte = backslash then offset :: backslashesFrom (offset + 1) rest
      else backslashesFrom (offset + 1) rest := by
  unfold backslashesFrom
  rw [List.zipIdx_cons, List.filter_cons]
  simp only [beq_iff_eq]
  split <;> rfl

/-- Only backslashes are looked at. -/
theorem readOn_cons (front : Bytes) (byte : UInt8) (rest : Bytes) (decoding : Decoding) :
    readOn front (byte :: rest) decoding =
      readOn (front ++ [byte]) rest
        (if byte = backslash then look (front ++ byte :: rest).toArray decoding front.length
        else decoding) := by
  have whole : front ++ [byte] ++ rest = front ++ byte :: rest := List.append_assoc _ _ _
  unfold readOn
  rw [backslashesFrom_cons, whole, List.length_append, List.length_singleton]
  split <;> rfl

/-- The byte behind a backslash is the next one of the rest. -/
theorem getElem?_behind (front : Bytes) (byte : UInt8) (rest : Bytes) :
    (front ++ byte :: rest).toArray[front.length + 1]? = rest.head? := by
  simp [List.getElem?_append_right, List.head?_eq_getElem?]

/-- At the end of the value there is nothing to make an escape with. -/
theorem look_last (front : Bytes) (byte : UInt8) (decoding : Decoding) :
    look (front ++ [byte]).toArray decoding front.length = decoding := by
  rw [look, getElem?_behind]
  rfl

theorem look_next (front : Bytes) (byte next : UInt8) (rest : Bytes) (decoding : Decoding) :
    look (front ++ byte :: next :: rest).toArray decoding front.length =
      if decoding.escapedUntil ≤ front.length ∧ isEscapable next then
        ⟨decoding.copied ++ (front.drop decoding.head).toArray, front.length + 1, front.length + 2⟩
      else decoding := by
  have run : (front ++ byte :: next :: rest).toArray.extract decoding.head front.length =
      (front.drop decoding.head).toArray := by
    rw [List.extract_toArray, List.extract_eq_take_drop, ← List.drop_take, List.take_left]
  rw [look, getElem?_behind, run]
  rfl

/-- A last byte makes no escape. -/
theorem readOn_singleton (front : Bytes) (byte : UInt8) (decoding : Decoding) :
    readOn front [byte] decoding = decoding := by
  rw [readOn_cons, look_last, ite_self]
  rfl

/-- Two bytes that make no escape. -/
theorem readOn_of_plain (plain : ¬ (first = backslash ∧ isEscapable second = true)) :
    readOn front (first :: second :: rest) decoding =
      readOn (front ++ [first]) (second :: rest) decoding := by
  rw [readOn_cons]
  split
  · next escape => rw [look_next, if_neg fun both => plain ⟨escape, both.2⟩]
  · rfl

/-- The second byte of an escape is passed, even if it is a backslash. -/
theorem readOn_inside (inside : front.length < decoding.escapedUntil) :
    readOn front (byte :: rest) decoding = readOn (front ++ [byte]) rest decoding := by
  have kept : look (front ++ byte :: rest).toArray decoding front.length = decoding := by
    cases rest with
    | nil => exact look_last front byte decoding
    | cons next rest => rw [look_next, if_neg fun both => Nat.not_le_of_lt inside both.1]
  rw [readOn_cons, kept, ite_self]

/-- At an escape what comes before it is copied, and its second byte comes next. -/
theorem readOn_of_escape (escapable : isEscapable second = true)
    (behind : decoding.escapedUntil ≤ front.length) :
    readOn front (backslash :: second :: rest) decoding =
      readOn (front ++ [backslash, second]) rest
        ⟨decoding.copied ++ (front.drop decoding.head).toArray, front.length + 1,
          front.length + 2⟩ := by
  rw [readOn_cons, if_pos rfl, look_next, if_pos ⟨behind, escapable⟩, readOn_inside (by simp),
    List.append_assoc]
  rfl

/-! ### Reading on -/

theorem finish_toArray (text : Bytes) (decoding : Decoding) :
    decoding.finish text.toArray = decoding.copied.toList ++ text.drop decoding.head := by
  have whole : (text.drop decoding.head).length ≤ text.toArray.size - decoding.head := by simp
  rw [finish, Array.toList_append, Array.toList_extract, List.extract_eq_take_drop,
    List.take_of_length_le whole]

/-- What was copied and what is still to be copied are the value with the escapes replaced. -/
theorem finish_readOn (copying : decoding.head ≤ front.length)
    (behind : decoding.escapedUntil ≤ front.length) :
    (readOn front rest decoding).finish (front ++ rest).toArray =
      decoding.copied.toList ++ front.drop decoding.head ++ unescape rest := by
  have unread (rest : Bytes) {front : Bytes} {decoding : Decoding}
      (copying : decoding.head ≤ front.length) :
      decoding.finish (front ++ rest).toArray =
        decoding.copied.toList ++ front.drop decoding.head ++ rest := by
    rw [finish_toArray, List.drop_append_of_le_length copying, List.append_assoc]
  fun_induction unescape rest generalizing front decoding with
  | case1 => exact unread [] copying
  | case2 byte =>
    rw [readOn_singleton]
    exact unread [byte] copying
  | case3 first second rest escape inductionHypothesis =>
    rw [escape.1, readOn_of_escape escape.2 behind]
    have later := @inductionHypothesis (front ++ [backslash, second])
      ⟨decoding.copied ++ (front.drop decoding.head).toArray, front.length + 1, front.length + 2⟩
      (by simp) (by simp)
    simpa using later
  | case4 first second rest plain inductionHypothesis =>
    rw [readOn_of_plain plain]
    have later := @inductionHypothesis (front ++ [first]) decoding
      (by simp; omega) (by simp; omega)
    simpa [List.drop_append_of_le_length copying] using later

/-- The copy begins where the value does as long as nothing is replaced. -/
theorem head_readOn (behind : decoding.escapedUntil ≤ front.length) :
    (readOn front rest decoding).head = 0 ↔ decoding.head = 0 ∧ replacements rest = 0 := by
  fun_induction replacements rest generalizing front decoding with
  | case1 => exact (and_iff_left rfl).symm
  | case2 byte =>
    rw [readOn_singleton]
    exact (and_iff_left rfl).symm
  | case3 first second rest escape inductionHypothesis =>
    rw [escape.1, readOn_of_escape escape.2 behind, inductionHypothesis (by simp)]
    exact ⟨fun both => absurd both.1 (Nat.succ_ne_zero _),
      fun both => absurd both.2 (Nat.succ_ne_zero _)⟩
  | case4 first second rest plain inductionHypothesis =>
    rw [readOn_of_plain plain, inductionHypothesis (by simp; omega)]

end Decoding

theorem decoding_eq_readOn (pair : HeaderPair) :
    pair.decoding = Decoding.readOn [] pair.value .start := rfl

theorem isPlain_iff (pair : HeaderPair) : pair.isPlain = true ↔ replacements pair.value = 0 := by
  unfold isPlain
  rw [beq_iff_eq, decoding_eq_readOn, Decoding.head_readOn (Nat.le_refl _)]
  exact and_iff_right rfl

/-- A text in which nothing is replaced is its own reading. -/
theorem unescape_of_replacements {text : Bytes} (none : replacements text = 0) :
    unescape text = text := by
  fun_induction unescape text with
  | case1 => rfl
  | case2 => rfl
  | case3 first second rest escape => rw [replacements, if_pos escape] at none; cases none
  | case4 first second rest plain inductionHypothesis =>
    rw [replacements, if_neg plain] at none
    rw [inductionHypothesis none]

theorem decode_eq_unescape (pair : HeaderPair) : pair.decode = unescape pair.value := by
  unfold decode
  split
  · next plain => exact (unescape_of_replacements ((isPlain_iff pair).mp plain)).symm
  · have read := @Decoding.finish_readOn [] pair.value .start (Nat.le_refl 0) (Nat.le_refl 0)
    exact read

/-- Decoding a header value is reading it from left to right: a backslash in front of a backslash or
a quote is left out, reading goes on behind the two, and every other byte is kept. The value as it is
written is used exactly if nothing is replaced; each replacement takes one byte away. -/
theorem decode_reads_through (pair : HeaderPair) :
    pair.decode = unescape pair.value ∧
      (pair.isPlain = true ↔ replacements pair.value = 0) ∧
      pair.decode.length + replacements pair.value = pair.value.length :=
  ⟨decode_eq_unescape pair, isPlain_iff pair, by rw [decode_eq_unescape, length_unescape]⟩

/-- Three backslashes in front of a quote and one at the end. -/
example : (HeaderPair.mk [] [backslash, backslash, backslash, quote, backslash]).decode =
    [backslash, quote, backslash] := by decide

end Scoresheet.HeaderPair
