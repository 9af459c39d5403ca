/-
This file shows that the byte machine reads UTF-8. How characters are encoded is not told here; it
is what strings are made of. A text is read as a sequence of such encodings with ill-formed parts in
between, and it can be read in one way only, since no encoding is the beginning of another one and
an ill-formed part is as long as it can be.

Inside a character the machine knows what its encoding still needs. The bits so far, the number of
bytes owed and the range of the next one say which bytes may follow, and which character they make.
-/

import Scoresheet.Text.Utf8

namespace Scoresheet.Utf8

open String (utf8EncodeChar)

variable {text begun part rest more : Bytes} {value other : Char} {number : Nat} {byte : UInt8}
  {shown : List (Option Char)}

/-! ### The encoding of a character -/

/-- How many bytes of the encoding of a number follow the first one. -/
def followers (number : Nat) : Nat :=
  if number ≤ 0x7F then 0 else if number ≤ 0x7FF then 1 else if number ≤ 0xFFFF then 2 else 3

/-- The bits of a first byte that tell how many follow. -/
def mark : Nat → Nat
  | 0 => 0
  | 1 => 0xC0
  | 2 => 0xE0
  | _ => 0xF0

/-- What is left of a number without so many groups of six bits. -/
def leading : Nat → Nat → Nat
  | 0, number => number
  | count + 1, number => leading count number / 64

/-- The byte of the encoding of a number with so many bytes behind it. It has six of its bits. -/
def follower (count number : Nat) : Nat := leading count number % 64 + 0x80

/-- The last bytes of the encoding of a number. -/
def tail : Nat → Nat → List Nat
  | 0, _ => []
  | count + 1, number => follower count number :: tail count number

/-- The first byte of the encoding of a number. -/
def first (number : Nat) : Nat := mark (followers number) + leading (followers number) number

theorem followers_eq_one : followers number = 1 ↔ 0x7F < number ∧ number ≤ 0x7FF := by
  unfold followers
  grind

theorem followers_eq_two : followers number = 2 ↔ 0x7FF < number ∧ number ≤ 0xFFFF := by
  unfold followers
  grind

theorem followers_eq_three : followers number = 3 ↔ 0xFFFF < number := by
  unfold followers
  grind

theorem isValidChar_toNat (value : Char) : value.toNat.isValidChar := value.valid

theorem lt_of_isValidChar (valid : number.isValidChar) : number < 0x110000 := by
  rcases valid with low | ⟨-, high⟩
  · omega
  · exact high

theorem map_toNat_utf8EncodeChar (value : Char) :
    (utf8EncodeChar value).map UInt8.toNat =
      first value.toNat :: tail (followers value.toNat) value.toNat := by
  have bound : value.toNat < 0x110000 := lt_of_isValidChar (isValidChar_toNat value)
  have number : value.val.toNat = value.toNat := rfl
  unfold utf8EncodeChar first followers
  rw [number]
  dsimp only
  repeat' split
  all_goals
    simp only [mark, tail, follower, leading, List.map_cons, List.map_nil, UInt8.toNat_ofNat',
      List.cons.injEq, and_true]
    omega

theorem utf8EncodeChar_eq_cons_iff :
    utf8EncodeChar value = byte :: rest ↔
      first value.toNat = byte.toNat ∧
        rest.map UInt8.toNat = tail (followers value.toNat) value.toNat := by
  rw [← List.map_inj_right fun _ _ => UInt8.toNat_inj.mp, map_toNat_utf8EncodeChar, List.map_cons,
    List.cons.injEq, eq_comm (a := tail _ _)]

/-- The characters are the numbers in their range. -/
theorem exists_utf8EncodeChar_eq_cons_iff :
    (∃ value : Char, value.toNat = number ∧ utf8EncodeChar value = byte :: rest) ↔
      number.isValidChar ∧ first number = byte.toNat ∧
        rest.map UInt8.toNat = tail (followers number) number := by
  constructor
  · rintro ⟨value, rfl, encoded⟩
    exact ⟨value.valid, utf8EncodeChar_eq_cons_iff.mp encoded⟩
  · rintro ⟨valid, encoded⟩
    have same : (Char.ofNatAux number valid).toNat = number := UInt32.toNat_ofNatLT
    refine ⟨.ofNatAux number valid, same, utf8EncodeChar_eq_cons_iff.mpr ?_⟩
    rw [same]
    exact encoded

/-- The first byte tells how many follow. -/
theorem followers_of_first (valid : number.isValidChar) (leads : first number = byte.toNat) :
    followers number = 0 ∧ byte.toNat ≤ 0x7F ∨
      followers number = 1 ∧ 0xC2 ≤ byte.toNat ∧ byte.toNat ≤ 0xDF ∨
      followers number = 2 ∧ 0xE0 ≤ byte.toNat ∧ byte.toNat ≤ 0xEF ∨
      followers number = 3 ∧ 0xF0 ≤ byte.toNat ∧ byte.toNat ≤ 0xF4 := by
  have bound := lt_of_isValidChar valid
  unfold first followers at leads
  unfold followers
  repeat' split at leads
  all_goals
    simp only [mark, leading] at leads
    grind

theorem le_of_mem_tail {count entry : Nat} (member : entry ∈ tail count number) : 0x80 ≤ entry := by
  induction count with
  | zero => cases member
  | succ count inductionHypothesis =>
    rcases List.mem_cons.mp member with here | later
    · exact here ▸ Nat.le_add_left _ _
    · exact inductionHypothesis later

/-- An ASCII byte is in no encoding but its own. -/
theorem utf8EncodeChar_of_mem (member : byte ∈ utf8EncodeChar value) (ascii : byte < 0x80) :
    utf8EncodeChar value = [byte] := by
  have small : byte.toNat < 0x80 := UInt8.lt_iff_toNat_lt.mp ascii
  cases encoded : utf8EncodeChar value with
  | nil => exact absurd encoded String.utf8EncodeChar_ne_nil
  | cons lead rest =>
    obtain ⟨leads, follow⟩ := utf8EncodeChar_eq_cons_iff.mp encoded
    rcases List.mem_cons.mp (encoded ▸ member) with rfl | later
    · have alone : followers value.toNat = 0 := by
        have count := followers_of_first (isValidChar_toNat value) leads
        omega
      rw [alone] at follow
      rw [List.map_eq_nil_iff.mp follow]
    · have high := le_of_mem_tail (follow ▸ List.mem_map_of_mem later)
      omega

/-- A text begins with one character only. -/
theorem eq_of_utf8EncodeChar_append
    (same : utf8EncodeChar value ++ rest = utf8EncodeChar other ++ more) : value = other := by
  have decoded := congrArg (ByteArray.utf8DecodeChar? ·.toByteArray 0) same
  simpa only [List.toByteArray_append, ByteArray.utf8DecodeChar?_utf8EncodeChar_append,
    Option.some.injEq] using decoded

/-- No encoding is the beginning of another one. -/
theorem eq_of_isPrefix_utf8EncodeChar (begins : utf8EncodeChar value <+: utf8EncodeChar other) :
    value = other := by
  obtain ⟨rest, same⟩ := begins
  exact eq_of_utf8EncodeChar_append (same.trans (List.append_nil _).symm)

/-! ### Reading a text -/

/-- Whether some character's encoding begins with the text. -/
def Begins (text : Bytes) : Prop := ∃ value : Char, text <+: utf8EncodeChar value

/-- An ill-formed part of a text, and what comes behind it. It is no character. It is the longest
beginning of one, or a single byte that begins none. -/
structure IsMalformed (part rest : Bytes) : Prop where
  nonempty : part ≠ []
  incomplete : ∀ value, utf8EncodeChar value ≠ part
  begins : part.length = 1 ∨ Begins part
  longest : ∀ next ∈ rest.head?, ¬ Begins (part ++ [next])

/-- The reading of a text as characters, with nothing in the place of each ill-formed part. -/
inductive Reads : Bytes → List (Option Char) → Prop where
  | nothing : Reads [] []
  | char (value : Char) {rest : Bytes} {shown : List (Option Char)} (later : Reads rest shown) :
    Reads (utf8EncodeChar value ++ rest) (some value :: shown)
  | malformed {part rest : Bytes} {shown : List (Option Char)} (illFormed : IsMalformed part rest)
    (later : Reads rest shown) : Reads (part ++ rest) (none :: shown)

theorem Begins.of_prefix (begins : Begins text) (shorter : part <+: text) : Begins part := by
  obtain ⟨value, encoded⟩ := begins
  exact ⟨value, shorter.trans encoded⟩

/-- A beginning of a character that holds an ASCII byte is that byte. -/
theorem eq_of_mem_begins (begins : Begins text) (member : byte ∈ text) (ascii : byte < 0x80) :
    text = [byte] := by
  obtain ⟨value, encoded⟩ := begins
  rw [utf8EncodeChar_of_mem (encoded.subset member) ascii, List.prefix_cons_iff] at encoded
  rcases encoded with rfl | ⟨rest, rfl, ends⟩
  · cases member
  · rw [List.prefix_nil.mp ends]

/-- Of two beginnings of a text the shorter one is one of the longer one. -/
theorem prefix_of_append {longer : Bytes} (same : part ++ rest = longer ++ more)
    (shorter : part.length ≤ longer.length) : part <+: longer := by
  have ofWhole : part <+: longer ++ more := same ▸ List.prefix_append part rest
  exact List.prefix_of_prefix_length_le ofWhole (List.prefix_append longer more) shorter

/-- Of two beginnings of a text the longer one goes on with the byte behind the other one. -/
theorem exists_next {longer : Bytes} (same : part ++ rest = longer ++ more)
    (shorter : part.length < longer.length) : ∃ next ∈ rest.head?, part ++ [next] <+: longer := by
  obtain ⟨between, rfl⟩ := prefix_of_append same (Nat.le_of_lt shorter)
  rw [List.append_assoc] at same
  cases between with
  | nil => exact absurd shorter (by simp)
  | cons next between =>
    refine ⟨next, ?_, between, by simp⟩
    rw [List.append_cancel_left same]
    rfl

namespace IsMalformed

/-- No character stands where a text is ill-formed. -/
theorem append_ne (illFormed : IsMalformed part rest) :
    utf8EncodeChar value ++ more ≠ part ++ rest := by
  intro same
  have size := List.length_pos_iff.mpr (String.utf8EncodeChar_ne_nil (c := value))
  rcases Nat.lt_trichotomy part.length (utf8EncodeChar value).length with longer | equal | shorter
  · obtain ⟨next, comes, onward⟩ := exists_next same.symm longer
    exact illFormed.longest next comes ⟨value, onward⟩
  · exact illFormed.incomplete value (List.append_inj_left same equal.symm)
  · rcases illFormed.begins with single | ⟨whole, begins⟩
    · omega
    · have inside := prefix_of_append same (Nat.le_of_lt shorter)
      have least := begins.length_le
      rw [← eq_of_isPrefix_utf8EncodeChar (inside.trans begins)] at least
      omega

/-- There is no longer ill-formed part at the same place. -/
theorem length_le {longer : Bytes} (illFormed : IsMalformed part rest)
    (also : IsMalformed longer more) (same : part ++ rest = longer ++ more) :
    longer.length ≤ part.length := by
  refine Nat.le_of_not_lt fun shorter => ?_
  obtain ⟨next, comes, onward⟩ := exists_next same shorter
  rcases also.begins with single | begins
  · have size := List.length_pos_iff.mpr illFormed.nonempty
    omega
  · exact illFormed.longest next comes (begins.of_prefix onward)

end IsMalformed

/-- A text can be read in one way only. -/
theorem Reads.unique {also : List (Option Char)} (reads : Reads text shown)
    (alternatively : Reads text also) : shown = also := by
  induction reads generalizing also with
  | nothing =>
    generalize empty : ([] : Bytes) = text at alternatively
    cases alternatively with
    | nothing => rfl
    | char value => simp [String.utf8EncodeChar_ne_nil] at empty
    | malformed illFormed => simp [illFormed.nonempty] at empty
  | @char value rest shown later inductionHypothesis =>
    generalize same : utf8EncodeChar value ++ rest = text at alternatively
    cases alternatively with
    | nothing => simp [String.utf8EncodeChar_ne_nil] at same
    | @char other more also alternatively =>
      obtain rfl : value = other := eq_of_utf8EncodeChar_append same
      rw [inductionHypothesis (List.append_cancel_left same ▸ alternatively)]
    | malformed illFormed => exact absurd same illFormed.append_ne
  | @malformed part rest shown illFormed later inductionHypothesis =>
    generalize same : part ++ rest = text at alternatively
    cases alternatively with
    | nothing => simp [illFormed.nonempty] at same
    | char => exact absurd same.symm illFormed.append_ne
    | malformed alsoIllFormed alternatively =>
      have equal := Nat.le_antisymm (alsoIllFormed.length_le illFormed same.symm)
        (illFormed.length_le alsoIllFormed same)
      rw [inductionHypothesis (List.append_inj_right same equal ▸ alternatively)]

/-! ### The character that has begun -/

namespace Partial

variable {state : Partial}

/-- The character that has begun, one byte on. -/
def next (state : Partial) (byte : UInt8) : Partial :=
  ⟨state.bits * 64 + (byte.toNat - 0x80), state.read + 1, state.owed - 1, 0x80, 0xBF⟩

/-- Whether these bytes, and no others, are still needed for the character of this number. -/
def Completes (state : Partial) : Bytes → Nat → Prop
  | [], number => state.owed = 0 ∧ state.bits = number
  | byte :: rest, number =>
    0 < state.owed ∧ (state.low ≤ byte ∧ byte ≤ state.high) ∧
      (state.next byte).Completes rest number

/-- The range of the next byte keeps to the bytes that go on in a character, and is not empty. -/
structure IsRange (low high : UInt8) : Prop where
  least : 0x80 ≤ low
  greatest : high ≤ 0xBF
  ordered : low ≤ high

theorem isRange_next : IsRange (state.next byte).low (state.next byte).high := by
  show IsRange 0x80 0xBF
  exact ⟨by decide, by decide, by decide⟩

/-- The bytes still needed for a number are the last ones of its encoding, if the bits so far are
its first ones and the next byte lies in its range. -/
theorem completes_iff (range : IsRange state.low state.high) :
    state.Completes rest number ↔
      rest.map UInt8.toNat = tail state.owed number ∧ leading state.owed number = state.bits ∧
        (0 < state.owed → state.low.toNat ≤ follower (state.owed - 1) number ∧
          follower (state.owed - 1) number ≤ state.high.toNat) := by
  have least : 0x80 ≤ state.low.toNat := UInt8.le_iff_toNat_le.mp range.least
  have greatest : state.high.toNat ≤ 0xBF := UInt8.le_iff_toNat_le.mp range.greatest
  induction rest generalizing state with
  | nil =>
    unfold Completes
    cases owing : state.owed with
    | zero => simp [tail, leading, eq_comm]
    | succ owed => simp [tail]
  | cons byte rest inductionHypothesis =>
    have later : (state.next byte).Completes rest number ↔ _ :=
      inductionHypothesis isRange_next (Nat.le_refl _) (Nat.le_refl _)
    have bits : (state.next byte).bits = state.bits * 64 + (byte.toNat - 0x80) := rfl
    have low : (state.next byte).low.toNat = 0x80 := rfl
    have high : (state.next byte).high.toNat = 0xBF := rfl
    have fewer : (state.next byte).owed = state.owed - 1 := rfl
    unfold Completes
    unfold follower at later ⊢
    rw [later, bits, low, high, fewer, UInt8.le_iff_toNat_le, UInt8.le_iff_toNat_le]
    cases state.owed with
    | zero => simp [tail]
    | succ owed =>
      have shorter : owed + 1 - 1 = owed := rfl
      rw [tail, follower, List.map_cons, List.cons.injEq, leading, shorter]
      generalize leading owed number = left
      constructor
      · rintro ⟨-, bounds, same, bits, -⟩
        exact ⟨⟨by omega, same⟩, by omega, fun _ => by omega⟩
      · rintro ⟨⟨first, same⟩, bits, inside⟩
        have bounds := inside (Nat.zero_lt_succ _)
        exact ⟨Nat.zero_lt_succ _, by omega, same, by omega, fun _ => by omega⟩

/-- Something completes it. -/
theorem exists_completes (range : IsRange state.low state.high) :
    ∃ rest number, state.Completes rest number := by
  induction owing : state.owed generalizing state with
  | zero => exact ⟨[], state.bits, owing, rfl⟩
  | succ owed inductionHypothesis =>
    have fewer : (state.next state.low).owed = owed := by
      show state.owed - 1 = owed
      omega
    obtain ⟨rest, number, completes⟩ := inductionHypothesis isRange_next fewer
    exact ⟨state.low :: rest, number, owing ▸ Nat.zero_lt_succ _,
      ⟨UInt8.le_refl _, range.ordered⟩, completes⟩

/-- It has begun with these bytes: what completes it completes them to an encoding. -/
structure IsOf (state : Partial) (begun : Bytes) : Prop where
  nonempty : begun ≠ []
  owes : 0 < state.owed
  range : IsRange state.low state.high
  completes : ∀ rest number, state.Completes rest number ↔
    ∃ value : Char, value.toNat = number ∧ utf8EncodeChar value = begun ++ rest

namespace IsOf

variable (isOf : state.IsOf begun)

include isOf

theorem begins : Begins begun := by
  obtain ⟨rest, number, completes⟩ := exists_completes isOf.range
  obtain ⟨value, -, encoded⟩ := (isOf.completes rest number).mp completes
  exact ⟨value, encoded ▸ List.prefix_append begun rest⟩

theorem incomplete (value : Char) : utf8EncodeChar value ≠ begun := by
  intro encoded
  have completes := (isOf.completes [] value.toNat).mpr
    ⟨value, rfl, encoded.trans (List.append_nil begun).symm⟩
  exact absurd completes.1 (Nat.ne_of_gt isOf.owes)

/-- A byte out of its range does not go on in it. -/
theorem not_begins (outside : ¬ (state.low ≤ byte ∧ byte ≤ state.high)) :
    ¬ Begins (begun ++ [byte]) := by
  rintro ⟨value, rest, encoded⟩
  rw [List.append_assoc] at encoded
  exact outside ((isOf.completes (byte :: rest) value.toNat).mpr ⟨value, rfl, encoded.symm⟩).2.1

/-- The last byte completes it. -/
theorem finish (inside : state.low ≤ byte ∧ byte ≤ state.high) (last : state.owed ≤ 1) :
    utf8EncodeChar (Char.ofNat (state.next byte).bits) = begun ++ [byte] := by
  have none : (state.next byte).owed = 0 := Nat.sub_eq_zero_of_le last
  obtain ⟨value, bits, encoded⟩ := (isOf.completes [byte] (state.next byte).bits).mp
    ⟨isOf.owes, inside, none, rfl⟩
  rw [← bits, Char.ofNat_toNat, encoded]

/-- Any other byte takes it on. -/
theorem onward (inside : state.low ≤ byte ∧ byte ≤ state.high) (owes : ¬ state.owed ≤ 1) :
    (state.next byte).IsOf (begun ++ [byte]) := by
  refine ⟨by simp, Nat.sub_pos_of_lt (Nat.lt_of_not_le owes), isRange_next, fun rest number => ?_⟩
  rw [List.append_assoc, List.singleton_append, ← isOf.completes (byte :: rest) number]
  exact ⟨fun completes => ⟨isOf.owes, inside, completes⟩, fun completes => completes.2.2⟩

/-- Where it does not go on, an ill-formed part ends. -/
theorem isMalformed (ends : ∀ next ∈ rest.head?, ¬ (state.low ≤ next ∧ next ≤ state.high)) :
    IsMalformed begun rest :=
  ⟨isOf.nonempty, isOf.incomplete, .inr isOf.begins, fun next comes =>
    isOf.not_begins (ends next comes)⟩

end IsOf

end Partial

/-! ### The first byte of a character -/

/-- What a byte announces if it is the first of several: the numbers with so many bytes and this
first byte are those with these first bits and the next six bits in the range. -/
structure Announces (byte : UInt8) (bits owed : Nat) (low high : UInt8) : Prop where
  owes : 0 < owed
  range : Partial.IsRange low high
  counts : ∀ number, number.isValidChar → first number = byte.toNat → followers number = owed
  leads : ∀ number, number.isValidChar ∧ followers number = owed ∧
      mark owed + leading owed number = byte.toNat ↔
    leading owed number = bits ∧ low.toNat ≤ follower (owed - 1) number ∧
      follower (owed - 1) number ≤ high.toNat

theorem announces_of_several {bits read owed : Nat} {low high : UInt8}
    (several : Lead.of byte = .several ⟨bits, read, owed, low, high⟩) :
    Announces byte bits owed low high := by
  unfold Lead.of at several
  simp only [UInt8.le_iff_toNat_le, UInt8.lt_iff_toNat_lt, ← UInt8.toNat_inj, UInt8.reduceToNat]
    at several
  -- There is a case for each row of the table.
  repeat' split at several
  all_goals simp only [reduceCtorEq, Lead.several.injEq, Partial.mk.injEq] at several
  all_goals
    obtain ⟨rfl, -, rfl, rfl, rfl⟩ := several
    refine ⟨by decide, ⟨by decide, by decide, by decide⟩, fun number valid leads => ?_,
      fun number => ?_⟩
    · have count := followers_of_first valid leads
      omega
    · simp only [followers_eq_one, followers_eq_two, followers_eq_three, mark, follower,
        leading, Nat.isValidChar, UInt8.reduceToNat]
      omega

theorem isOf_of_several {start : Partial} (several : Lead.of byte = .several start) :
    start.IsOf [byte] := by
  have announced := announces_of_several several
  refine ⟨List.cons_ne_nil _ _, announced.owes, announced.range, fun rest number => ?_⟩
  rw [List.singleton_append, exists_utf8EncodeChar_eq_cons_iff,
    Partial.completes_iff announced.range]
  constructor
  · rintro ⟨follow, bits, inside⟩
    obtain ⟨valid, count, leads⟩ := (announced.leads number).mpr ⟨bits, inside announced.owes⟩
    unfold first
    rw [count]
    exact ⟨valid, leads, follow⟩
  · rintro ⟨valid, leads, follow⟩
    have count : followers number = start.owed := announced.counts number valid leads
    unfold first at leads
    rw [count] at leads follow
    obtain ⟨bits, inside⟩ := (announced.leads number).mp ⟨valid, count, leads⟩
    exact ⟨follow, bits, fun _ => inside⟩

theorem utf8EncodeChar_of_single (single : Lead.of byte = .single value) :
    utf8EncodeChar value = [byte] := by
  unfold Lead.of at single
  dsimp only at single
  split at single
  · next ascii =>
    have small : byte.toNat ≤ 0x7F := UInt8.le_iff_toNat_le.mp ascii
    have alone : followers byte.toNat = 0 := if_pos small
    have leads : first byte.toNat = byte.toNat := by
      unfold first
      rw [alone]
      simp [mark, leading]
    have follow : ([] : Bytes).map UInt8.toNat = tail (followers byte.toNat) byte.toNat := by
      rw [alone]
      rfl
    obtain ⟨letter, number, encoded⟩ := exists_utf8EncodeChar_eq_cons_iff.mpr
      ⟨.inl (by omega), leads, follow⟩
    rw [← number, Char.ofNat_toNat] at single
    cases single
    exact encoded
  · repeat' split at single
    all_goals cases single

theorem not_begins_of_never (never : Lead.of byte = .never) : ¬ Begins [byte] := by
  rintro ⟨value, rest, encoded⟩
  obtain ⟨leads, -⟩ := utf8EncodeChar_eq_cons_iff.mp encoded.symm
  have count := followers_of_first (isValidChar_toNat value) leads
  unfold Lead.of at never
  simp only [UInt8.le_iff_toNat_le, UInt8.lt_iff_toNat_lt, ← UInt8.toNat_inj, UInt8.reduceToNat]
    at never
  repeat' split at never
  all_goals simp only [reduceCtorEq] at never
  all_goals omega

/-! ### The pieces of a text -/

/-- The character of a piece, if it is one. -/
def Piece.char? : Piece → Option Char
  | .char value _ => some value
  | .malformed _ => none
  | .truncated _ => none

theorem isMalformed_of_never (never : Lead.of byte = .never) : IsMalformed [byte] rest := by
  have begins := not_begins_of_never never
  exact ⟨List.cons_ne_nil _ _, fun value encoded => begins ⟨value, encoded ▸ List.prefix_refl _⟩,
    .inl rfl, fun next _ onward => begins (onward.of_prefix (List.prefix_append _ _))⟩

section Inside

variable {state : Partial}

theorem piecesFrom_last (inside : state.low ≤ byte ∧ byte ≤ state.high) (last : state.owed ≤ 1) :
    piecesFrom (some state) (byte :: rest) =
      .char (Char.ofNat (state.next byte).bits) (state.read + 1) :: piecesFrom none rest := by
  simp only [piecesFrom, feed, continueWith, if_pos inside, if_pos last]
  rfl

theorem piecesFrom_onward (inside : state.low ≤ byte ∧ byte ≤ state.high)
    (owes : ¬ state.owed ≤ 1) :
    piecesFrom (some state) (byte :: rest) = piecesFrom (some (state.next byte)) rest := by
  simp only [piecesFrom, feed, continueWith, if_pos inside, if_neg owes]
  rfl

/-- A byte that does not go on in a character is read as a first byte. -/
theorem piecesFrom_outside (outside : ¬ (state.low ≤ byte ∧ byte ≤ state.high)) :
    piecesFrom (some state) (byte :: rest) =
      .malformed state.read :: piecesFrom none (byte :: rest) := by
  simp only [piecesFrom, feed, continueWith, if_neg outside, List.cons_append]

end Inside

/-- From the start of a character the machine reads the text, and inside of one it reads what has
begun and the text. -/
theorem reads_piecesFrom (text : Bytes) :
    Reads text ((piecesFrom none text).map Piece.char?) ∧
      ∀ (state : Partial) (begun : Bytes), state.IsOf begun →
        Reads (begun ++ text) ((piecesFrom (some state) text).map Piece.char?) := by
  induction text with
  | nil =>
    refine ⟨.nothing, fun state begun isOf => ?_⟩
    exact .malformed (isOf.isMalformed fun next comes => by cases comes) .nothing
  | cons byte rest inductionHypothesis =>
    obtain ⟨anew, within⟩ := inductionHypothesis
    have start : Reads (byte :: rest) ((piecesFrom none (byte :: rest)).map Piece.char?) := by
      unfold piecesFrom feed beginWith
      cases lead : Lead.of byte with
      | single value =>
        have read := Reads.char value anew
        rwa [utf8EncodeChar_of_single lead] at read
      | several start => exact within start [byte] (isOf_of_several lead)
      | never => exact .malformed (isMalformed_of_never lead) anew
    refine ⟨start, fun state begun isOf => ?_⟩
    by_cases inside : state.low ≤ byte ∧ byte ≤ state.high
    · have whole : begun ++ byte :: rest = begun ++ [byte] ++ rest := by simp
      rw [whole]
      by_cases last : state.owed ≤ 1
      · rw [piecesFrom_last inside last, ← isOf.finish inside last]
        exact .char _ anew
      · rw [piecesFrom_onward inside last]
        exact within (state.next byte) (begun ++ [byte]) (isOf.onward inside last)
    · rw [piecesFrom_outside inside]
      refine .malformed (isOf.isMalformed fun next comes => ?_) start
      obtain rfl : byte = next := Option.some.inj comes
      exact inside

/-- The pieces of a text are its only reading. -/
theorem reads_iff : Reads text shown ↔ (pieces text).map Piece.char? = shown :=
  ⟨(reads_piecesFrom text).1.unique, fun same => same ▸ (reads_piecesFrom text).1⟩

theorem exists_reads (text : Bytes) : ∃ shown, Reads text shown :=
  ⟨_, reads_iff.mpr rfl⟩

/-! ### Decoding -/

/-- Decoding succeeds if all pieces are characters. -/
theorem charsFrom_eq_ok_iff {index : Nat} {list : List Piece} {chars : List Char} :
    charsFrom index list = .ok chars ↔ list.map Piece.char? = chars.map some := by
  induction list generalizing index chars with
  | nil => cases chars <;> simp [charsFrom]
  | cons piece list inductionHypothesis =>
    cases piece with
    | char value length =>
      have later (chars : List Char) := @inductionHypothesis (index + length) chars
      cases chars with
      | nil => cases rest : charsFrom (index + length) list <;> simp [charsFrom, Except.map, rest]
      | cons other chars =>
        simp only [List.map_cons, Piece.char?, List.cons.injEq, Option.some.injEq, ← later]
        cases rest : charsFrom (index + length) list <;> simp [charsFrom, Except.map, rest]
    | malformed length => cases chars <;> simp [charsFrom, Piece.char?]
    | truncated length => cases chars <;> simp [charsFrom, Piece.char?]

/-- A text read as characters alone is their encodings. -/
theorem reads_map_some_iff {chars : List Char} :
    Reads text (chars.map some) ↔ text = chars.flatMap utf8EncodeChar := by
  constructor
  · intro reads
    generalize same : chars.map some = shown at reads
    induction reads generalizing chars with
    | nothing => rw [List.map_eq_nil_iff.mp same]; rfl
    | char value later inductionHypothesis =>
      obtain ⟨_, chars, rfl, first, later⟩ := List.map_eq_cons_iff.mp same
      cases first
      rw [List.flatMap_cons, ← inductionHypothesis later]
    | malformed => 
      obtain ⟨_, _, _, first, _⟩ := List.map_eq_cons_iff.mp same
      cases first
  · rintro rfl
    induction chars with
    | nil => exact .nothing
    | cons value chars inductionHypothesis => exact .char value inductionHypothesis

theorem toList_loop (array : ByteArray) (index : Nat) (front : List UInt8) :
    ByteArray.toList.loop array index front = front.reverse ++ array.data.toList.drop index := by
  fun_induction ByteArray.toList.loop array index front with
  | case1 index front inside inductionHypothesis =>
    have bound : index < array.data.toList.length := inside
    have byte : array.get! index = array.data.toList[index] := by simp [ByteArray.get!, inside]
    rw [inductionHypothesis, List.drop_eq_getElem_cons bound, byte]
    simp
  | case2 index front outside =>
    rw [List.drop_eq_nil_of_le (Nat.le_of_not_lt outside), List.append_nil]

/-- The bytes of a string are the encodings of its characters. -/
theorem ofString_eq (text : String) :
    Bytes.ofString text = text.toList.flatMap utf8EncodeChar := by
  have encoded : text.toByteArray = (text.toList.flatMap utf8EncodeChar).toByteArray := by
    rw [← List.utf8Encode, ← String.toByteArray_ofList, String.ofList_toList]
  show ByteArray.toList.loop text.toByteArray 0 [] = _
  rw [toList_loop, encoded, List.toList_data_toByteArray]
  rfl

theorem reads_map_some_toList_iff {decoded : String} :
    Reads text (decoded.toList.map some) ↔ Bytes.ofString decoded = text := by
  rw [reads_map_some_iff, ofString_eq, eq_comm]

/-- Decoding a text gives the string it encodes, and fails if there is none. -/
theorem decode_eq_ok_iff {decoded : String} :
    decode text = .ok decoded ↔ Bytes.ofString decoded = text := by
  rw [← reads_map_some_toList_iff, reads_iff, ← @charsFrom_eq_ok_iff 0]
  unfold decode
  cases charsFrom 0 (pieces text) with
  | error fault => simp [Except.map]
  | ok chars =>
    simp only [Except.map, Except.ok.injEq]
    exact ⟨fun same => same ▸ String.toList_ofList.symm, fun same => same ▸ String.ofList_toList⟩

/-- Lossy decoding puts the replacement in the place of each ill-formed part. -/
theorem decodeLossy_of_reads (reads : Reads text shown) :
    decodeLossy text = String.ofList (shown.map (·.getD replacement)) := by
  unfold decodeLossy
  rw [← reads_iff.mp reads, List.map_map]
  refine congrArg String.ofList (List.map_congr_left fun piece _ => ?_)
  cases piece <;> rfl

theorem decodeLossy_of_encoded {decoded : String} (encoded : Bytes.ofString decoded = text) :
    decodeLossy text = decoded := by
  rw [decodeLossy_of_reads (reads_map_some_toList_iff.mpr encoded), List.map_map]
  exact (congrArg String.ofList (List.map_id _)).trans String.ofList_toList

end Scoresheet.Utf8
