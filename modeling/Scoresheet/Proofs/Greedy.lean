/-
This file shows that splitting glyphs off a move is one greedy scan. A glyph stands at a place of a
text if one of the listed ones begins there, or an `N` that marks a novelty. The move ends at the
first such place from the third byte on. From there the scan takes a glyph wherever one stands, two
bytes rather than one, goes on behind what it took, and steps over any other byte; the codes are
those it meets, each at its first appearance, and the first eight of them.

The scan is described by places in the whole text, the splitting works on what is left of it.
Between them stands what the splitting keeps in mind: the first byte of the text and the one before
the place.
-/

import Mathlib.Order.Bounds.Defs
import Scoresheet.Nag.Inline

namespace Scoresheet.Nag

open Ascii

/-! ### Glyphs in a text -/

/-- An `N` at the place marks a novelty. It is the last byte, and no piece that a pawn is promoted
to: it is not behind an equals sign, and in a text that begins with a file of the board not behind
the number of a last rank. -/
structure IsNoveltyAt (text : Bytes) (place : Nat) : Prop where
  last : text.drop place = [capitalN]
  unequal : text[place - 1]? ≠ some equals
  unpromoted : text[place - 1]? = some one ∨ text[place - 1]? = some eight →
    ∀ first ∈ text.head?, isBoardFile first = false

/-- A glyph of the given length stands at the place and means the code. -/
inductive GlyphAt (text : Bytes) (place : Nat) : Nat → Nag → Prop
  | listed {glyph : Bytes} {length : Nat} {nag : Nag} (listed : (glyph, nag) ∈ inlineGlyphs)
    (size : glyph.length = length) (here : glyph <+: text.drop place) :
    GlyphAt text place length nag
  | novelty (marked : IsNoveltyAt text place) : GlyphAt text place 1 .novelty

def HasGlyphAt (text : Bytes) (place : Nat) : Prop := ∃ length nag, GlyphAt text place length nag

/-- The codes that are met from a place on. -/
inductive Meets (text : Bytes) : Nat → List Nag → Prop
  | finished {place : Nat} (behind : text.length ≤ place) : Meets text place []
  | pair {place : Nat} {nag : Nag} {codes : List Nag} (here : GlyphAt text place 2 nag)
    (later : Meets text (place + 2) codes) : Meets text place (nag :: codes)
  | single {place : Nat} {nag : Nag} {codes : List Nag}
    (noPair : ∀ other, ¬ GlyphAt text place 2 other) (here : GlyphAt text place 1 nag)
    (later : Meets text (place + 1) codes) : Meets text place (nag :: codes)
  | nothing {place : Nat} {codes : List Nag} (inside : place < text.length)
    (none : ¬ HasGlyphAt text place) (later : Meets text (place + 1) codes) :
    Meets text place codes

variable {text glyph rest : Bytes} {place length : Nat} {nag other : Nag} {codes : List Nag}
  {first previous byte : UInt8}

/-! ### The listed glyphs -/

theorem length_of_listed (listed : (glyph, nag) ∈ inlineGlyphs) :
    glyph.length = 1 ∨ glyph.length = 2 := by
  have all : ∀ entry ∈ inlineGlyphs, entry.1.length = 1 ∨ entry.1.length = 2 := by decide
  exact all (glyph, nag) listed

/-- No glyph means two codes. -/
theorem nag_of_listed (listed : (glyph, nag) ∈ inlineGlyphs)
    (again : (glyph, other) ∈ inlineGlyphs) : nag = other := by
  have all : ∀ entry ∈ inlineGlyphs, ∀ other ∈ inlineGlyphs, entry.1 = other.1 →
      entry.2 = other.2 := by decide
  exact all (glyph, nag) listed (glyph, other) again rfl

/-- Two bytes are preferred to one. -/
theorem find?_of_pair (listed : (glyph, nag) ∈ inlineGlyphs) (two : glyph.length = 2)
    (rest : Bytes) : inlineGlyphs.find? (·.1.isPrefixOf (glyph ++ rest)) = some (glyph, nag) := by
  simp only [inlineGlyphs, List.mem_cons, Prod.mk.injEq, List.not_mem_nil, or_false] at listed
  rcases listed with ⟨rfl, rfl⟩ | ⟨rfl, rfl⟩ | ⟨rfl, rfl⟩ | ⟨rfl, rfl⟩ | ⟨rfl, rfl⟩ | ⟨rfl, rfl⟩ |
    ⟨rfl, rfl⟩ | ⟨rfl, rfl⟩ | ⟨rfl, rfl⟩ | ⟨rfl, rfl⟩ | ⟨rfl, rfl⟩
  all_goals first | rfl | cases two

/-- A last `N` begins no listed glyph. -/
theorem find?_novelty : inlineGlyphs.find? (·.1.isPrefixOf [capitalN]) = none := by decide

namespace GlyphAt

theorem length_eq (here : GlyphAt text place length nag) : length = 1 ∨ length = 2 := by
  cases here with
  | listed listed size begins => exact size ▸ length_of_listed listed
  | novelty marked => exact .inl rfl

theorem lt_length (here : GlyphAt text place length nag) : place < text.length := by
  have within : text.drop place ≠ [] := by
    cases here with
    | @listed glyph length nag listed size begins =>
      intro nothing
      rw [nothing] at begins
      have sizes := length_of_listed listed
      rw [List.prefix_nil.mp begins, List.length_nil] at sizes
      omega
    | novelty marked => rw [marked.last]; exact List.cons_ne_nil _ _
  exact Nat.lt_of_not_le fun behind => within (List.drop_of_length_le behind)

/-- Glyphs of one length at one place mean one code. -/
theorem unique (here : GlyphAt text place length nag) (again : GlyphAt text place length other) :
    nag = other := by
  have apart {glyph : Bytes} {nag : Nag} (listed : (glyph, nag) ∈ inlineGlyphs)
      (begins : glyph <+: text.drop place) (marked : IsNoveltyAt text place) : False := by
    have none := List.find?_eq_none.mp find?_novelty (glyph, nag) listed
    rw [marked.last] at begins
    exact none (List.isPrefixOf_iff_prefix.mpr begins)
  cases here with
  | listed listed size begins =>
    cases again with
    | listed otherListed otherSize otherBegins =>
      have same := (List.prefix_of_prefix_length_le begins otherBegins
        (Nat.le_of_eq (size.trans otherSize.symm))).eq_of_length (size.trans otherSize.symm)
      subst same
      exact nag_of_listed listed otherListed
    | novelty marked => exact (apart listed begins marked).elim
  | novelty marked =>
    cases again with
    | listed otherListed otherSize otherBegins =>
      exact (apart otherListed otherBegins marked).elim
    | novelty => rfl

end GlyphAt

/-! ### One place -/

/-- What the splitting knows at a place: the first byte of the text, the byte before the place, and
what is left from there on. -/
structure IsAt (text : Bytes) (place : Nat) (first previous : UInt8) (rest : Bytes) : Prop where
  first : text.head? = some first
  previous : text[place - 1]? = some previous
  rest : text.drop place = rest

namespace IsAt

theorem next (stands : IsAt text place first previous (byte :: rest)) :
    IsAt text (place + 1) first byte rest where
  first := stands.first
  previous := by
    rw [Nat.add_sub_cancel, ← Nat.add_zero place, ← List.getElem?_drop, stands.rest]
    rfl
  rest := by
    rw [← List.drop_drop, stands.rest]
    rfl

theorem exists_cons (stands : IsAt text place first previous rest) (inside : place < text.length) :
    ∃ byte more, rest = byte :: more := by
  rw [← stands.rest]
  exact ⟨_, _, List.drop_eq_getElem_cons inside⟩

/-- A glyph of two bytes leaves two bytes. -/
theorem exists_pair (stands : IsAt text place first previous rest)
    (here : GlyphAt text place 2 nag) : ∃ byte second more, rest = byte :: second :: more := by
  cases here with
  | @listed glyph _ _ listed two begins =>
    rw [stands.rest] at begins
    obtain ⟨more, rfl⟩ := begins
    match glyph, two with
    | [byte, second], _ => exact ⟨byte, second, more, rfl⟩

theorem isNoveltyAt_iff (stands : IsAt text place first previous rest) :
    IsNoveltyAt text place ↔ rest = [capitalN] ∧ marksNovelty first previous = true := by
  have known : marksNovelty first previous = true ↔ previous ≠ equals ∧
      (previous = one ∨ previous = eight → isBoardFile first = false) := by
    unfold marksNovelty
    split
    · next equal => simp [equal]
    · next unequal => split <;> simp_all
  rw [known]
  constructor
  · rintro ⟨last, unequal, unpromoted⟩
    rw [stands.previous] at unequal unpromoted
    rw [stands.first] at unpromoted
    refine ⟨stands.rest.symm.trans last, fun equal => unequal (congrArg some equal), ?_⟩
    exact fun rank => unpromoted (rank.imp (congrArg some) (congrArg some)) first rfl
  · rintro ⟨rfl, unequal, unpromoted⟩
    refine ⟨stands.rest, ?_, ?_⟩
    · rw [stands.previous]
      exact fun equal => unequal (Option.some.inj equal)
    · rw [stands.previous, stands.first]
      rintro rank _ ⟨⟩
      exact unpromoted (rank.imp Option.some.inj Option.some.inj)

/-- What the splitting finds stands there. -/
theorem glyphAt (stands : IsAt text place first previous rest)
    (found : inlineGlyph? first previous rest = some (length, nag)) :
    GlyphAt text place length nag := by
  unfold inlineGlyph? at found
  split at found
  · next glyph nag listed =>
    cases found
    have begins := List.find?_some listed
    refine .listed (List.mem_of_find?_eq_some listed) rfl ?_
    rw [stands.rest]
    exact List.isPrefixOf_iff_prefix.mp begins
  · split at found
    · next marked =>
      cases found
      exact .novelty (stands.isNoveltyAt_iff.mpr marked)
    · cases found

/-- Where the splitting finds nothing, no glyph stands. -/
theorem not_hasGlyphAt (stands : IsAt text place first previous rest)
    (nothing : inlineGlyph? first previous rest = none) : ¬ HasGlyphAt text place := by
  unfold inlineGlyph? at nothing
  split at nothing
  · cases nothing
  · next unlisted =>
    split at nothing
    · cases nothing
    · next unmarked =>
      rintro ⟨length, nag, here⟩
      cases here with
      | listed listed size begins =>
        rw [stands.rest] at begins
        exact List.find?_eq_none.mp unlisted _ listed (List.isPrefixOf_iff_prefix.mpr begins)
      | novelty marked => exact unmarked (stands.isNoveltyAt_iff.mp marked)

theorem inlineGlyph?_of_pair (stands : IsAt text place first previous rest)
    (here : GlyphAt text place 2 nag) :
    inlineGlyph? first previous rest = some (2, nag) := by
  cases here with
  | listed listed two begins =>
    rw [stands.rest] at begins
    obtain ⟨more, rfl⟩ := begins
    unfold inlineGlyph?
    rw [find?_of_pair listed two]
    exact congrArg (fun length => some (length, nag)) two

theorem inlineGlyph?_of_single (stands : IsAt text place first previous rest)
    (noPair : ∀ other, ¬ GlyphAt text place 2 other) (here : GlyphAt text place 1 nag) :
    inlineGlyph? first previous rest = some (1, nag) := by
  cases found : inlineGlyph? first previous rest with
  | none => exact (stands.not_hasGlyphAt found ⟨1, nag, here⟩).elim
  | some glyph =>
    obtain ⟨length, other⟩ := glyph
    have stood := stands.glyphAt found
    rcases stood.length_eq with rfl | rfl
    · rw [stood.unique here]
    · exact (noPair other stood).elim

theorem inlineGlyph?_of_nothing (stands : IsAt text place first previous rest)
    (none : ¬ HasGlyphAt text place) : inlineGlyph? first previous rest = .none := by
  cases found : inlineGlyph? first previous rest with
  | none => rfl
  | some glyph => exact (none ⟨glyph.1, glyph.2, stands.glyphAt found⟩).elim

end IsAt

/-! ### From the first glyph on -/

/-- The scan comes to its end. -/
theorem exists_meets (text : Bytes) (place : Nat) : ∃ codes, Meets text place codes := by
  induction left : text.length - place using Nat.strongRecOn generalizing place with
  | _ left inductionHypothesis =>
    by_cases behind : text.length ≤ place
    · exact ⟨[], .finished behind⟩
    · obtain ⟨afterOne, one⟩ := inductionHypothesis _ (by omega) (place + 1) rfl
      obtain ⟨afterTwo, two⟩ := inductionHypothesis _ (by omega) (place + 2) rfl
      by_cases pair : ∃ nag, GlyphAt text place 2 nag
      · obtain ⟨nag, here⟩ := pair
        exact ⟨nag :: afterTwo, .pair here two⟩
      · have noPair := not_exists.mp pair
        by_cases single : ∃ nag, GlyphAt text place 1 nag
        · obtain ⟨nag, here⟩ := single
          exact ⟨nag :: afterOne, .single noPair here one⟩
        · refine ⟨afterOne, .nothing (Nat.lt_of_not_le behind) ?_ one⟩
          rintro ⟨length, nag, here⟩
          rcases here.length_eq with rfl | rfl
          · exact single ⟨nag, here⟩
          · exact noPair nag here

/-- It meets the same codes every time. -/
theorem Meets.unique {others : List Nag} (meets : Meets text place codes)
    (again : Meets text place others) : codes = others := by
  induction meets generalizing others with
  | finished behind =>
    cases again with
    | finished => rfl
    | pair here => exact absurd behind (Nat.not_le_of_lt here.lt_length)
    | single _ here => exact absurd behind (Nat.not_le_of_lt here.lt_length)
    | nothing inside => exact absurd behind (Nat.not_le_of_lt inside)
  | pair here later inductionHypothesis =>
    cases again with
    | finished behind => exact absurd behind (Nat.not_le_of_lt here.lt_length)
    | pair other later => rw [here.unique other, inductionHypothesis later]
    | single noPair => exact absurd here (noPair _)
    | nothing _ none => exact absurd ⟨_, _, here⟩ none
  | single noPair here later inductionHypothesis =>
    cases again with
    | finished behind => exact absurd behind (Nat.not_le_of_lt here.lt_length)
    | pair other => exact absurd other (noPair _)
    | single _ other later => rw [here.unique other, inductionHypothesis later]
    | nothing _ none => exact absurd ⟨_, _, here⟩ none
  | nothing inside none later inductionHypothesis =>
    cases again with
    | finished behind => exact absurd behind (Nat.not_le_of_lt inside)
    | pair here => exact absurd ⟨_, _, here⟩ none
    | single _ here => exact absurd ⟨_, _, here⟩ none
    | nothing _ _ later => exact inductionHypothesis later

/-- Adding a code once is adding it and keeping first appearances. -/
theorem addOnce_eraseDups (codes : List Nag) (nag : Nag) :
    addOnce codes.eraseDups nag = (codes ++ [nag]).eraseDups := by
  rw [List.eraseDups_append]
  unfold addOnce
  by_cases met : nag ∈ codes
  · simp [met, List.removeAll]
  · simp [met, List.removeAll, List.eraseDups_cons]

/-- Once there are enough codes, no more of them count. -/
theorem take_eraseDups_append {earlier : List Nag} (later : List Nag)
    (enough : inlineLimit ≤ (earlier.eraseDups.take inlineLimit).length) :
    (earlier ++ later).eraseDups.take inlineLimit = earlier.eraseDups.take inlineLimit := by
  rw [List.length_take] at enough
  rw [List.eraseDups_append, List.take_append_of_le_length (by omega)]

/-- As long as there is room, the next code is added once. -/
theorem addOnce_take_eraseDups {earlier : List Nag} (nag : Nag)
    (room : ¬ (earlier.eraseDups.take inlineLimit).length ≥ inlineLimit) :
    addOnce (earlier.eraseDups.take inlineLimit) nag =
      (earlier ++ [nag]).eraseDups.take inlineLimit := by
  rw [List.length_take] at room
  have all : earlier.eraseDups.take inlineLimit = earlier.eraseDups :=
    List.take_of_length_le (by omega)
  have fits : (addOnce earlier.eraseDups nag).length ≤ inlineLimit := by
    unfold addOnce
    split
    · omega
    · rw [List.length_append, List.length_singleton]
      omega
  rw [all, ← addOnce_eraseDups, List.take_of_length_le fits]

/-- Enough codes are not added to. -/
theorem gatherInline_of_full {nags : List Nag} (full : inlineLimit ≤ nags.length) (rest : Bytes) :
    gatherInline first 0 nags previous rest = nags := by
  cases rest with
  | nil => rfl
  | cons byte rest => rw [gatherInline, if_pos full]

theorem gatherInline_of_glyph {nags : List Nag} (room : ¬ nags.length ≥ inlineLimit)
    (found : inlineGlyph? first previous (byte :: rest) = some (length, nag)) :
    gatherInline first 0 nags previous (byte :: rest) =
      gatherInline first (length - 1) (addOnce nags nag) byte rest := by
  rw [gatherInline, if_neg room, found]

theorem gatherInline_of_nothing {nags : List Nag} (room : ¬ nags.length ≥ inlineLimit)
    (nothing : inlineGlyph? first previous (byte :: rest) = none) :
    gatherInline first 0 nags previous (byte :: rest) = gatherInline first 0 nags byte rest := by
  rw [gatherInline, if_neg room, nothing]

/-- What is gathered from a place on are the codes that are met there, behind those met before. -/
theorem gatherInline_of_meets (earlier : List Nag) (meets : Meets text place codes)
    (stands : IsAt text place first previous rest) :
    gatherInline first 0 (earlier.eraseDups.take inlineLimit) previous rest =
      (earlier ++ codes).eraseDups.take inlineLimit := by
  induction meets generalizing earlier previous rest with
  | finished behind =>
    have nothing : rest = [] := stands.rest.symm.trans (List.drop_of_length_le behind)
    rw [nothing, gatherInline, List.append_nil]
  | @pair _ nag codes here later inductionHypothesis =>
    by_cases full : inlineLimit ≤ (earlier.eraseDups.take inlineLimit).length
    · rw [gatherInline_of_full full, take_eraseDups_append _ full]
    · have found := stands.inlineGlyph?_of_pair here
      obtain ⟨byte, second, more, rfl⟩ := stands.exists_pair here
      rw [gatherInline_of_glyph full found, addOnce_take_eraseDups _ full,
        List.append_cons _ nag codes]
      exact inductionHypothesis _ stands.next.next
  | @single _ nag codes noPair here later inductionHypothesis =>
    by_cases full : inlineLimit ≤ (earlier.eraseDups.take inlineLimit).length
    · rw [gatherInline_of_full full, take_eraseDups_append _ full]
    · have found := stands.inlineGlyph?_of_single noPair here
      obtain ⟨byte, more, rfl⟩ := stands.exists_cons here.lt_length
      rw [gatherInline_of_glyph full found, addOnce_take_eraseDups _ full,
        List.append_cons _ nag codes]
      exact inductionHypothesis _ stands.next
  | nothing inside none later inductionHypothesis =>
    by_cases full : inlineLimit ≤ (earlier.eraseDups.take inlineLimit).length
    · rw [gatherInline_of_full full, take_eraseDups_append _ full]
    · have found := stands.inlineGlyph?_of_nothing none
      obtain ⟨byte, more, rfl⟩ := stands.exists_cons inside
      rw [gatherInline_of_nothing full found]
      exact inductionHypothesis _ stands.next

/-! ### Up to the first glyph -/

/-- The text is kept up to the first place at which a glyph stands, and the codes are gathered from
there. -/
theorem splitAtGlyph_eq (stands : IsAt text place first previous rest) :
    (∀ later, place ≤ later → ¬ HasGlyphAt text later) ∧
        splitAtGlyph first previous rest = (rest, []) ∨
      ∃ count before, (∀ earlier, place ≤ earlier → HasGlyphAt text earlier →
          place + count ≤ earlier) ∧ HasGlyphAt text (place + count) ∧
        IsAt text (place + count) first before (rest.drop count) ∧
        splitAtGlyph first previous rest =
          (rest.take count, gatherInline first 0 [] before (rest.drop count)) := by
  induction rest generalizing place previous with
  | nil =>
    refine .inl ⟨fun later behind => ?_, rfl⟩
    rintro ⟨length, nag, here⟩
    have ended : text.length ≤ place := List.drop_eq_nil_iff.mp stands.rest
    exact Nat.not_lt_of_le (Nat.le_trans ended behind) here.lt_length
  | cons byte rest inductionHypothesis =>
    rw [splitAtGlyph]
    cases found : inlineGlyph? first previous (byte :: rest) with
    | some glyph =>
      have here : HasGlyphAt text place := ⟨glyph.1, glyph.2, stands.glyphAt found⟩
      exact .inr ⟨0, previous, fun _ behind _ => behind, here, stands, rfl⟩
    | none =>
      have absent := stands.not_hasGlyphAt found
      have onward {later : Nat} (behind : place ≤ later) (here : HasGlyphAt text later) :
          place + 1 ≤ later :=
        Nat.lt_of_le_of_ne behind fun same => absent (same ▸ here)
      rcases inductionHypothesis stands.next with
        ⟨never, kept⟩ | ⟨count, before, least, here, stood, split⟩
      · refine .inl ⟨fun later behind here => ?_, ?_⟩
        · exact never later (onward behind here) here
        · dsimp only
          rw [kept]
      · have further : place + (count + 1) = place + 1 + count := by omega
        refine .inr ⟨count + 1, before, fun earlier behind here => ?_, ?_, ?_, ?_⟩
        · rw [further]
          exact least earlier (onward behind here) here
        · rwa [further]
        · rwa [further]
        · dsimp only
          rw [split]
          rfl

/-- The text is kept whole, or cut at the first place from the third byte on at which a glyph
stands, with the codes that are met from there. -/
theorem splitInline_eq (text : Bytes) :
    (∀ place, 2 ≤ place → ¬ HasGlyphAt text place) ∧ splitInline text = (text, []) ∨
      ∃ place codes, IsLeast {place | 2 ≤ place ∧ HasGlyphAt text place} place ∧
        Meets text place codes ∧
        splitInline text = (text.take place, codes.eraseDups.take inlineLimit) := by
  have short (few : text.length ≤ 2) (place : Nat) (behind : 2 ≤ place) :
      ¬ HasGlyphAt text place := by
    rintro ⟨length, nag, here⟩
    exact Nat.not_lt_of_le (Nat.le_trans few behind) here.lt_length
  match text with
  | [] => exact .inl ⟨short (Nat.zero_le 2), rfl⟩
  | [_] => exact .inl ⟨short (Nat.le_succ 1), rfl⟩
  | first :: second :: rest =>
    have stands : IsAt (first :: second :: rest) 2 first second rest := ⟨rfl, rfl, rfl⟩
    rcases splitAtGlyph_eq stands with
      ⟨never, kept⟩ | ⟨count, before, least, here, stood, split⟩
    · refine .inl ⟨never, ?_⟩
      rw [splitInline, kept]
    · obtain ⟨codes, meets⟩ := exists_meets (first :: second :: rest) (2 + count)
      refine .inr ⟨2 + count, codes, ⟨⟨Nat.le_add_right 2 count, here⟩, fun earlier found => ?_⟩,
        meets, ?_⟩
      · exact least earlier found.1 found.2
      · have gathered : gatherInline first 0 [] before (rest.drop count) =
            ([] ++ codes).eraseDups.take inlineLimit := gatherInline_of_meets [] meets stood
        rw [splitInline, split, Nat.add_comm 2 count]
        exact congrArg (Prod.mk _) gathered

/-- The glyphs split off a move are those of a greedy scan from its third byte on. If no glyph
stands there the move is kept as it is. Otherwise it is cut at the first place at which one stands,
and the codes are the first eight different ones that the scan meets from there on. The first two
bytes are kept in any case. -/
theorem splitInline_scans (text : Bytes) :
    ((∀ place, 2 ≤ place → ¬ HasGlyphAt text place) ∧ splitInline text = (text, []) ∨
      ∃ place codes, IsLeast {place | 2 ≤ place ∧ HasGlyphAt text place} place ∧
        (∀ others, Meets text place others ↔ others = codes) ∧
        splitInline text = (text.take place, codes.eraseDups.take 8)) ∧
    (splitInline text).1 <+: text ∧ text.take 2 <+: (splitInline text).1 := by
  rcases splitInline_eq text with ⟨never, kept⟩ | ⟨place, codes, least, meets, split⟩
  · rw [kept]
    exact ⟨.inl ⟨never, rfl⟩, List.prefix_rfl, List.take_prefix 2 text⟩
  · have only (others : List Nag) : Meets text place others ↔ others = codes :=
      ⟨fun again => again.unique meets, fun same => same ▸ meets⟩
    rw [split]
    exact ⟨.inr ⟨place, codes, least, only, rfl⟩, List.take_prefix place text,
      List.take_prefix_take_left least.1.1⟩

/-- A glyph that begins inside another one, and an `N` that is no piece. -/
example : splitInline (Bytes.ofString "Bb5+-+N") =
    (Bytes.ofString "Bb5", [whiteDecisiveAdvantage, novelty]) := by decide +kernel

end Scoresheet.Nag
