/-
This file says what the layout of a movetext is. The text is made of atoms, with separators between
neighbours: an atom is a run of bytes without white space, or a comment in braces, and a separator
is white space and escaped lines. Wherever a separator stands it is passed whole, and the byte
behind it begins the next atom.
-/

import Scoresheet.Proofs.Gaps
import Scoresheet.Proofs.Standing

namespace Scoresheet

open Ascii

/-! ### Atoms and separators -/

/-- Neither white space nor a byte that encloses text or starts a comment. -/
def Ascii.isPlain (byte : UInt8) : Bool :=
  !(isSpace byte || byte == openBrace || byte == closeBrace || byte == semicolon ||
    byte == quote || byte == openBracket || byte == closeBracket)

/-- What holds of the four bytes that are white space holds of all white space. -/
theorem Ascii.forall_isSpace {holds : UInt8 → Prop}
    (each : holds space ∧ holds tab ∧ holds carriageReturn ∧ holds lineFeed) (byte : UInt8)
    (blank : isSpace byte = true) : holds byte := by
  simp only [isSpace, Bool.or_eq_true, beq_iff_eq] at blank
  obtain ⟨ofSpace, ofTab, ofReturn, ofFeed⟩ := each
  rcases blank with ((rfl | rfl) | rfl) | rfl
  · exact ofSpace
  · exact ofTab
  · exact ofReturn
  · exact ofFeed

namespace Bytes

/-- What is laid out in a movetext. -/
inductive IsAtom : Bytes → Prop where
  | plain {text : Bytes} (all : text.all isPlain = true) (noEscape : text.head? ≠ some percent)
      (unmarked : byteOrderMark.isPrefixOf text = false) (some : text ≠ []) : IsAtom text
  | comment {remark : Bytes} (enclosable : remark.isEnclosable closeBrace = true) :
      IsAtom (Comment.write remark)

/-- White space and lines that begin with a percent sign, each with its line feed. The argument
tells whether a line begins where the text does. -/
inductive IsSpacing : Bool → Bytes → Prop where
  | none {begins : Bool} : IsSpacing begins []
  | space {begins : Bool} {byte : UInt8} {rest : Bytes} (blank : isSpace byte = true)
      (behind : IsSpacing (byte == lineFeed) rest) : IsSpacing begins (byte :: rest)
  | escape {line rest : Bytes} (inLine : lineFeed ∉ line) (behind : IsSpacing true rest) :
      IsSpacing true (percent :: (line ++ lineFeed :: rest))

/-- What stands between two atoms, of which the first one does not end a line. -/
structure IsSeparator (text : Bytes) : Prop where
  some : text ≠ []
  spacing : IsSpacing false text

/-- The text is made of the atoms, with a separator between neighbours. -/
inductive LaysOut : List Bytes → Bytes → Prop where
  | none : LaysOut [] []
  | last (atom : Bytes) : LaysOut [atom] atom
  | next {atom neighbour separator text : Bytes} {atoms : List Bytes}
      (parts : IsSeparator separator) (behind : LaysOut (neighbour :: atoms) text) :
      LaysOut (atom :: neighbour :: atoms) (atom ++ (separator ++ text))

/-- Behind an atom the two texts go on with the same atoms, each with separators of its own. -/
inductive Follow : Bytes → Bytes → Prop where
  | none : Follow [] []
  | next {separator other atom first second : Bytes} (left : IsSeparator separator)
      (right : IsSeparator other) (isAtom : IsAtom atom) (behind : Follow first second) :
      Follow (separator ++ (atom ++ first)) (other ++ (atom ++ second))

variable {text first second atom separator rest run : Bytes} {atoms : List Bytes} {begins : Bool}
  {place : Place} {byte : UInt8}

/-- Two layouts of the same atoms begin with the same atom. -/
theorem LaysOut.follow (left : LaysOut (atom :: atoms) first)
    (right : LaysOut (atom :: atoms) second) (each : ∀ atom ∈ atoms, IsAtom atom) :
    ∃ behind behind', first = atom ++ behind ∧ second = atom ++ behind' ∧
      Follow behind behind' := by
  induction atoms generalizing atom first second with
  | nil =>
    cases left
    cases right
    exact ⟨[], [], (List.append_nil _).symm, (List.append_nil _).symm, .none⟩
  | cons neighbour atoms inductionHypothesis =>
    cases left with
    | @next _ _ separator text _ parts behind =>
      cases right with
      | @next _ _ separator' text' _ parts' behind' =>
        obtain ⟨rest, rest', rfl, rfl, follow⟩ := inductionHypothesis behind behind'
          fun later member => each later (List.mem_cons_of_mem _ member)
        exact ⟨_, _, rfl, rfl, .next parts parts' (each _ List.mem_cons_self) follow⟩

/-! ### Separators -/

/-- A separator begins with white space. -/
theorem IsSeparator.head (separator : IsSeparator text) :
    ∃ byte rest, text = byte :: rest ∧ isSpace byte = true := by
  obtain ⟨some, spacing⟩ := separator
  cases spacing with
  | none => exact absurd rfl some
  | space blank behind => exact ⟨_, _, rfl, blank⟩

theorem isGap_line (inLine : lineFeed ∉ run) :
    Place.isGap true place (run ++ lineFeed :: rest) =
      Place.isGap false ((place.pass run).next lineFeed) rest := by
  induction run generalizing place with
  | nil => rfl
  | cons byte run inductionHypothesis =>
    have onward : byte ≠ lineFeed := fun feed => inLine (feed ▸ List.mem_cons_self)
    show Place.isGap (byte != lineFeed) (place.next byte) (run ++ lineFeed :: rest) = _
    rw [bne_iff_ne.mpr onward, inductionHypothesis fun member => inLine (.tail _ member)]
    rfl

theorem atLineStart_lineFeed (place : Place) : (place.next lineFeed).atLineStart = true :=
  beq_self_eq_true _

theorem IsSpacing.isGap (spacing : IsSpacing begins text)
    (start : begins = true → place.atLineStart = true) :
    Place.isGap false place text = true := by
  induction spacing generalizing place with
  | none => rfl
  | @space begins byte rest blank behind inductionHypothesis =>
    unfold Place.isGap
    rw [if_pos blank]
    refine inductionHypothesis fun feed => ?_
    rw [beq_iff_eq.mp feed]
    exact atLineStart_lineFeed place
  | @escape line rest inLine behind inductionHypothesis =>
    unfold Place.isGap
    rw [if_neg (by decide), isGap_line inLine,
      inductionHypothesis fun _ => atLineStart_lineFeed _, Bool.and_true]
    exact decide_eq_true ⟨rfl, start rfl⟩

/-- A separator is a gap wherever it stands. -/
theorem IsSeparator.isGap (separator : IsSeparator text) (place : Place) :
    Place.isGap false place text = true :=
  separator.spacing.isGap nofun

/-! ### What follows -/

/-- Nothing, or white space. -/
def Ends (text : Bytes) : Prop := ∀ byte ∈ text.head?, isSpace byte = true

theorem Follow.ends (follow : Follow first second) : Ends first ∧ Ends second := by
  cases follow with
  | none => exact ⟨nofun, nofun⟩
  | next left right =>
    obtain ⟨byte, rest, rfl, blank⟩ := left.head
    obtain ⟨byte', rest', rfl, blank'⟩ := right.head
    refine ⟨fun next shown => ?_, fun next shown => ?_⟩
    · cases shown
      exact blank
    · cases shown
      exact blank'

/-- A run that white space stops does not reach beyond the atom. -/
theorem Ends.takeWhile {stop : UInt8 → Bool} (ends : Ends rest)
    (stops : ∀ byte, isSpace byte = true → stop byte = true) (text : Bytes) :
    (text ++ rest).takeWhile (!stop ·) = text.takeWhile (!stop ·) := by
  have none : rest.takeWhile (!stop ·) = [] := by
    cases rest with
    | nil => rfl
    | cons byte rest =>
      rw [List.takeWhile_cons_of_neg]
      simp [stops byte (ends byte rfl)]
  rw [List.takeWhile_append]
  split
  · next whole => rw [none, List.append_nil, (List.takeWhile_prefix _).eq_of_length whole]
  · rfl

/-- A mark without white space that comes next is in the atom. -/
theorem Ends.isPrefixOf (ends : Ends rest) {mark : Bytes}
    (visible : mark.any isSpace = false) (text : Bytes) :
    mark.isPrefixOf (text ++ rest) = mark.isPrefixOf text := by
  induction text generalizing mark with
  | nil =>
    cases mark with
    | nil => rfl
    | cons byte mark =>
      cases rest with
      | nil => rfl
      | cons next rest =>
        rw [List.any_cons, Bool.or_eq_false_iff] at visible
        have other : (byte == next) = false := beq_eq_false_iff_ne.mpr fun same => by
          have blank := ends next rfl
          rw [← same, visible.1] at blank
          cases blank
        simp [List.isPrefixOf, other]
  | cons next text inductionHypothesis =>
    cases mark with
    | nil => rfl
    | cons byte mark =>
      rw [List.any_cons, Bool.or_eq_false_iff] at visible
      exact congrArg ((byte == next) && ·) (inductionHypothesis visible.2)

/-! ### Atoms -/

/-- What may be left of an atom where a token begins. -/
inductive IsPending : Bytes → Prop where
  | plain {text : Bytes} (all : text.all isPlain = true) : IsPending text
  | comment {remark : Bytes} (enclosable : remark.isEnclosable closeBrace = true) :
      IsPending (Comment.write remark)
  | close : IsPending [closeBrace]

theorem isSpace_of_isPlain (plain : isPlain byte = true) : isSpace byte = false := by
  simp only [isPlain, Bool.not_eq_true', Bool.or_eq_false_iff] at plain
  exact plain.1.1.1.1.1.1

/-- White space is no part of an atom outside braces, and neither are brackets. -/
theorem IsPending.head (pending : IsPending (byte :: rest)) :
    isSpace byte = false ∧ byte ≠ openBracket := by
  rcases pending with all | enclosable | _
  · rw [List.all_cons, Bool.and_eq_true] at all
    refine ⟨isSpace_of_isPlain all.1, ?_⟩
    rintro rfl
    exact absurd all.1 (by decide)
  · exact ⟨by decide, by decide⟩
  · exact ⟨by decide, by decide⟩

theorem IsAtom.pending (isAtom : IsAtom text) : IsPending text := by
  cases isAtom with
  | plain all => exact .plain all
  | comment enclosable => exact .comment enclosable

theorem IsAtom.exists_head (isAtom : IsAtom text) :
    ∃ byte rest, text = byte :: rest ∧ byte ≠ percent := by
  cases isAtom with
  | plain all noEscape unmarked some =>
    obtain ⟨byte, rest, rfl⟩ := List.exists_cons_of_ne_nil some
    exact ⟨byte, rest, rfl, fun escape => noEscape (congrArg Option.some escape)⟩
  | comment => exact ⟨openBrace, _, rfl, by decide⟩

theorem IsAtom.unmarked (isAtom : IsAtom text) (ends : Ends rest) :
    byteOrderMark.isPrefixOf (text ++ rest) = false := by
  cases isAtom with
  | plain all noEscape unmarked => rw [ends.isPrefixOf (by decide), unmarked]
  | comment => rfl

/-- In front of what is left of an atom there is nothing to skip, unless it looks like an escaped
line. -/
theorem IsPending.blanks (pending : IsPending (byte :: text))
    (aside : byte = percent → place.atLineStart = false) (rest : Bytes) :
    Place.blanks false place (byte :: text ++ rest) = [] := by
  refine Place.blanks_significant (Bool.eq_false_iff.mp pending.head.1) ?_
  rintro ⟨escape, start⟩
  rw [aside escape] at start
  cases start

/-- Behind an atom the separator is skipped, and the next atom begins. -/
theorem IsSeparator.blanks (parts : IsSeparator separator) (isAtom : IsAtom atom) (place : Place)
    (rest : Bytes) : Place.blanks false place (separator ++ (atom ++ rest)) = separator := by
  obtain ⟨byte, text, rfl, noEscape⟩ := isAtom.exists_head
  rw [Place.blanks_gap (parts.isGap place),
    isAtom.pending.blanks (fun escape => absurd escape noEscape), List.append_nil]

end Bytes

end Scoresheet
