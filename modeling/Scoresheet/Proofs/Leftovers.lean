/-
This file says what splitting glyphs off a move leaves behind. No listed glyph is left: one that
stands in what is kept stands in the whole text as well, and the cut is at the first of them. But
the cut decides which byte is the last, and an `N` marks a novelty only there. So if an `N` comes to
stand at the end, in front of the glyphs that were split off, it is what a second splitting finds,
and the only thing.

The moves of a game are what one splitting leaves of the texts they are written with.
-/

import Scoresheet.Cache.PairHash
import Scoresheet.Proofs.Greedy
import Scoresheet.Proofs.Limits

namespace Scoresheet

namespace Nag

open Ascii

variable {text : Bytes} {place : Nat} {codes : List Nag}

/-! ### What is left of a text -/

/-- A glyph that stands in the first part of a text stands in the text, unless it is the `N` at the
end of that part. -/
theorem hasGlyphAt_of_take {cut : Nat} (here : HasGlyphAt (text.take cut) place) :
    IsNoveltyAt (text.take cut) place ∨ HasGlyphAt text place := by
  obtain ⟨length, nag, glyph⟩ := here
  cases glyph with
  | listed listed size begins =>
    rw [List.drop_take] at begins
    exact .inr ⟨length, nag, .listed listed size (begins.trans (List.take_prefix _ _))⟩
  | novelty marked => exact .inl marked

/-- At the first glyph the scan meets a code. -/
theorem Meets.ne_nil (meets : Meets text place codes) (here : HasGlyphAt text place) :
    codes ≠ [] := by
  obtain ⟨length, nag, glyph⟩ := here
  cases meets with
  | finished behind => exact absurd behind (Nat.not_le_of_lt glyph.lt_length)
  | pair => exact List.cons_ne_nil _ _
  | single => exact List.cons_ne_nil _ _
  | nothing _ none => exact absurd ⟨length, nag, glyph⟩ none

theorem take_eraseDups_ne_nil (some : codes ≠ []) : codes.eraseDups.take inlineLimit ≠ [] := by
  cases codes with
  | nil => exact absurd rfl some
  | cons nag codes =>
    rw [List.eraseDups_cons]
    exact List.cons_ne_nil _ _

/-- From a novelty on the scan meets nothing else. -/
theorem IsNoveltyAt.meets (marked : IsNoveltyAt text place) : Meets text place [.novelty] := by
  have ends : text.length ≤ place + 1 := by
    have size := congrArg List.length marked.last
    rw [List.length_drop, List.length_singleton] at size
    omega
  refine .single (fun other pair => ?_) (.novelty marked) (.finished ends)
  cases pair with
  | listed listed two begins =>
    have size := begins.length_le
    rw [marked.last, two, List.length_singleton] at size
    omega

/-- What is kept of a text when these codes are split off it. Splitting it again finds at most a
novelty at its end, and that only behind a first splitting that found something. -/
structure IsRemainder (kept : Bytes) (codes : List Nag) : Prop where
  glyphs : ∀ place, 2 ≤ place → HasGlyphAt kept place → IsNoveltyAt kept place ∧ codes ≠ []
  again : (∀ place, 2 ≤ place → ¬ HasGlyphAt kept place) ∧ splitInline kept = (kept, []) ∨
    ∃ place, 2 ≤ place ∧ IsNoveltyAt kept place ∧ splitInline kept = (kept.take place, [.novelty])

theorem isRemainder_splitInline (text : Bytes) :
    IsRemainder (splitInline text).1 (splitInline text).2 := by
  rcases splitInline_eq text with ⟨never, kept⟩ | ⟨cut, codes, least, meets, split⟩
  · rw [kept]
    exact ⟨fun place behind here => absurd here (never place behind), .inl ⟨never, kept⟩⟩
  · rw [split]
    have left (place : Nat) (behind : 2 ≤ place) (here : HasGlyphAt (text.take cut) place) :
        IsNoveltyAt (text.take cut) place := by
      rcases hasGlyphAt_of_take here with marked | stood
      · exact marked
      · -- No glyph stands in the text before the cut, and nothing is left behind it.
        have before : cut ≤ place := least.2 ⟨behind, stood⟩
        obtain ⟨length, nag, glyph⟩ := here
        have within := glyph.lt_length
        rw [List.length_take] at within
        omega
    refine ⟨fun place behind here => ⟨left place behind here, ?_⟩, ?_⟩
    · exact take_eraseDups_ne_nil (meets.ne_nil least.1.2)
    · rcases splitInline_eq (text.take cut) with
        ⟨never, kept⟩ | ⟨place, others, first, later, found⟩
      · exact .inl ⟨never, kept⟩
      · have marked := left place first.1.1 first.1.2
        refine .inr ⟨place, first.1.1, marked, ?_⟩
        rw [found, later.unique marked.meets]
        rfl

end Nag

/-! ### The moves of a game -/

/-- The move is what is kept of some text, and the codes split off it come first among its codes. -/
def Move.IsSplitOff (move : Move) : Prop :=
  ∃ text codes, Nag.splitInline text = (move.text, codes) ∧ codes <+: move.nags

/-- In the text of the move no glyph stands behind the first two bytes, except an `N` at the end in
front of glyphs that were split off. -/
def Move.KeepsNoGlyph (move : Move) : Prop :=
  ∀ place, 2 ≤ place → Nag.HasGlyphAt move.text place →
    Nag.IsNoveltyAt move.text place ∧ move.nags ≠ []

theorem Move.IsSplitOff.keepsNoGlyph {move : Move} (split : move.IsSplitOff) :
    move.KeepsNoGlyph := by
  obtain ⟨text, codes, parts, front⟩ := split
  have left := Nag.isRemainder_splitInline text
  rw [parts] at left
  intro place behind here
  obtain ⟨marked, some⟩ := left.glyphs place behind here
  exact ⟨marked, fun none => some (List.prefix_nil.mp (none ▸ front))⟩

namespace Grammar

variable {config : Config}

theorem prefix_noted (config : Config) (held : List Nag) (text : Bytes) :
    held <+: Nag.noted config held text := by
  unfold Nag.noted Nag.put
  split
  · exact List.prefix_rfl
  · split
    · exact List.prefix_append _ _
    · exact List.prefix_rfl

/-- What follows a move leaves the codes it has. -/
theorem prefix_foldl_noted (config : Config) (held : List Nag) (marks : List Bytes) :
    held <+: marks.foldl (Nag.noted config) held := by
  induction marks generalizing held with
  | nil => exact List.prefix_rfl
  | cons mark marks inductionHypothesis =>
    exact (prefix_noted config held mark).trans (inductionHypothesis _)

theorem holds_isSplitOff (extracts : config.extractInlineAnnotations = true) :
    Holds config fun _ _ move => move.IsSplitOff := by
  intro text marks opening own asides
  have split : Nag.splitInline text = Move.split config text := by
    unfold Move.split
    rw [if_pos extracts]
  unfold Move.IsSplitOff
  rw [Move.text_preceded, Move.nags_preceded, Move.text_composed, Move.nags_composed]
  exact ⟨text, _, split, prefix_foldl_noted config _ marks⟩

end Grammar

/-! ### What a reader yields -/

/-- What is kept of a text when glyphs are split off it holds none of the listed glyphs behind its
first two bytes. Splitting it again changes nothing, unless it ends in an `N` that marks a novelty
there: then glyphs were split off behind it, and the second splitting takes this `N` and nothing
else. So where glyphs are split off, no move of a game that a reader returns keeps a glyph behind
its first two bytes, except for such an `N`, and then the move has codes. -/
theorem Reader.split_moves_keep_no_glyph [Hashable HeaderPair] {config : Config}
    (extracts : config.extractInlineAnnotations = true) (lexer : Lexer)
    (requests : List Request) :
    (∀ text, Nag.IsRemainder (Nag.splitInline text).1 (Nag.splitInline text).2) ∧
    ∀ answer ∈ (start config lexer).answers requests, ∀ game ∈ answer.1.game?,
      ∀ turn ∈ game.allTurns, ∀ move ∈ turn.moves, move.KeepsNoGlyph := by
  refine ⟨Nag.isRemainder_splitInline, fun answer member game found turn among move own => ?_⟩
  have split := every_of_answers (Grammar.holds_isSplitOff extracts) lexer requests
  exact (split answer member game found turn among move own).keepsNoGlyph

/-- The texts of the moves of a game, on the main line and in all variations. -/
def Game.texts (game : Game) : List Bytes :=
  game.allTurns.flatMap fun turn => turn.moves.map Move.text

/-- A game with glyphs that overlap in a variation, and one behind an `N` that is no piece. -/
def Source.stacked : Source := .ofBytes (Bytes.ofString "1. Bb5N! (1. d4+-+ e8N?) *")

open scoped PairHash

theorem Reader.split_moves_keep_no_glyph_stacked :
    Config.splitting.extractInlineAnnotations = true ∧
      ∃ answer ∈ (start .splitting (.ofSource .stacked)).answers [.next],
        ∃ game ∈ answer.1.game?,
          game.texts = ["Bb5N", "d4", "e8N"].map Bytes.ofString ∧
          ∀ turn ∈ game.allTurns, ∀ move ∈ turn.moves, move.KeepsNoGlyph := by
  have read : ((start .splitting (.ofSource .stacked)).answers [.next]).any (fun answer =>
      answer.1.game?.any fun game => game.texts = ["Bb5N", "d4", "e8N"].map Bytes.ofString) =
        true := by
    decide +kernel
  obtain ⟨answer, member, returned⟩ := List.any_eq_true.mp read
  obtain ⟨some, shown⟩ := (Option.any_eq_true_iff_get _ _).mp returned
  have extracts : Config.splitting.extractInlineAnnotations = true := rfl
  exact ⟨extracts, answer, member, _, Option.get_mem some, of_decide_eq_true shown,
    (Reader.split_moves_keep_no_glyph extracts (.ofSource .stacked) [.next]).2 answer member _
      (Option.get_mem some)⟩

/-- An `N` in front of a glyph is kept, also in a game, although it marks a novelty once it is the
last byte. -/
theorem Reader.splitting_leaves_novelty :
    Nag.splitInline (Bytes.ofString "Bb5N!") = (Bytes.ofString "Bb5N", [.goodMove]) ∧
    Nag.splitInline (Bytes.ofString "Bb5N") = (Bytes.ofString "Bb5", [.novelty]) ∧
    ((start .splitting (.ofSource (.ofBytes (Bytes.ofString "1. Bb5N! *")))).answers [.next]).map
        (fun answer => answer.1.game?.map Game.texts) = [some [Bytes.ofString "Bb5N"]] := by
  decide +kernel

end Scoresheet
