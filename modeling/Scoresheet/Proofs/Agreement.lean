/-
This file shows that a lexer does not depend on how its source is filled. Two lexers are alike if
the same bytes are still to come, from whatever honest sources, and everything else about them is
the same. As long as neither source fails, the next token leaves them alike.
-/

import Scoresheet.Proofs.Tracking

namespace Scoresheet.Lexer

/-- The same is still to come, and the states are the same but for the sources. -/
structure Alike (first second : Lexer) : Prop where
  honestFirst : first.source.IsHonest
  honestSecond : second.source.IsHonest
  content : first.source.content = second.source.content
  state : { second with source := first.source } = first

variable {first second firstAfter secondAfter : Lexer}

/-- Lexers that are alike track each other from where they are. -/
theorem alike_iff_tracks : first.Alike second ↔ Tracks [] ⟨0, 0⟩ first second := by
  refine ⟨fun alike => ⟨alike.honestFirst, alike.honestSecond, ?_, alike.state⟩,
    fun tracks => ⟨tracks.honestFirst, tracks.honestSecond, ?_, tracks.state⟩⟩
  · rw [List.append_nil, alike.content]
  · rw [tracks.content, List.append_nil]

/-- What does not depend on the source is the same for lexers that are alike. -/
theorem Alike.view {Value : Type} {view : Lexer → Value} (alike : first.Alike second)
    (oblivious : ∀ (lexer : Lexer) (source : Source), view { lexer with source } = view lexer) :
    view first = view second := by
  rw [← alike.state, oblivious]

theorem Alike.advance (alike : first.Alike second)
    (success : Scan.advance.run first = (.ok (), firstAfter))
    (success' : Scan.advance.run second = (.ok (), secondAfter)) :
    firstAfter.Alike secondAfter :=
  alike_iff_tracks.mpr
    ((alike_iff_tracks.mp alike).advance (.inl rfl) success success' (.inl rfl))

end Scoresheet.Lexer
