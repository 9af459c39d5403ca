/-
This file says what may stand between two tokens: white space and escaped lines, each of which ends
with its line feed. Such a gap is passed whole, so what comes behind it is found as if the search
had begun there.
-/

import Scoresheet.Proofs.Agreement

namespace Scoresheet

namespace Place

/-- Whether a text that stands at the given place is white space and escaped lines that end within
it. The first argument tells whether the text begins inside an escaped line. -/
def isGap : Bool → Place → Bytes → Bool
  | inLine, _, [] => !inLine
  | true, place, byte :: rest => isGap (byte != Ascii.lineFeed) (place.next byte) rest
  | false, place, byte :: rest =>
    if Ascii.isSpace byte then isGap false (place.next byte) rest
    else decide (byte = Ascii.percent ∧ place.atLineStart) && isGap true (place.next byte) rest

variable {inLine : Bool} {place : Place} {gap : Bytes}

/-- Behind a gap the blanks go on. -/
theorem blanks_gap (isGap : isGap inLine place gap = true) (rest : Bytes) :
    blanks inLine place (gap ++ rest) = gap ++ blanks false (place.pass gap) rest := by
  induction gap generalizing inLine place with
  | nil =>
    cases inLine with
    | true => cases isGap
    | false => rfl
  | cons byte gap inductionHypothesis =>
    cases inLine with
    | true => exact congrArg (byte :: ·) (inductionHypothesis isGap)
    | false =>
      unfold Place.isGap at isGap
      split at isGap
      · next space =>
        rw [List.cons_append, blanks_space space, inductionHypothesis isGap]
        rfl
      · next significant =>
        obtain ⟨escape, line⟩ := Bool.and_eq_true_iff.mp isGap
        rw [List.cons_append, blanks, if_neg significant, if_pos (of_decide_eq_true escape),
          inductionHypothesis line]
        rfl

/-- A gap is white space, or an escaped line comes first. -/
theorem head_gap {byte : UInt8} (isGap : isGap false place (byte :: gap) = true) :
    Ascii.isSpace byte = true ∨ byte = Ascii.percent := by
  unfold Place.isGap at isGap
  split at isGap
  · next space => exact .inl space
  · exact .inr (of_decide_eq_true (Bool.and_eq_true_iff.mp isGap).1).1

/-- A gap is no longer than the blanks it begins. -/
theorem gap_prefix_blanks (isGap : isGap false place gap = true) {text rest : Bytes}
    (content : text = gap ++ rest) : gap <+: blanks false place text := by
  rw [content, blanks_gap isGap]
  exact List.prefix_append _ _

end Place

end Scoresheet
