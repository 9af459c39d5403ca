/-
This file shows that a draft gathers what the grammar states. A draft works its values out step by
step: a number digit by digit, a comment by adding one text after the other, the codes of a move one
annotation at a time. Here each of these comes to the value that the grammar gives for the whole
row, and so does the complete move.
-/

import Mathlib.Data.List.Induction
import Scoresheet.Draft
import Scoresheet.Proofs.Grammar

namespace Scoresheet

/-! ### Numbers -/

namespace Bytes

theorem decimalValue_append (digits : Bytes) (digit : UInt8) :
    decimalValue (digits ++ [digit]) = decimalValue digits * 10 + Ascii.digitValue digit := by
  unfold decimalValue Ascii.digitValue
  rw [List.map_append, List.map_singleton, List.reverse_append, List.reverse_singleton,
    List.singleton_append, Nat.ofDigits_cons]
  omega

/-- Cutting after each digit comes to the same as cutting the whole value. -/
theorem boundedNumber_eq (largest : Nat) (digits : Bytes) :
    boundedNumber largest digits = min (decimalValue digits) largest := by
  induction digits using List.reverseRecOn with
  | nil => exact (Nat.zero_min largest).symm
  | append_singleton digits digit inductionHypothesis =>
    rw [decimalValue_append]
    unfold boundedNumber at inductionHypothesis ⊢
    rw [List.foldl_append, inductionHypothesis]
    show min (min (decimalValue digits) largest * 10 + _) largest = _
    omega

end Bytes

/-- A turn is given the number its digits write. -/
theorem Grammar.ofNat_boundedNumber (digits : Bytes) :
    UInt32.ofNat (Bytes.boundedNumber LineDraft.largestNumber digits) = number digits := by
  rw [Bytes.boundedNumber_eq]
  rfl

/-! ### Comments -/

namespace Comment

theorem tidy_eq_kept (config : Config) (text : Bytes) : tidy config text = kept config text := by
  have same : Ascii.isTrimmed = blanks.contains := by
    funext byte
    simp only [Ascii.isTrimmed, Ascii.isSpace, blanks, List.contains_cons, List.contains_nil,
      Bool.or_false]
    ac_rfl
  have trimmed : text.trim = (text.dropWhile blanks.contains).rdropWhile blanks.contains := by
    rw [← same]
    rfl
  cases limit : config.commentMaxLength with
  | none => simp only [tidy, kept, limit, trimmed]
  | some length => simp only [tidy, kept, limit, trimmed]

variable {config : Config}

theorem joined_nil : joined config [] = none := if_pos (.inr rfl)

theorem joined_of_skip (skips : config.skip.comments = true) (texts : List Bytes) :
    joined config texts = none := if_pos (.inl skips)

theorem joined_of_ne_nil (keeps : config.skip.comments = false) {texts : List Bytes}
    (some : texts ≠ []) : joined config texts = Option.some (texts.flatMap (kept config)) :=
  if_neg (not_or.mpr ⟨by rw [keeps]; exact Bool.false_ne_true, some⟩)

/-- One more comment. -/
theorem add_joined (config : Config) (texts : List Bytes) (text : Bytes) :
    add config (joined config texts) text = joined config (texts ++ [text]) := by
  unfold add
  cases skips : config.skip.comments with
  | true => rw [if_pos rfl, joined_of_skip skips, joined_of_skip skips]
  | false =>
    rw [if_neg Bool.false_ne_true, joined_of_ne_nil skips (List.append_ne_nil_of_right_ne_nil _
      (List.cons_ne_nil _ _)), List.flatMap_append, List.flatMap_singleton, tidy_eq_kept]
    by_cases none : texts = []
    · rw [none, joined_nil]
      rfl
    · rw [joined_of_ne_nil skips none]
      rfl

/-- Adding comments one by one comes to the same as joining them. -/
theorem foldl_add (config : Config) (earlier texts : List Bytes) :
    texts.foldl (add config) (joined config earlier) = joined config (earlier ++ texts) := by
  induction texts generalizing earlier with
  | nil => rw [List.append_nil, List.foldl_nil]
  | cons text rest inductionHypothesis =>
    rw [List.foldl_cons, add_joined, inductionHypothesis, List.append_assoc, List.singleton_append]

theorem joined_eq (config : Config) (texts : List Bytes) :
    texts.foldl (add config) none = joined config texts := by
  rw [← @joined_nil config, foldl_add, List.nil_append]

end Comment

/-! ### Codes -/

namespace Nag

/-- The codes with that of an annotation, or the annotation that is refused. Once the limit is
reached annotations are ignored, whatever they are. -/
def gather (config : Config) (held : List Nag) (text : Bytes) : Except Bytes (List Nag) :=
  if config.annotationLimit ≤ held.length then .ok held
  else
    match Nag.ofText? text with
    | some nag => .ok (put config held nag)
    | none => if config.nullOnInvalidNag then .ok (put config held .null) else .error text

/-- What is not refused is noted. -/
theorem gather_eq_noted_or (config : Config) (held : List Nag) (text : Bytes) :
    gather config held text = .ok (noted config held text) ∨
      config.nullOnInvalidNag = false ∧ gather config held text = .error text := by
  unfold gather noted
  split
  · exact .inl rfl
  · cases Nag.ofText? text with
    | some nag => exact .inl rfl
    | none =>
      cases config.nullOnInvalidNag with
      | true => exact .inl rfl
      | false => exact .inr ⟨rfl, rfl⟩

end Nag

/-! ### Moves -/

namespace Move

theorem withDetails_eq_of (text : Bytes) (comment : Option Bytes) (nags : List Nag)
    (variations : List Line) :
    withDetails text comment nags variations = .of text comment nags variations := by
  cases comment <;> cases nags <;> cases variations <;> rfl

section WithDetails

variable (text : Bytes) (comment : Option Bytes) (nags : List Nag) (variations : List Line)

@[simp] theorem text_withDetails : (withDetails text comment nags variations).text = text := by
  rw [withDetails_eq_of, text_of]

@[simp] theorem comment_withDetails :
    (withDetails text comment nags variations).comment = comment := by
  rw [withDetails_eq_of, comment_of]

@[simp] theorem nags_withDetails : (withDetails text comment nags variations).nags = nags := by
  rw [withDetails_eq_of, nags_of]

@[simp] theorem variations_withDetails :
    (withDetails text comment nags variations).variations = variations := by
  rw [withDetails_eq_of, variations_of]

theorem isBare_withDetails_iff :
    (withDetails text comment nags variations).isBare = true ↔
      comment = none ∧ nags = [] ∧ variations = [] := by
  rw [withDetails_eq_of]
  exact isBare_of_iff ..

end WithDetails

theorem withDetails_of_some {text : Bytes} {comment : Option Bytes} {nags : List Nag}
    {variations : List Line}
    (something : (comment.isSome || !nags.isEmpty || !variations.isEmpty) = true) :
    withDetails text comment nags variations = ⟨text, some ⟨comment, nags, variations⟩⟩ := by
  match comment, nags, variations with
  | none, [], [] => cases something
  | some _, _, _ => rfl
  | none, _ :: _, _ => rfl
  | none, [], _ :: _ => rfl

section Composed

variable (config : Config) (text : Bytes) (marks remarks : List Bytes) (asides : List Line)

@[simp] theorem text_composed :
    (composed config text marks remarks asides).text = (split config text).1 :=
  text_withDetails ..

@[simp] theorem nags_composed :
    (composed config text marks remarks asides).nags =
      marks.foldl (Nag.noted config) (split config text).2 :=
  nags_withDetails ..

@[simp] theorem variations_composed :
    (composed config text marks remarks asides).variations = Line.kept config asides :=
  variations_withDetails ..

theorem comment_composed_of_plain (plain : config.annotationTemplate = none) :
    (composed config text marks remarks asides).comment = Comment.joined config remarks := by
  unfold composed
  dsimp only
  rw [comment_withDetails, plain]
  rfl

theorem comment_composed_of_template {template : String}
    (set : config.annotationTemplate = some template) :
    (composed config text marks remarks asides).comment =
      Comment.glossed (Bytes.ofString template) (Comment.joined config remarks)
        (Nag.rendered (Bytes.ofString template)
          (composed config text marks remarks asides).nags) := by
  rw [nags_composed]
  unfold composed
  dsimp only
  rw [comment_withDetails, set]
  rfl

/-- A complete move is bare if nothing follows it. -/
theorem isBare_composed_iff :
    (composed config text marks remarks asides).isBare = true ↔
      (composed config text marks remarks asides).comment = none ∧
        (composed config text marks remarks asides).nags = [] ∧
        (composed config text marks remarks asides).variations = [] := by
  unfold composed
  dsimp only
  rw [isBare_withDetails_iff, comment_withDetails, nags_withDetails, variations_withDetails]

end Composed

/-- Nothing but the comment changes. -/
@[simp] theorem text_preceded (leading : Option Bytes) (move : Move) :
    (move.preceded leading).text = move.text := by
  match leading, move with
  | none, _ => rfl
  | some _, ⟨_, none⟩ => rfl
  | some _, ⟨_, some ⟨_, _, _⟩⟩ => rfl

@[simp] theorem nags_preceded (leading : Option Bytes) (move : Move) :
    (move.preceded leading).nags = move.nags := by
  match leading, move with
  | none, _ => rfl
  | some _, ⟨_, none⟩ => rfl
  | some _, ⟨_, some ⟨_, _, _⟩⟩ => rfl

@[simp] theorem variations_preceded (leading : Option Bytes) (move : Move) :
    (move.preceded leading).variations = move.variations := by
  match leading, move with
  | none, _ => rfl
  | some _, ⟨_, none⟩ => rfl
  | some _, ⟨_, some ⟨_, _, _⟩⟩ => rfl

theorem preceded_some (opening : Bytes) (move : Move) :
    move.preceded (some opening) = move.prependComment opening := by
  match move with
  | ⟨_, none⟩ => simp [preceded, prependComment]
  | ⟨_, some ⟨_, _, _⟩⟩ => rfl

end Move

namespace MoveDraft

variable {config : Config}

theorem start_eq (config : Config) (text : Bytes) :
    start config text = ⟨(Move.split config text).1, none, (Move.split config text).2, []⟩ := by
  unfold start Move.split
  split <;> rfl

/-- One annotation changes nothing but the codes. -/
theorem annotate_eq_gather (config : Config) (token : Token) (draft : MoveDraft) :
    draft.annotate config token =
      match Nag.gather config draft.nags token.text with
      | .ok nags => .ok { draft with nags }
      | .error refused => .error (.invalidNag refused token.position) := by
  have added (nag : Nag) : draft.addNag config nag =
      { draft with nags := Nag.put config draft.nags nag } := by
    unfold addNag Nag.put
    split <;> rfl
  unfold annotate Nag.gather
  by_cases room : draft.nags.length < config.annotationLimit
  · rw [if_pos room, if_neg (Nat.not_le_of_lt room)]
    cases Nag.ofText? token.text with
    | some nag => exact congrArg Except.ok (added nag)
    | none =>
      cases config.nullOnInvalidNag with
      | true => exact congrArg Except.ok (added .null)
      | false => rfl
  · rw [if_neg room, if_pos (Nat.le_of_not_lt room)]

/-- The move with the code of an annotation. -/
def note (config : Config) (mark : Bytes) (draft : MoveDraft) : MoveDraft :=
  { draft with nags := Nag.noted config draft.nags mark }

/-- An annotation is noted, unless it is refused. -/
theorem annotate_eq_note_or (config : Config) (token : Token) (draft : MoveDraft) :
    draft.annotate config token = .ok (draft.note config token.text) ∨
      config.nullOnInvalidNag = false ∧ ∃ error, draft.annotate config token = .error error := by
  rw [annotate_eq_gather]
  rcases Nag.gather_eq_noted_or config draft.nags token.text with noted | ⟨strict, refused⟩
  · rw [noted]
    exact .inl rfl
  · rw [refused]
    exact .inr ⟨strict, _, rfl⟩

theorem eq_of_annotate {token : Token} {draft later : MoveDraft}
    (done : draft.annotate config token = .ok later) : later = draft.note config token.text := by
  rcases annotate_eq_note_or config token draft with noted | ⟨_, error, refused⟩
  · exact Except.ok.inj (done.symm.trans noted)
  · cases done.symm.trans refused

/-- The move with more of each kind behind it. -/
def behind (config : Config) (nags : List Nag) (remarks : List Bytes) (lines : List Line)
    (draft : MoveDraft) : MoveDraft where
  text := draft.text
  comment := remarks.foldl (Comment.add config) draft.comment
  nags := nags
  variations := (Line.kept config lines).reverse ++ draft.variations

theorem kept_nil : Line.kept config [] = [] := by
  unfold Line.kept
  split <;> rfl

theorem behind_nil (draft : MoveDraft) : draft.behind config draft.nags [] [] = draft := by
  unfold behind
  rw [kept_nil]
  rfl

/-- The move with the rows of what follows it. -/
def followed (config : Config) (marks remarks : List Bytes) (asides : List Line)
    (draft : MoveDraft) : MoveDraft :=
  draft.behind config (marks.foldl (Nag.noted config) draft.nags) remarks asides

section Followed

variable (marks remarks : List Bytes) (asides : List Line) (draft : MoveDraft)

theorem followed_nil : draft.followed config [] [] [] = draft := behind_nil draft

theorem note_followed (mark : Bytes) :
    (draft.followed config marks remarks asides).note config mark =
      draft.followed config (marks ++ [mark]) remarks asides := by
  unfold followed behind note
  rw [List.foldl_append]
  rfl

theorem addComment_followed (text : Bytes) :
    (draft.followed config marks remarks asides).addComment config text =
      draft.followed config marks (remarks ++ [text]) asides := by
  unfold addComment followed behind
  rw [List.foldl_append]
  rfl

theorem addVariation_followed (line : Line) :
    (draft.followed config marks remarks asides).addVariation config line =
      draft.followed config marks remarks (asides ++ [line]) := by
  unfold addVariation followed behind Line.kept
  cases skips : config.skip.variations with
  | true => simp
  | false =>
    cases empty : line.isEmpty with
    | true => simp [empty]
    | false => simp [empty]

end Followed

/-- The descriptions are added to the comments behind the move with the separator. -/
theorem describe_eq_glossed (separator : Bytes) (nags : List Nag) (comment : Option Bytes) :
    describe separator nags comment =
      Comment.glossed separator comment (Nag.rendered separator nags) := by
  unfold describe Comment.glossed
  cases Nag.rendered separator nags with
  | none => rfl
  | some described =>
    match comment with
    | none => rfl
    | some [] => rfl
    | some (byte :: rest) => rfl

theorem comment_behind (text : Bytes) (nags : List Nag) (remarks : List Bytes)
    (lines : List Line) :
    ((start config text).behind config nags remarks lines).comment =
      Comment.joined config remarks := by
  rw [start_eq]
  exact Comment.joined_eq config remarks

theorem variations_behind (text : Bytes) (nags : List Nag) (remarks : List Bytes)
    (lines : List Line) :
    ((start config text).behind config nags remarks lines).variations.reverse =
      Line.kept config lines := by
  rw [start_eq]
  unfold behind
  rw [List.append_nil, List.reverse_reverse]

/-- The complete move is the one the grammar states. -/
theorem finish_followed (config : Config) (text : Bytes) (marks remarks : List Bytes)
    (asides : List Line) :
    ((start config text).followed config marks remarks asides).finish config =
      .composed config text marks remarks asides := by
  unfold finish Move.composed followed
  simp only [comment_behind, variations_behind, Move.withDetails_eq_of, describe_eq_glossed]
  rw [start_eq]
  cases config.annotationTemplate <;> rfl

end MoveDraft

/-! ### Turns -/

namespace Grammar

theorem led_none (turns : Line) : led none turns = turns := by
  match turns with
  | [] => rfl
  | .whiteOnly _ _ :: _ => rfl
  | .blackOnly _ _ :: _ => rfl
  | .both _ _ _ :: _ => rfl

theorem led_some (opening : Bytes) (turns : Line) :
    led (some opening) turns = turns.prependComment opening := by
  match turns with
  | [] => rfl
  | .whiteOnly _ _ :: _ => simp [led, Line.prependComment, Turn.mapFirst, Move.preceded_some]
  | .blackOnly _ _ :: _ => simp [led, Line.prependComment, Turn.mapFirst, Move.preceded_some]
  | .both _ _ _ :: _ => simp [led, Line.prependComment, Turn.mapFirst, Move.preceded_some]

theorem finish_eq_led (branch : Branch) (turns : List Turn) :
    branch.finish turns = led branch.leading turns.reverse := by
  unfold Branch.finish
  cases branch.leading with
  | none => exact (led_none _).symm
  | some opening => exact (led_some opening _).symm

end Grammar

end Scoresheet
