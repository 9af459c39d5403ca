/-
This file says how far the limits on annotations and on the length of comments reach. Both hold of
what is added and not of what it is added to. An annotation is dropped once a move has as many codes
as the limit allows, but the glyphs that are split off a move are never counted against it, so a
move has more codes than that if these are more. A comment is cut on its own before it is joined
with those before it, so what comes of several comments is as long as they are together.

Every comment belongs to one move or to the game, which makes the second bound exact: it has one
term for every comment that was read.
-/

import Mathlib.Algebra.Group.Action.Defs
import Mathlib.Algebra.Order.BigOperators.Group.List
import Scoresheet.Cache.PairHash
import Scoresheet.Proofs.Glosses

namespace Scoresheet

/-! ### How many codes there can be -/

namespace Nag

theorem length_addOnce_le (nags : List Nag) (nag : Nag) :
    (addOnce nags nag).length ≤ nags.length + 1 := by
  unfold addOnce
  split
  · exact Nat.le_succ _
  · exact Nat.le_of_eq List.length_append

/-- The codes of the glyphs are few, since the search stops when there are enough. -/
theorem length_gatherInline_le {first previous : UInt8} {passing : Nat} {nags : List Nag}
    {text : Bytes} (few : nags.length ≤ inlineLimit) :
    (gatherInline first passing nags previous text).length ≤ inlineLimit := by
  fun_induction gatherInline first passing nags previous text with
  | case1 => exact few
  | case2 nags previous passing byte rest inductionHypothesis => exact inductionHypothesis few
  | case3 => exact few
  | case4 nags previous byte rest room length nag found inductionHypothesis =>
    exact inductionHypothesis
      ((length_addOnce_le nags nag).trans (Nat.succ_le_of_lt (Nat.lt_of_not_le room)))
  | case5 nags previous byte rest room none inductionHypothesis => exact inductionHypothesis few

theorem length_splitAtGlyph_le (first previous : UInt8) (text : Bytes) :
    (splitAtGlyph first previous text).2.length ≤ inlineLimit := by
  fun_induction splitAtGlyph first previous text with
  | case1 => exact Nat.zero_le _
  | case2 => exact length_gatherInline_le (Nat.zero_le _)
  | case3 previous byte rest _ kept nags split inductionHypothesis =>
    rw [split] at inductionHypothesis
    exact inductionHypothesis

theorem length_splitInline_le (text : Bytes) : (splitInline text).2.length ≤ inlineLimit := by
  unfold splitInline
  split
  · next first second rest => exact length_splitAtGlyph_le first second rest
  · exact Nat.zero_le _

theorem length_put_le (config : Config) (held : List Nag) (nag : Nag) :
    (put config held nag).length ≤ held.length + 1 := by
  unfold put
  split
  · exact Nat.le_of_eq List.length_append
  · exact Nat.le_succ _

/-- An annotation is added only where there is room for it. -/
theorem length_noted (config : Config) (held : List Nag) (text : Bytes) :
    (noted config held text).length ≤ config.annotationLimit ∨ noted config held text = held := by
  unfold noted
  split
  · exact .inr rfl
  · next room =>
    exact .inl ((length_put_le config held _).trans (Nat.succ_le_of_lt (Nat.lt_of_not_le room)))

/-- Annotations add codes up to the limit, or none at all. -/
theorem length_foldl_noted (config : Config) (held : List Nag) (marks : List Bytes) :
    (marks.foldl (noted config) held).length ≤ config.annotationLimit ∨
      marks.foldl (noted config) held = held := by
  induction marks using List.reverseRecOn with
  | nil => exact .inr rfl
  | append_singleton marks mark inductionHypothesis =>
    rw [List.foldl_append]
    show (noted config _ mark).length ≤ _ ∨ noted config _ mark = held
    rcases length_noted config (marks.foldl (noted config) held) mark with few | same
    · exact .inl few
    · rw [same]
      exact inductionHypothesis

end Nag

/-- The move has no more codes than the limit allows, unless they are those of the glyphs that were
split off it and nothing else. -/
def Move.IsWithinLimit (config : Config) (move : Move) : Prop :=
  move.nags.length ≤ config.annotationLimit ∨
    (config.extractInlineAnnotations = true ∧ move.nags.length ≤ Nag.inlineLimit ∧
      ∃ text, Nag.splitInline text = (move.text, move.nags))

namespace Grammar

variable {config : Config}

theorem holds_isWithinLimit (config : Config) :
    Holds config fun _ _ move => move.IsWithinLimit config := by
  intro text marks opening own asides
  unfold Move.IsWithinLimit
  rw [Move.text_preceded, Move.nags_preceded, Move.text_composed, Move.nags_composed]
  rcases Nag.length_foldl_noted config (Move.split config text).2 marks with few | same
  · exact .inl few
  · rw [same]
    unfold Move.split
    cases extracts : config.extractInlineAnnotations with
    | false => exact .inl (Nat.zero_le _)
    | true => exact .inr ⟨rfl, Nag.length_splitInline_le text, text, rfl⟩

/-! ### All moves of a game -/

/-- What holds of all moves of a line, at every depth. -/
def EveryMove (holds : Move → Prop) (line : Line) : Prop :=
  ∀ turn ∈ lineTurns line, ∀ move ∈ turn.moves, holds move

/-- What holds of a move and of all moves inside it. -/
def Throughout (holds : Move → Prop) (move : Move) : Prop :=
  holds move ∧ ∀ line ∈ move.variations, EveryMove holds line

variable {holds : Move → Prop}

/-- The moves of a line are those of its turns and the moves inside them. -/
theorem everyMove_of_throughout {line : Line}
    (all : ∀ move ∈ line.flatMap Turn.moves, Throughout holds move) : EveryMove holds line := by
  intro turn member move own
  obtain ⟨outer, among, inside⟩ := mem_lineTurns.mp member
  have outerMoves (move : Move) (own : move ∈ outer.moves) : Throughout holds move :=
    all move (List.mem_flatMap.mpr ⟨outer, among, own⟩)
  have deeper (first : Move) (own : first ∈ outer.moves) (inner : turn ∈ first.innerTurns) :
      holds move := by
    obtain ⟨line, variation, within⟩ := Move.mem_innerTurns.mp inner
    exact (outerMoves first own).2 line variation turn within move ‹_›
  cases outer with
  | whiteOnly number white =>
    rcases List.mem_cons.mp inside with rfl | inner
    · exact (outerMoves move own).1
    · exact deeper white (by simp [Turn.moves, Turn.white?]) inner
  | blackOnly number black =>
    rcases List.mem_cons.mp inside with rfl | inner
    · exact (outerMoves move own).1
    · exact deeper black (by simp [Turn.moves, Turn.black?]) inner
  | both number white black =>
    rcases List.mem_cons.mp inside with rfl | inner
    · exact (outerMoves move own).1
    · rcases List.mem_append.mp inner with early | late
      · exact deeper white (by simp [Turn.moves, Turn.white?]) early
      · exact deeper black (by simp [Turn.moves, Turn.black?]) late

/-- What holds of the moves of a passage, at every depth. -/
def Passage.Every (holds : Move → Prop) : Passage → Prop
  | .items _ asides => ∀ line ∈ asides, EveryMove holds line
  | .half _ move => Throughout holds move
  | .row _ _ moves => ∀ move ∈ moves, Throughout holds move
  | .variation line => EveryMove holds line

/-- What is asked of each move holds of all, at every depth. -/
theorem EachMove.every {asked : List Bytes → List Bytes → Move → Prop} {passage : Passage}
    {tokens : List Token} (each : EachMove config asked passage tokens)
    (implies : ∀ opening own move, asked opening own move → holds move) : passage.Every holds := by
  induction each with
  | noItems => exact List.forall_mem_nil _
  | nag before kind inductionHypothesis => exact inductionHypothesis
  | remark before next inductionHypothesis => exact inductionHypothesis
  | aside before next itemsHypothesis variationHypothesis =>
    exact List.forall_mem_append.mpr
      ⟨itemsHypothesis, List.forall_mem_singleton.mpr variationHypothesis⟩
  | half kind written followed kept met inductionHypothesis =>
    refine ⟨implies _ _ _ met, fun line member => ?_⟩
    rw [kept] at member
    exact inductionHypothesis line (Move.mem_kept member).1
  | noMoves => exact List.forall_mem_nil _
  | counted before kind inductionHypothesis => exact inductionHypothesis
  | closed before kind inductionHypothesis => exact inductionHypothesis
  | firstMove before next rowHypothesis moveHypothesis =>
    exact List.forall_mem_singleton.mpr moveHypothesis
  | laterMove before some next rowHypothesis moveHypothesis =>
    exact List.forall_mem_append.mpr
      ⟨rowHypothesis, List.forall_mem_singleton.mpr moveHypothesis⟩
  | variation opens matched comments inner closes inductionHypothesis =>
    exact everyMove_of_throughout inductionHypothesis

end Grammar

/-! ### How long comments can be -/

/-- The comment consists of the texts, each as it is kept, and these are cut: it is no longer than
as many limits as there are texts. -/
structure Comment.IsCut (config : Config) (limit : Nat) (texts : List Bytes)
    (comment : Option Bytes) : Prop where
  joined : comment = Comment.joined config texts
  each : ∀ text ∈ texts, (Comment.kept config text).length ≤ limit
  length : (comment.getD []).length ≤ texts.length * limit

namespace Comment

variable {config : Config} {limit : Nat}

theorem length_kept_le (set : config.commentMaxLength = some limit) (text : Bytes) :
    (kept config text).length ≤ limit := by
  unfold kept
  rw [set]
  exact List.length_take_le _ _

theorem isCut_joined (set : config.commentMaxLength = some limit) (texts : List Bytes) :
    IsCut config limit texts (joined config texts) where
  joined := rfl
  each text _ := length_kept_le set text
  length := by
    unfold Comment.joined
    split
    · exact Nat.zero_le _
    · have bound := List.sum_le_card_nsmul (texts.map fun text => (kept config text).length) limit
        (List.forall_mem_map.mpr fun text _ => length_kept_le set text)
      rw [List.length_map, smul_eq_mul] at bound
      rwa [Option.getD_some, List.length_flatMap]

end Comment

namespace Grammar

/-- Where no descriptions are added, the comment of a move consists of cut comments. -/
theorem holds_isCut {config : Config} {limit : Nat} (plain : config.annotationTemplate = none)
    (set : config.commentMaxLength = some limit) :
    Holds config fun opening own move =>
      Comment.IsCut config limit (opening ++ own) move.comment := by
  intro text marks opening own asides
  rw [Move.comment_preceded, Move.comment_composed_of_plain _ _ _ _ _ plain,
    Comment.preceded_joined]
  exact Comment.isCut_joined set _

end Grammar

/-! ### What a reader yields -/

namespace Reader

variable [Hashable HeaderPair]

open Grammar in
/-- In every game that a reader returns, what is asked holds of each move, and the comment of the
game consists of those in front of its movetext. -/
theorem eachMove_of_answers {config : Config} {asked : List Bytes → List Bytes → Move → Prop}
    (holds : Holds config asked) (lexer : Lexer) (requests : List Request) :
    ∀ answer ∈ (start config lexer).answers requests, ∀ game ∈ answer.1.game?,
      ∃ count front texts moves marker,
        (lexer.ahead count).segment.1 = front ++ moves ++ [marker] ∧
        Preamble front texts ∧ game.comment = Comment.joined config texts ∧
        (config.skip.moves = true → game.moves = []) ∧
        (config.skip.moves = false →
          EachMove config asked (.row [] 0 (game.moves.flatMap Turn.moves)) moves) := by
  intro answer member game found
  obtain ⟨count, inner, marker, whole, yields⟩ := yields_of_answers member found
  obtain ⟨front, moves, rfl, ⟨texts, preamble, remarks⟩, derived⟩ := yields.parts
  refine ⟨count, front, texts, moves, marker, whole, preamble,
    remarks, yields.leftOut, fun kept => ?_⟩
  have extended : Extends config asked 0 (game.moves.flatMap Turn.moves) moves :=
    attributes_of_holds holds (derived kept)
  have row := extended.row []
  rwa [Comment.joined_nil, Move.opened_none] at row

open Grammar in
/-- What holds of each move with what derives behind it holds of all moves that a reader returns, on
the main line and in all variations. -/
theorem every_of_answers {config : Config} {asked : Move → Prop}
    (holds : Holds config fun _ _ move => asked move) (lexer : Lexer) (requests : List Request) :
    ∀ answer ∈ (start config lexer).answers requests, ∀ game ∈ answer.1.game?,
      ∀ turn ∈ game.allTurns, ∀ move ∈ turn.moves, asked move := by
  intro answer member game found
  obtain ⟨_, _, _, _, _, _, _, _, leftOut, each⟩ :=
    eachMove_of_answers holds lexer requests answer member game found
  cases skips : config.skip.moves with
  | true =>
    unfold Game.allTurns
    rw [leftOut skips]
    exact List.forall_mem_nil _
  | false =>
    exact everyMove_of_throughout ((each skips).every fun _ _ _ met => met)

/-- In every game that a reader returns, on the main line and in all variations, a move has at most
as many codes as the limit allows, unless all its codes are those of glyphs that were split off
it. -/
theorem nags_within_limit (config : Config) (lexer : Lexer) (requests : List Request) :
    ∀ answer ∈ (start config lexer).answers requests, ∀ game ∈ answer.1.game?,
      ∀ turn ∈ game.allTurns, ∀ move ∈ turn.moves, move.IsWithinLimit config :=
  every_of_answers (Grammar.holds_isWithinLimit config) lexer requests

end Reader

/-- A game with more annotations than two behind both of its moves, and a glyph written against the
first. -/
def Source.annotated : Source := .ofBytes (Bytes.ofString "1. e4! $14 $15 (1. d4 $1 $2 $3) *")

open scoped PairHash

theorem Reader.nags_within_limit_annotated :
    ∃ answer ∈ (start Grammar.frugal (.ofSource .annotated)).answers [.next],
      ∃ game ∈ answer.1.game?,
        game.remarks = [(none, [.goodMove, ⟨14⟩]), (none, [.goodMove, .mistake])] ∧
        ∀ turn ∈ game.allTurns, ∀ move ∈ turn.moves, move.IsWithinLimit Grammar.frugal := by
  have read : ((start Grammar.frugal (.ofSource .annotated)).answers [.next]).any (fun answer =>
      answer.1.game?.any fun game =>
        game.remarks = [(none, [.goodMove, ⟨14⟩]), (none, [.goodMove, .mistake])]) = true := by
    decide +kernel
  obtain ⟨answer, member, returned⟩ := List.any_eq_true.mp read
  obtain ⟨some, shown⟩ := (Option.any_eq_true_iff_get _ _).mp returned
  exact ⟨answer, member, _, Option.get_mem some, of_decide_eq_true shown,
    Reader.nags_within_limit Grammar.frugal (.ofSource .annotated) [.next] answer member _
      (Option.get_mem some)⟩

/-- Settings that split glyphs off and allow for no codes. -/
def Config.splittingNone : Config := { Config.splitting with annotationLimit := 0 }

/-- A game with a glyph written against its first move, and an annotation behind it. -/
def Source.glyph : Source := .ofBytes (Bytes.ofString "1. e4! $14 *")

/-- The glyph is kept where the limit is zero, and the annotation is dropped. -/
theorem Reader.nags_beyond_limit :
    ((start .splittingNone (.ofSource .glyph)).answers [.next]).map
        (fun answer => answer.1.game?.map Game.remarks) = [some [(none, [.goodMove])]] ∧
      ¬ [Nag.goodMove].length ≤ Config.splittingNone.annotationLimit := by
  decide +kernel

open Grammar in
/-- In every game that a reader returns, on the main line and in all variations, the comment of a
move consists of the comments that belong to it, each cut to the limit on its own, and so does the
comment of the game. It is no longer than the limits of its parts together. -/
theorem Reader.comments_within_limits [Hashable HeaderPair] {config : Config} {limit : Nat}
    (plain : config.annotationTemplate = none) (set : config.commentMaxLength = some limit)
    (lexer : Lexer) (requests : List Request) :
    ∀ answer ∈ (start config lexer).answers requests, ∀ game ∈ answer.1.game?,
      ∃ count front texts moves marker,
        (lexer.ahead count).segment.1 = front ++ moves ++ [marker] ∧
        Preamble front texts ∧ Comment.IsCut config limit texts game.comment ∧
        (config.skip.moves = true → game.moves = []) ∧
        (config.skip.moves = false →
          EachMove config
            (fun opening own move => Comment.IsCut config limit (opening ++ own) move.comment)
            (.row [] 0 (game.moves.flatMap Turn.moves)) moves) := by
  intro answer member game found
  obtain ⟨count, front, texts, moves, marker, whole, preamble, remarks, leftOut, each⟩ :=
    eachMove_of_answers (holds_isCut plain set) lexer requests answer member game found
  refine ⟨count, front, texts, moves, marker, whole, preamble, ?_, leftOut, each⟩
  rw [remarks]
  exact Comment.isCut_joined set texts

/-- Settings that cut comments to four bytes. -/
def Config.shortening : Config := { Config.standard with commentMaxLength := some 4 }

/-- A game with two comments in front of its movetext, and others in front of and behind the first
move of a variation. -/
def Source.wordy : Source :=
  .ofBytes (Bytes.ofString "{first} [A \"b\"] {second} 1. e4 ({third} 1. d4 {x} $1 {fourth}) *")

theorem Reader.comments_within_limits_wordy :
    Config.shortening.annotationTemplate = none ∧ Config.shortening.commentMaxLength = some 4 ∧
      ∃ answer ∈ (start .shortening (.ofSource .wordy)).answers [.next],
        ∃ game ∈ answer.1.game?,
          game.comment = some (Bytes.ofString "firsseco") ∧
          game.remarks = [(none, []), (some (Bytes.ofString "thirxfour"), [.goodMove])] ∧
          ∃ count front texts moves marker,
            ((Lexer.ofSource .wordy).ahead count).segment.1 = front ++ moves ++ [marker] ∧
            Grammar.Preamble front texts ∧ Comment.IsCut .shortening 4 texts game.comment ∧
            (Config.shortening.skip.moves = true → game.moves = []) ∧
            (Config.shortening.skip.moves = false →
              Grammar.EachMove .shortening
                (fun opening own move => Comment.IsCut .shortening 4 (opening ++ own) move.comment)
                (.row [] 0 (game.moves.flatMap Turn.moves)) moves) := by
  have read : ((start .shortening (.ofSource .wordy)).answers [.next]).any (fun answer =>
      answer.1.game?.any fun game =>
        game.comment = some (Bytes.ofString "firsseco") ∧
          game.remarks = [(none, []), (some (Bytes.ofString "thirxfour"), [.goodMove])]) = true := by
    decide +kernel
  obtain ⟨answer, member, returned⟩ := List.any_eq_true.mp read
  obtain ⟨some, shown⟩ := (Option.any_eq_true_iff_get _ _).mp returned
  obtain ⟨remark, remarks⟩ := of_decide_eq_true shown
  exact ⟨rfl, rfl, answer, member, _, Option.get_mem some, remark, remarks,
    Reader.comments_within_limits (show Config.shortening.annotationTemplate = _ from rfl)
      (show Config.shortening.commentMaxLength = _ from rfl) (.ofSource .wordy) [.next] answer member _
      (Option.get_mem some)⟩

/-- The comment of a move is longer than the limit if it consists of two. -/
theorem Reader.comments_beyond_limit :
    ((start .shortening (.ofSource (.ofBytes
        (Bytes.ofString "1. e4 {abcdef} {ghijkl} *")))).answers [.next]).map
        (fun answer => answer.1.game?.map Game.remarks) =
      [some [(some (Bytes.ofString "abcdghij"), [])]] ∧
    Config.shortening.annotationTemplate = none ∧
    ∀ limit ∈ Config.shortening.commentMaxLength,
      ¬ (Bytes.ofString "abcdghij").length ≤ limit := by
  decide +kernel

end Scoresheet
