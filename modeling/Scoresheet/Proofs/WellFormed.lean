/-
This file proves that every game a reader yields is well formed, whatever it is read from and
whatever the settings are. A header section has pairs, and a header name has bytes none of which
could end it. On the main line and in every variation a turn has a move, a variation has a turn, a
move is written with bytes none of which could end it, also once glyphs are split off it, and its
codes differ unless they may be repeated.

The texts are those of tokens, so what the lexer guarantees of them carries over. The rest follows
the grammar: every phrase of the movetext is well formed if its parts are.
-/

import Mathlib.Data.List.Nodup
import Scoresheet.Cache.PairHash
import Scoresheet.Proofs.Provenance
import Scoresheet.Proofs.Spans

namespace Scoresheet

/-! ### All turns of a game -/

mutual

/-- The turns of the variations of a move, and of variations inside them. -/
def Move.innerTurns : Move → List Turn
  | ⟨_, none⟩ => []
  | ⟨_, some ⟨_, _, variations⟩⟩ => variationTurns variations

/-- The turn and those inside it. -/
def Turn.allTurns : Turn → List Turn
  | .whiteOnly number white => .whiteOnly number white :: white.innerTurns
  | .blackOnly number black => .blackOnly number black :: black.innerTurns
  | .both number white black => .both number white black :: (white.innerTurns ++ black.innerTurns)

def lineTurns : List Turn → List Turn
  | [] => []
  | turn :: rest => turn.allTurns ++ lineTurns rest

def variationTurns : List (List Turn) → List Turn
  | [] => []
  | line :: rest => lineTurns line ++ variationTurns rest

end

/-- The turns of the main line and of all variations. -/
def Game.allTurns (game : Game) : List Turn := lineTurns game.moves

/-- The moves that a turn has itself. -/
def Turn.moves (turn : Turn) : List Move := turn.white?.toList ++ turn.black?.toList

theorem mem_lineTurns {turn : Turn} {line : Line} :
    turn ∈ lineTurns line ↔ ∃ outer ∈ line, turn ∈ outer.allTurns := by
  induction line with
  | nil => simp [lineTurns]
  | cons first rest inductionHypothesis => simp [lineTurns, inductionHypothesis]

theorem mem_variationTurns {turn : Turn} {variations : List Line} :
    turn ∈ variationTurns variations ↔ ∃ line ∈ variations, turn ∈ lineTurns line := by
  induction variations with
  | nil => simp [variationTurns]
  | cons line rest inductionHypothesis => simp [variationTurns, inductionHypothesis]

theorem Move.mem_innerTurns {turn : Turn} {move : Move} :
    turn ∈ move.innerTurns ↔ ∃ line ∈ move.variations, turn ∈ lineTurns line := by
  match move with
  | ⟨_, none⟩ => simp [innerTurns, variations]
  | ⟨_, some ⟨_, _, _⟩⟩ => exact mem_variationTurns

/-! ### Well-formed games -/

/-- What holds of a move itself. -/
structure Move.IsWellFormed (config : Config) (move : Move) : Prop where
  /-- It is written with something, and with no delimiter. -/
  text : move.text.IsRun Ascii.isDelimiter
  nags : config.allowDuplicateAnnotations = false → move.nags.Nodup
  /-- No variation is empty. -/
  variations : ∀ line ∈ move.variations, line ≠ []
  bare : move.isBare = true ↔ move.comment = none ∧ move.nags = [] ∧ move.variations = []

/-- What holds of a turn itself. -/
structure Turn.IsWellFormed (config : Config) (turn : Turn) : Prop where
  some : turn.moves ≠ []
  each : ∀ move ∈ turn.moves, move.IsWellFormed config

structure Game.IsWellFormed (config : Config) (game : Game) : Prop where
  /-- A header section has pairs, and their names consist of bytes that do not end them. -/
  headers : ∀ pairs, game.headers = some pairs →
    pairs ≠ [] ∧ ∀ pair ∈ pairs, pair.name.IsRun Ascii.endsName
  turns : ∀ turn ∈ game.allTurns, turn.IsWellFormed config

/-- All turns of a line are well formed, those inside it included. -/
def Line.IsWellFormed (config : Config) (line : Line) : Prop :=
  ∀ turn ∈ lineTurns line, turn.IsWellFormed config

/-- The move is well formed, and so is all that is inside it. -/
def Move.IsWholesome (config : Config) (move : Move) : Prop :=
  move.IsWellFormed config ∧ ∀ turn ∈ move.innerTurns, turn.IsWellFormed config

variable {config : Config} {line : Line}

theorem Line.isWellFormed_nil : Line.IsWellFormed config [] := List.forall_mem_nil _

theorem Line.isWellFormed_append {first second : Line} (left : Line.IsWellFormed config first)
    (right : Line.IsWellFormed config second) : Line.IsWellFormed config (first ++ second) := by
  intro turn member
  obtain ⟨outer, among, inside⟩ := mem_lineTurns.mp member
  rcases List.mem_append.mp among with early | late
  · exact left turn (mem_lineTurns.mpr ⟨outer, early, inside⟩)
  · exact right turn (mem_lineTurns.mpr ⟨outer, late, inside⟩)

theorem Line.isWellFormed_singleton {turn : Turn}
    (all : ∀ inner ∈ turn.allTurns, inner.IsWellFormed config) :
    Line.IsWellFormed config [turn] :=
  List.forall_mem_append.mpr ⟨all, List.forall_mem_nil _⟩

theorem Line.isWellFormed_cons {turn : Turn} :
    Line.IsWellFormed config (turn :: line) ↔
      (∀ inner ∈ turn.allTurns, inner.IsWellFormed config) ∧ Line.IsWellFormed config line :=
  List.forall_mem_append

/-! A turn and those inside it are well formed if its moves are, with all that is inside them. -/

section Turns

variable {number : UInt32} {white black : Move}

theorem Turn.allTurns_isWellFormed_whiteOnly :
    (∀ turn ∈ (Turn.whiteOnly number white).allTurns, turn.IsWellFormed config) ↔
      white.IsWholesome config := by
  refine List.forall_mem_cons.trans (and_congr_left fun _ => ⟨fun turn => ?_, fun own => ?_⟩)
  · exact List.forall_mem_singleton.mp turn.each
  · exact ⟨List.cons_ne_nil _ _, List.forall_mem_singleton.mpr own⟩

theorem Turn.allTurns_isWellFormed_blackOnly :
    (∀ turn ∈ (Turn.blackOnly number black).allTurns, turn.IsWellFormed config) ↔
      black.IsWholesome config := by
  refine List.forall_mem_cons.trans (and_congr_left fun _ => ⟨fun turn => ?_, fun own => ?_⟩)
  · exact List.forall_mem_singleton.mp turn.each
  · exact ⟨List.cons_ne_nil _ _, List.forall_mem_singleton.mpr own⟩

theorem Turn.allTurns_isWellFormed_both :
    (∀ turn ∈ (Turn.both number white black).allTurns, turn.IsWellFormed config) ↔
      white.IsWholesome config ∧ black.IsWholesome config := by
  have own : (Turn.both number white black).IsWellFormed config ↔
      white.IsWellFormed config ∧ black.IsWellFormed config := by
    refine ⟨fun turn => ?_, fun both => ⟨List.cons_ne_nil _ _, ?_⟩⟩
    · have each := List.forall_mem_cons.mp turn.each
      exact ⟨each.1, List.forall_mem_singleton.mp each.2⟩
    · exact List.forall_mem_cons.mpr ⟨both.1, List.forall_mem_singleton.mpr both.2⟩
  refine List.forall_mem_cons.trans ?_
  rw [List.forall_mem_append, own]
  exact and_and_and_comm

end Turns

/-! ### A comment in front of the first move -/

theorem Move.innerTurns_preceded (leading : Option Bytes) (move : Move) :
    (move.preceded leading).innerTurns = move.innerTurns := by
  match leading, move with
  | none, _ => rfl
  | some _, ⟨_, none⟩ => rfl
  | some _, ⟨_, some ⟨_, _, _⟩⟩ => rfl

theorem Move.IsWellFormed.preceded {move : Move} (sound : move.IsWellFormed config)
    (leading : Option Bytes) : (move.preceded leading).IsWellFormed config := by
  refine ⟨?_, ?_, ?_, ?_⟩
  · rw [Move.text_preceded]
    exact sound.text
  · rw [Move.nags_preceded]
    exact sound.nags
  · rw [Move.variations_preceded]
    exact sound.variations
  · match leading, move with
    | none, _ => exact sound.bare
    | some _, ⟨_, none⟩ => exact ⟨nofun, nofun⟩
    | some _, ⟨_, some ⟨_, _, _⟩⟩ => exact ⟨nofun, nofun⟩

theorem Move.IsWholesome.preceded {move : Move} (sound : move.IsWholesome config)
    (leading : Option Bytes) : (move.preceded leading).IsWholesome config := by
  refine ⟨sound.1.preceded leading, ?_⟩
  rw [Move.innerTurns_preceded]
  exact sound.2

theorem Grammar.isWellFormed_led (leading : Option Bytes) (sound : Line.IsWellFormed config line) :
    Line.IsWellFormed config (led leading line) := by
  match line with
  | [] => exact sound
  | .whiteOnly _ _ :: _ =>
    obtain ⟨turn, rest⟩ := Line.isWellFormed_cons.mp sound
    have own := Turn.allTurns_isWellFormed_whiteOnly.mp turn
    exact Line.isWellFormed_cons.mpr
      ⟨Turn.allTurns_isWellFormed_whiteOnly.mpr (own.preceded leading), rest⟩
  | .blackOnly _ _ :: _ =>
    obtain ⟨turn, rest⟩ := Line.isWellFormed_cons.mp sound
    have own := Turn.allTurns_isWellFormed_blackOnly.mp turn
    exact Line.isWellFormed_cons.mpr
      ⟨Turn.allTurns_isWellFormed_blackOnly.mpr (own.preceded leading), rest⟩
  | .both _ _ _ :: _ =>
    obtain ⟨turn, rest⟩ := Line.isWellFormed_cons.mp sound
    obtain ⟨white, black⟩ := Turn.allTurns_isWellFormed_both.mp turn
    exact Line.isWellFormed_cons.mpr
      ⟨Turn.allTurns_isWellFormed_both.mpr ⟨white.preceded leading, black⟩, rest⟩

/-! ### Glyphs written against a move -/

namespace Nag

/-- What is left of a move is its beginning. -/
theorem splitAtGlyph_prefix (first previous : UInt8) (text : Bytes) :
    (splitAtGlyph first previous text).1 <+: text := by
  fun_induction splitAtGlyph first previous text with
  | case1 => exact List.prefix_rfl
  | case2 => exact List.nil_prefix
  | case3 previous byte rest _ kept nags split inductionHypothesis =>
    rw [split] at inductionHypothesis
    exact List.cons_prefix_cons.mpr ⟨rfl, inductionHypothesis⟩

theorem splitInline_prefix (text : Bytes) : (splitInline text).1 <+: text := by
  unfold splitInline
  split
  · next first second rest =>
    exact List.cons_prefix_cons.mpr
      ⟨rfl, List.cons_prefix_cons.mpr ⟨rfl, splitAtGlyph_prefix first second rest⟩⟩
  · exact List.prefix_rfl

/-- Something is left of a move. -/
theorem splitInline_ne_nil {text : Bytes} (some : text ≠ []) : (splitInline text).1 ≠ [] := by
  unfold splitInline
  split
  · exact List.cons_ne_nil _ _
  · exact some

/-- A code that is not there yet can be added. -/
theorem nodup_append {nags : List Nag} {nag : Nag} (distinct : nags.Nodup) (new : nag ∉ nags) :
    (nags ++ [nag]).Nodup := by
  rw [← List.concat_eq_append]
  exact List.Nodup.concat new distinct

theorem nodup_addOnce {nags : List Nag} (distinct : nags.Nodup) (nag : Nag) :
    (addOnce nags nag).Nodup := by
  unfold addOnce
  split
  · exact distinct
  · next absent => exact nodup_append distinct (by simpa using absent)

theorem nodup_gatherInline {first previous : UInt8} {passing : Nat} {nags : List Nag}
    {text : Bytes} (distinct : nags.Nodup) :
    (gatherInline first passing nags previous text).Nodup := by
  fun_induction gatherInline first passing nags previous text with
  | case1 => exact distinct
  | case2 nags previous passing byte rest inductionHypothesis => exact inductionHypothesis distinct
  | case3 => exact distinct
  | case4 nags previous byte rest _ length nag found inductionHypothesis =>
    exact inductionHypothesis (nodup_addOnce distinct nag)
  | case5 nags previous byte rest _ none inductionHypothesis => exact inductionHypothesis distinct

theorem nodup_splitAtGlyph (first previous : UInt8) (text : Bytes) :
    (splitAtGlyph first previous text).2.Nodup := by
  fun_induction splitAtGlyph first previous text with
  | case1 => exact List.nodup_nil
  | case2 => exact nodup_gatherInline List.nodup_nil
  | case3 previous byte rest _ kept nags split inductionHypothesis =>
    rw [split] at inductionHypothesis
    exact inductionHypothesis

theorem nodup_splitInline (text : Bytes) : (splitInline text).2.Nodup := by
  unfold splitInline
  split
  · next first second rest => exact nodup_splitAtGlyph first second rest
  · exact List.nodup_nil

end Nag

/-! ### Moves -/

theorem Nag.nodup_noted {held : List Nag} (unique : config.allowDuplicateAnnotations = false)
    (distinct : held.Nodup) (text : Bytes) : (noted config held text).Nodup := by
  unfold noted put
  split
  · exact distinct
  · split
    · next added => exact nodup_append distinct (by simpa [unique] using added)
    · exact distinct

theorem Nag.nodup_foldl_noted {held : List Nag} (unique : config.allowDuplicateAnnotations = false)
    (distinct : held.Nodup) (marks : List Bytes) : (marks.foldl (noted config) held).Nodup := by
  induction marks generalizing held with
  | nil => exact distinct
  | cons mark marks inductionHypothesis =>
    exact inductionHypothesis (nodup_noted unique distinct mark)

namespace Move

variable {text : Bytes} {asides : List Line}

theorem isRun_split (run : text.IsRun Ascii.isDelimiter) :
    (split config text).1.IsRun Ascii.isDelimiter := by
  unfold split
  split
  · exact ⟨Nag.splitInline_ne_nil run.1, fun byte member =>
      run.2 byte ((Nag.splitInline_prefix text).mem member)⟩
  · exact run

theorem nodup_split (config : Config) (text : Bytes) : (split config text).2.Nodup := by
  unfold split
  split
  · exact Nag.nodup_splitInline text
  · exact List.nodup_nil

/-- A variation that is kept is one of those that were read, and is not empty. -/
theorem mem_kept {line : Line} (member : line ∈ Line.kept config asides) :
    line ∈ asides ∧ line ≠ [] := by
  unfold Line.kept at member
  split at member
  · cases member
  · obtain ⟨among, some⟩ := List.mem_filter.mp member
    exact ⟨among, fun empty => by simp [empty] at some⟩

/-- A complete move is well formed if its variations are. -/
theorem isWholesome_composed (run : text.IsRun Ascii.isDelimiter)
    (each : ∀ line ∈ asides, Line.IsWellFormed config line) (marks remarks : List Bytes) :
    (composed config text marks remarks asides).IsWholesome config := by
  refine ⟨⟨?_, fun unique => ?_, fun line member => ?_, ?_⟩, fun turn member => ?_⟩
  · rw [text_composed]
    exact isRun_split run
  · rw [nags_composed]
    exact Nag.nodup_foldl_noted unique (nodup_split config text) marks
  · rw [variations_composed] at member
    exact (mem_kept member).2
  · exact isBare_composed_iff ..
  · obtain ⟨line, among, inside⟩ := mem_innerTurns.mp member
    rw [variations_composed] at among
    exact each line (mem_kept among).1 turn inside

end Move

/-! ### Phrases of the movetext -/

namespace Grammar

/-- What a phrase stands for is well formed, with all that is inside it. -/
def Phrase.IsWellFormed (config : Config) : Phrase → Prop
  | .items _ _ asides => ∀ line ∈ asides, Line.IsWellFormed config line
  | .half _ move => move.IsWholesome config
  | .lead _ white _ => ∀ move ∈ white, move.IsWholesome config
  | .turn whole => ∀ inner ∈ whole.allTurns, inner.IsWellFormed config
  | .turns line => Line.IsWellFormed config line
  | .sequence line => Line.IsWellFormed config line
  | .bodies _ line => Line.IsWellFormed config line
  | .variation line => Line.IsWellFormed config line

/-- The tokens are written as their kinds are. -/
def AreClean (tokens : List Token) : Prop := ∀ token ∈ tokens, token.kind.IsClean token.text

theorem AreClean.left {first second : List Token} (clean : AreClean (first ++ second)) :
    AreClean first := (List.forall_mem_append.mp clean).1

theorem AreClean.right {first second : List Token} (clean : AreClean (first ++ second)) :
    AreClean second := (List.forall_mem_append.mp clean).2

theorem AreClean.tail {token : Token} {tokens : List Token} (clean : AreClean (token :: tokens)) :
    AreClean tokens := (List.forall_mem_cons.mp clean).2

/-- A move is written as a move, whichever side it is told to be of. -/
theorem isRun_of_moves {told : TokenKind} {token : Token}
    (moves : told = .whiteMove ∨ told = .blackMove) (kind : token.kind = told)
    (clean : token.kind.IsClean token.text) : token.text.IsRun Ascii.isDelimiter := by
  rw [kind] at clean
  rcases moves with rfl | rfl <;> exact clean

/-- What derives from clean tokens is well formed. -/
theorem isWellFormed_of_derives {phrase : Phrase} {tokens : List Token}
    (derives : Derives config phrase tokens) (clean : AreClean tokens) :
    phrase.IsWellFormed config := by
  induction derives with
  | noItems => exact List.forall_mem_nil _
  | nag before kind inductionHypothesis => exact inductionHypothesis clean.left
  | remark before next inductionHypothesis => exact inductionHypothesis clean.left
  | aside before next itemsHypothesis variationHypothesis =>
    exact List.forall_mem_append.mpr ⟨itemsHypothesis clean.left,
      List.forall_mem_singleton.mpr (variationHypothesis clean.right)⟩
  | half moves kind followed inductionHypothesis =>
    have run := isRun_of_moves moves kind (clean _ List.mem_cons_self)
    exact Move.isWholesome_composed run (inductionHypothesis clean.tail) _ _
  | direct numbered dotted moved inductionHypothesis =>
    rintro _ ⟨⟩
    exact inductionHypothesis clean.tail.tail
  | deferred numbered dotted moved renumbered skipped inductionHypothesis =>
    rintro _ ⟨⟩
    exact inductionHypothesis (AreClean.left clean).tail.tail
  | repeated numbered dotted moved renumbered same dottedAgain inductionHypothesis =>
    rintro _ ⟨⟩
    exact inductionHypothesis (AreClean.left clean).tail.tail
  | skipping numbered dotted skipped => exact nofun
  | both led moved leadHypothesis halfHypothesis =>
    exact Turn.allTurns_isWellFormed_both.mpr
      ⟨leadHypothesis clean.left _ rfl, halfHypothesis clean.right⟩
  | blackOnly led moved leadHypothesis halfHypothesis =>
    exact Turn.allTurns_isWellFormed_blackOnly.mpr (halfHypothesis clean.right)
  | noTurns => exact Line.isWellFormed_nil
  | moreTurns before next lineHypothesis turnHypothesis =>
    exact Line.isWellFormed_append (lineHypothesis clean.left)
      (Line.isWellFormed_singleton (turnHypothesis clean.right))
  | answered all inductionHypothesis => exact inductionHypothesis clean
  | unanswered before numbered dotted moved lineHypothesis moveHypothesis =>
    exact Line.isWellFormed_append (lineHypothesis clean.left) (Line.isWellFormed_singleton
      (Turn.allTurns_isWellFormed_whiteOnly.mpr (moveHypothesis clean.right.tail.tail)))
  | noBodies => exact Line.isWellFormed_nil
  | moreBodies before next closes bodiesHypothesis sequenceHypothesis =>
    exact Line.isWellFormed_append (bodiesHypothesis clean.left.left)
      (sequenceHypothesis clean.left.right)
  | variation opens some comments inner inductionHypothesis =>
    exact isWellFormed_led _ (inductionHypothesis clean.right)

/-- A game that holds what was read of clean tokens is well formed. -/
theorem Yields.isWellFormed {inner : List Token} {marker : Token} {game : Game}
    (yields : Yields config inner marker game) (clean : AreClean (inner ++ [marker])) :
    game.IsWellFormed config where
  headers := by
    intro pairs titled
    obtain ⟨present, names⟩ := yields.titled
    rw [titled] at present names
    refine ⟨fun none => present (congrArg some none), fun pair member => ?_⟩
    obtain ⟨token, among, kind, named⟩ := names pair member
    have written := clean token among
    rw [kind, named] at written
    exact written
  turns := by
    show Line.IsWellFormed config game.moves
    cases skips : config.skip.moves with
    | true =>
      rw [yields.leftOut skips]
      exact Line.isWellFormed_nil
    | false =>
      obtain ⟨front, moves, rfl, derived⟩ := yields.moved skips
      exact isWellFormed_of_derives derived clean.left.right

end Grammar

/-! ### What a reader yields -/

/-- Every game that a reader returns is well formed: for every source, whatever it claims, for all
settings, and whatever was asked before. -/
theorem Reader.games_well_formed [Hashable HeaderPair] (config : Config) (source : Source)
    (requests : List Request) :
    ∀ answer ∈ (Reader.start config (.ofSource source)).answers requests,
      ∀ game ∈ answer.1.game?, game.IsWellFormed config := by
  intro answer member game found
  obtain ⟨count, inner, marker, whole, yields⟩ := yields_of_answers member found
  have clean := Lexer.isClean_segment ((Lexer.ofSource source).ahead count)
  rw [whole] at clean
  exact yields.isWellFormed clean

/-- A game with a glyph written against its first move, a variation in two parentheses and an empty
one. -/
def Source.decorated : Source :=
  .ofBytes (Bytes.ofString "[A \"b\"] 1. e4!? $1 {c} (({d} 1. d4)) () e5 *")

/-- Settings that split glyphs off. -/
def Config.splitting : Config := { Config.standard with extractInlineAnnotations := true }

open scoped PairHash

theorem Reader.games_well_formed_decorated :
    ∃ answer ∈ (Reader.start .splitting (.ofSource .decorated)).answers [.next],
      ∃ game ∈ answer.1.game?, game.headers = some [⟨Bytes.ofString "A", Bytes.ofString "b"⟩] ∧
        game.allTurns.length = 2 ∧ game.IsWellFormed .splitting := by
  have read : ((Reader.start .splitting (.ofSource .decorated)).answers [.next]).any (fun answer =>
      answer.1.game?.any fun game =>
        game.headers = some [⟨Bytes.ofString "A", Bytes.ofString "b"⟩] ∧
          game.allTurns.length = 2) = true := by
    decide +kernel
  obtain ⟨answer, member, returned⟩ := List.any_eq_true.mp read
  obtain ⟨some, shown⟩ := (Option.any_eq_true_iff_get _ _).mp returned
  obtain ⟨headers, turns⟩ := of_decide_eq_true shown
  exact ⟨answer, member, _, Option.get_mem some, headers, turns,
    Reader.games_well_formed .splitting .decorated [.next] answer member _ (Option.get_mem some)⟩

end Scoresheet
