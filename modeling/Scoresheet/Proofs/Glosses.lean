/-
This file proves what the comment of a move is made of if the descriptions of its codes are added
to it. Every comment that is read belongs to one move: the one it stands behind or, if it opens a
variation, the first one of that variation. The comment of a move consists of these, in the order
in which they are read, and of the descriptions, with the separator between the two.

The separator is missing in one place. The descriptions are added as soon as a move is complete and
the comments that open a variation only when it is closed, so if no others come between, the two
abut.
-/

import Scoresheet.Cache.PairHash
import Scoresheet.Proofs.Interleaving
import Scoresheet.Proofs.WellFormed

namespace Scoresheet

/-! ### Comments and descriptions -/

namespace Comment

/-- No comment comes between the one that opens a variation and what is added. -/
def Abut (opening own : Option Bytes) : Prop := opening.getD [] ≠ [] ∧ own.getD [] = []

instance (opening own : Option Bytes) : Decidable (Abut opening own) :=
  inferInstanceAs (Decidable (_ ∧ _))

/-- A comment in front of another, if there is one. -/
def preceded (opening own : Option Bytes) : Option Bytes :=
  match opening with
  | none => own
  | some text => some (text ++ own.getD [])

/-- To put a comment in front of the descriptions loses the separator if nothing stands there. -/
theorem preceded_glossed (separator : Bytes) (opening own described : Option Bytes) :
    preceded opening (glossed separator own described) =
      glossed (if Abut opening own then [] else separator) (preceded opening own) described := by
  cases opening with
  | none =>
    rw [if_neg fun abut => abut.1 rfl]
    rfl
  | some text =>
    cases described with
    | none => rfl
    | some description =>
      unfold glossed preceded Abut
      by_cases silent : own.getD [] = []
      · by_cases blank : text = [] <;> simp [silent, blank]
      · simp [silent]

variable {config : Config}

/-- Comments in front of others are joined with them. -/
theorem preceded_joined (opening own : List Bytes) :
    preceded (joined config opening) (joined config own) = joined config (opening ++ own) := by
  cases skips : config.skip.comments with
  | true =>
    rw [joined_of_skip skips, joined_of_skip skips, joined_of_skip skips]
    rfl
  | false =>
    by_cases first : opening = []
    · rw [first, joined_nil, List.nil_append]
      rfl
    · rw [joined_of_ne_nil skips first,
        joined_of_ne_nil skips (List.append_ne_nil_of_left_ne_nil first own), List.flatMap_append]
      by_cases last : own = []
      · rw [last, joined_nil]
        rfl
      · rw [joined_of_ne_nil skips last]
        rfl

end Comment

namespace Move

/-- The moves with a comment in front of that of the first. -/
def opened (leading : Option Bytes) : List Move → List Move
  | [] => []
  | move :: rest => move.preceded leading :: rest

theorem opened_none (moves : List Move) : opened none moves = moves := by
  cases moves <;> rfl

theorem comment_preceded (leading : Option Bytes) (move : Move) :
    (move.preceded leading).comment = Comment.preceded leading move.comment := by
  match leading, move with
  | none, _ => rfl
  | some opening, ⟨_, none⟩ => exact congrArg some (List.append_nil opening).symm
  | some _, ⟨_, some ⟨_, _, _⟩⟩ => rfl

end Move

/-- The first move of a variation takes the comments in front of it. -/
theorem Grammar.moves_led (leading : Option Bytes) (line : Line) :
    (led leading line).flatMap Turn.moves = Move.opened leading (line.flatMap Turn.moves) := by
  match line with
  | [] => rfl
  | .whiteOnly _ _ :: _ => rfl
  | .blackOnly _ _ :: _ => rfl
  | .both _ _ _ :: _ => rfl

namespace Grammar

/-! ### Which move a comment belongs to -/

/-- A part of the movetext, with what matters for comments. -/
inductive Passage where
  /-- What follows a move: its comments and its variations. -/
  | items (own : List Bytes) (asides : List Line)
  /-- A move that comes behind the opening comments, with what follows it. -/
  | half (opening : List Bytes) (move : Move)
  /-- Moves of which the first comes behind the opening comments, and closing parentheses. -/
  | row (opening : List Bytes) (closings : Nat) (moves : List Move)
  | variation (line : Line)

/-- The kinds of tokens that count moves. -/
def counting : List TokenKind := [.moveNumber, .dot, .ellipsis]

/-- The passage is read from the tokens, and each of its moves, at every depth, is as the comments
that open its variation and those behind it ask for. A move that is not the first of a variation
has no opening comments. -/
inductive EachMove (config : Config) (asked : List Bytes → List Bytes → Move → Prop) :
    Passage → List Token → Prop where
  | noItems : EachMove config asked (.items [] []) []
  | nag {own : List Bytes} {asides : List Line} {tokens : List Token} {token : Token}
      (before : EachMove config asked (.items own asides) tokens) (kind : token.kind = .nag) :
      EachMove config asked (.items own asides) (tokens ++ [token])
  | remark {own : List Bytes} {asides : List Line} {tokens last : List Token} {text : Bytes}
      (before : EachMove config asked (.items own asides) tokens) (next : Remark last text) :
      EachMove config asked (.items (own ++ [text]) asides) (tokens ++ last)
  | aside {own : List Bytes} {asides : List Line} {tokens last : List Token} {line : Line}
      (before : EachMove config asked (.items own asides) tokens)
      (next : EachMove config asked (.variation line) last) :
      EachMove config asked (.items own (asides ++ [line])) (tokens ++ last)
  | half {opening own : List Bytes} {asides : List Line} {token : Token} {items : List Token}
      {move : Move} (kind : token.kind = .whiteMove ∨ token.kind = .blackMove)
      (written : move.text = (Move.split config token.text).1)
      (followed : EachMove config asked (.items own asides) items)
      (kept : move.variations = Line.kept config asides) (holds : asked opening own move) :
      EachMove config asked (.half opening move) (token :: items)
  | noMoves {opening : List Bytes} : EachMove config asked (.row opening 0 []) []
  | counted {opening : List Bytes} {closings : Nat} {moves : List Move} {tokens : List Token}
      {token : Token} (before : EachMove config asked (.row opening closings moves) tokens)
      (kind : token.kind ∈ counting) :
      EachMove config asked (.row opening closings moves) (tokens ++ [token])
  | closed {opening : List Bytes} {closings : Nat} {moves : List Move} {tokens : List Token}
      {token : Token} (before : EachMove config asked (.row opening closings moves) tokens)
      (kind : token.kind = .variationEnd) :
      EachMove config asked (.row opening (closings + 1) moves) (tokens ++ [token])
  | firstMove {opening : List Bytes} {closings : Nat} {tokens last : List Token} {move : Move}
      (before : EachMove config asked (.row opening closings []) tokens)
      (next : EachMove config asked (.half opening move) last) :
      EachMove config asked (.row opening closings [move]) (tokens ++ last)
  | laterMove {opening : List Bytes} {closings : Nat} {moves : List Move}
      {tokens last : List Token} {move : Move}
      (before : EachMove config asked (.row opening closings moves) tokens) (some : moves ≠ [])
      (next : EachMove config asked (.half [] move) last) :
      EachMove config asked (.row opening closings (moves ++ [move])) (tokens ++ last)
  | variation {opening leading body : List Token} {closing : Token} {texts : List Bytes}
      {closings : Nat} {line : Line} (opens : ∀ token ∈ opening, token.kind = .variationBegin)
      (matched : opening.length = closings + 1) (comments : Many Remark leading texts)
      (inner : EachMove config asked (.row texts closings (line.flatMap Turn.moves)) body)
      (closes : closing.kind = .variationEnd) :
      EachMove config asked (.variation line) (opening ++ leading ++ body ++ [closing])

/-- The comment of a move consists of the comments that belong to it and of the descriptions of its
codes, with the separator between them unless the opening comments and the descriptions abut. -/
def IsGlossed (config : Config) (separator : Bytes) (opening own : List Bytes) (move : Move) :
    Prop :=
  move.comment = Comment.glossed
    (if Comment.Abut (Comment.joined config opening) (Comment.joined config own) then []
      else separator)
    (Comment.joined config (opening ++ own)) (Nag.rendered separator move.nags)

/-! ### Moves behind one another -/

variable {config : Config} {asked : List Bytes → List Bytes → Move → Prop} {template : String}

/-- The tokens can be read behind any row of moves, with more moves and closing parentheses. The
opening comments of the row go to whichever move becomes the first. -/
def Extends (config : Config) (asked : List Bytes → List Bytes → Move → Prop) (closings : Nat)
    (moves : List Move) (tokens : List Token) : Prop :=
  ∀ (opening : List Bytes) (count : Nat) (earlier : List Move) (before : List Token),
    EachMove config asked (.row opening count (Move.opened (Comment.joined config opening) earlier))
      before →
    EachMove config asked
      (.row opening (count + closings)
        (Move.opened (Comment.joined config opening) (earlier ++ moves)))
      (before ++ tokens)

theorem extends_nil : Extends config asked 0 [] [] := by
  intro opening count earlier before row
  simpa using row

theorem Extends.append {closings more : Nat} {moves later : List Move}
    {tokens last : List Token} (first : Extends config asked closings moves tokens)
    (second : Extends config asked more later last) :
    Extends config asked (closings + more) (moves ++ later) (tokens ++ last) := by
  intro opening count earlier before row
  have both := second _ _ _ _ (first _ _ _ _ row)
  rwa [Nat.add_assoc, List.append_assoc, List.append_assoc] at both

/-- Tokens that count moves add nothing. -/
theorem extends_counting {tokens : List Token} (kinds : ∀ token ∈ tokens, token.kind ∈ counting) :
    Extends config asked 0 [] tokens := by
  induction tokens with
  | nil => exact extends_nil
  | cons token rest inductionHypothesis =>
    obtain ⟨own, others⟩ := List.forall_mem_cons.mp kinds
    have one : Extends config asked 0 [] [token] := by
      intro opening count earlier before row
      rw [List.append_nil]
      exact .counted row own
    exact one.append (inductionHypothesis others)

theorem extends_closing {token : Token} (kind : token.kind = .variationEnd) :
    Extends config asked 1 [] [token] := by
  intro opening count earlier before row
  rw [List.append_nil]
  exact .closed row kind

/-- A move goes to the end of a row, or takes the opening comments if it is the first. -/
theorem extends_half {tokens : List Token} {move : Move}
    (half : ∀ opening, EachMove config asked
      (.half opening (move.preceded (Comment.joined config opening))) tokens) :
    Extends config asked 0 [move] tokens := by
  intro opening count earlier before row
  cases earlier with
  | nil => exact .firstMove row (half opening)
  | cons first rest =>
    -- A later move is as if it came behind no opening comments at all.
    have alone := half []
    rw [Comment.joined_nil] at alone
    exact .laterMove row (List.cons_ne_nil _ _) alone

/-- Behind no moves the row begins. -/
theorem Extends.row {closings : Nat} {moves : List Move} {tokens : List Token}
    (extended : Extends config asked closings moves tokens) (opening : List Bytes) :
    EachMove config asked
      (.row opening closings (Move.opened (Comment.joined config opening) moves)) tokens := by
  have row := extended opening 0 [] [] .noMoves
  rwa [Nat.zero_add] at row

theorem Extends.turn {line : Line} {turn : Turn} {tokens last : List Token}
    (first : Extends config asked 0 (line.flatMap Turn.moves) tokens)
    (second : Extends config asked 0 turn.moves last) :
    Extends config asked 0 ((line ++ [turn]).flatMap Turn.moves) (tokens ++ last) := by
  rw [List.flatMap_append, List.flatMap_singleton]
  exact first.append second

/-- A turn of white goes to the end of a row. -/
theorem extends_white {first dot : Token} {tokens : List Token} {move : Move}
    (numbered : first.kind = .moveNumber) (dotted : dot.kind = .dot)
    (half : ∀ opening, EachMove config asked
      (.half opening (move.preceded (Comment.joined config opening))) tokens) :
    Extends config asked 0 [move] (first :: dot :: tokens) := by
  have counted : Extends config asked 0 [] [first, dot] :=
    extends_counting (by simp [counting, numbered, dotted])
  exact counted.append (extends_half half)

/-! ### One move -/

/-- A complete move has the comments behind it, and those in front of it if it takes them. -/
theorem isGlossed_composed (set : config.annotationTemplate = some template) (text : Bytes)
    (marks : List Bytes) (opening own : List Bytes) (asides : List Line) :
    IsGlossed config (Bytes.ofString template) opening own
      ((Move.composed config text marks own asides).preceded (Comment.joined config opening)) := by
  unfold IsGlossed
  rw [Move.comment_preceded, Move.nags_preceded, Move.comment_composed_of_template _ _ _ _ _ set,
    Comment.preceded_glossed, Comment.preceded_joined]

/-! ### Everything that derives -/

/-- What has to hold of the tokens that derive from a phrase. -/
def Phrase.Attributes (config : Config) (asked : List Bytes → List Bytes → Move → Prop)
    (tokens : List Token) : Phrase → Prop
  | .items _ own asides => EachMove config asked (.items own asides) tokens
  | .half _ move => ∀ opening,
    EachMove config asked (.half opening (move.preceded (Comment.joined config opening))) tokens
  | .lead _ white _ => Extends config asked 0 white.toList tokens
  | .turn whole => Extends config asked 0 whole.moves tokens
  | .turns line => Extends config asked 0 (line.flatMap Turn.moves) tokens
  | .sequence line => Extends config asked 0 (line.flatMap Turn.moves) tokens
  | .bodies 0 line => line = [] ∧ tokens = []
  | .bodies (fewer + 1) line => ∃ body closing, tokens = body ++ [closing] ∧
      closing.kind = .variationEnd ∧
      Extends config asked fewer (line.flatMap Turn.moves) body
  | .variation line => EachMove config asked (.variation line) tokens

/-- Bodies with their closing parentheses go to the end of a row. -/
theorem extends_bodies {count : Nat} {line : Line} {tokens : List Token}
    (bodies : (Phrase.bodies count line).Attributes config asked tokens) :
    Extends config asked count (line.flatMap Turn.moves) tokens := by
  cases count with
  | zero =>
    obtain ⟨rfl, rfl⟩ := bodies
    exact extends_nil
  | succ fewer =>
    obtain ⟨body, closing, rfl, kind, extended⟩ := bodies
    have closed := extended.append (extends_closing kind)
    rwa [List.append_nil] at closed

/-- What is asked holds of a move with what follows it, whatever opens its variation. -/
def Holds (config : Config) (asked : List Bytes → List Bytes → Move → Prop) : Prop :=
  ∀ (text : Bytes) (marks opening own : List Bytes) (asides : List Line),
    asked opening own
      ((Move.composed config text marks own asides).preceded (Comment.joined config opening))

/-- Whatever is read attributes its comments to moves of which what is asked holds. -/
theorem attributes_of_holds (holds : Holds config asked) {phrase : Phrase} {tokens : List Token}
    (derives : Derives config phrase tokens) : phrase.Attributes config asked tokens := by
  -- Which comments open a row is left free all the way up: that a line is one of a variation shows
  -- only where the variation is closed.
  induction derives with
  | noItems => exact .noItems
  | nag before kind inductionHypothesis => exact .nag inductionHypothesis kind
  | remark before next inductionHypothesis => exact .remark inductionHypothesis next
  | aside before next itemsHypothesis variationHypothesis =>
    exact .aside itemsHypothesis variationHypothesis
  | @half told token items marks own asides moves kind followed inductionHypothesis =>
    intro opening
    have isMove : token.kind = .whiteMove ∨ token.kind = .blackMove := kind ▸ moves
    refine .half isMove ?_ inductionHypothesis ?_ (holds token.text marks opening own asides)
    · rw [Move.text_preceded, Move.text_composed]
    · rw [Move.variations_preceded, Move.variations_composed]
  | direct numbered dotted moved inductionHypothesis =>
    exact extends_white numbered dotted inductionHypothesis
  | deferred numbered dotted moved renumbered skipped inductionHypothesis =>
    exact (extends_white numbered dotted inductionHypothesis).append
      (extends_counting (by simp [counting, renumbered, skipped]))
  | repeated numbered dotted moved renumbered same dottedAgain inductionHypothesis =>
    exact (extends_white numbered dotted inductionHypothesis).append
      (extends_counting (by simp [counting, renumbered, dottedAgain]))
  | skipping numbered dotted skipped =>
    refine extends_counting ?_
    cases dotted with
    | absent => simp [counting, numbered, skipped]
    | present same => simp [counting, numbered, same, skipped]
  | both led moved leadHypothesis halfHypothesis =>
    exact leadHypothesis.append (extends_half halfHypothesis)
  | blackOnly led moved leadHypothesis halfHypothesis =>
    exact leadHypothesis.append (extends_half halfHypothesis)
  | noTurns => exact extends_nil
  | moreTurns before next lineHypothesis turnHypothesis =>
    exact Extends.turn lineHypothesis turnHypothesis
  | answered all inductionHypothesis => exact inductionHypothesis
  | unanswered before numbered dotted moved lineHypothesis moveHypothesis =>
    exact Extends.turn lineHypothesis (extends_white numbered dotted moveHypothesis)
  | noBodies => exact ⟨rfl, rfl⟩
  | moreBodies before next closes bodiesHypothesis sequenceHypothesis =>
    have both := (extends_bodies bodiesHypothesis).append sequenceHypothesis
    rw [← List.flatMap_append] at both
    exact ⟨_, _, rfl, closes, both⟩
  | @variation opening leading bodies texts line opens some comments inner inductionHypothesis =>
    cases count : opening.length with
    | zero => exact absurd (List.length_eq_zero_iff.mp count) some
    | succ fewer =>
      rw [count] at inductionHypothesis
      obtain ⟨body, closing, rfl, closes, extended⟩ := inductionHypothesis
      have row := extended.row texts
      rw [← moves_led] at row
      rw [← List.append_assoc]
      exact .variation opens count comments row closes

/-- Whatever is read attributes its comments to moves that are made of them. -/
theorem attributes_of_derives (set : config.annotationTemplate = some template)
    {phrase : Phrase} {tokens : List Token} (derives : Derives config phrase tokens) :
    phrase.Attributes config (IsGlossed config (Bytes.ofString template)) tokens :=
  attributes_of_holds (isGlossed_composed set) derives

end Grammar

/-! ### What a reader yields -/

open Grammar in
/-- In every game that a reader returns, on the main line and in all variations, the comment of a
move consists of the comments that belong to it, in the order in which they are read, and of the
descriptions of its codes. The separator stands between the two unless the opening comments and the
descriptions abut. -/
theorem Reader.comments_with_descriptions [Hashable HeaderPair] {config : Config}
    {template : String} (set : config.annotationTemplate = some template) (lexer : Lexer)
    (requests : List Request) :
    ∀ answer ∈ (start config lexer).answers requests, ∀ game ∈ answer.1.game?,
      ∃ count front moves marker, (lexer.ahead count).segment.1 = front ++ moves ++ [marker] ∧
        EachMove config (IsGlossed config (Bytes.ofString template))
          (.row [] 0 (game.moves.flatMap Turn.moves)) moves := by
  intro answer member game found
  obtain ⟨count, inner, marker, whole, yields⟩ := yields_of_answers member found
  cases skips : config.skip.moves with
  | true =>
    refine ⟨count, inner, [], marker, by rw [whole, List.append_nil], ?_⟩
    rw [yields.leftOut skips]
    exact .noMoves
  | false =>
    obtain ⟨front, moves, rfl, derived⟩ := yields.moved skips
    have extended : Extends config (IsGlossed config (Bytes.ofString template)) 0
        (game.moves.flatMap Turn.moves) moves := attributes_of_derives set derived
    refine ⟨count, front, moves, marker, whole, ?_⟩
    have row := extended.row []
    rwa [Comment.joined_nil, Move.opened_none] at row

/-- Settings that put descriptions behind comments. -/
def Config.describing : Config := { Config.standard with annotationTemplate := some "; " }

/-- The comments and codes of all moves. -/
def Game.remarks (game : Game) : List (Option Bytes × List Nag) :=
  (game.allTurns.flatMap Turn.moves).map fun move => (move.comment, move.nags)

/-- A game with comments in front of and behind the first move of a variation. -/
def Source.remarked : Source := .ofBytes (Bytes.ofString "1. e4 {a} $1 (({b} 1. d4 {c} $2)) *")

open scoped PairHash

theorem Reader.comments_with_descriptions_remarked :
    Config.describing.annotationTemplate = some "; " ∧
      ∃ answer ∈ (start .describing (.ofSource .remarked)).answers [.next],
        ∃ game ∈ answer.1.game?,
          game.remarks = [(some (Bytes.ofString "a; good move"), [.goodMove]),
            (some (Bytes.ofString "bc; poor move"), [.mistake])] ∧
          ∃ count front moves marker,
            ((Lexer.ofSource .remarked).ahead count).segment.1 = front ++ moves ++ [marker] ∧
              Grammar.EachMove .describing (Grammar.IsGlossed .describing (Bytes.ofString "; "))
                (.row [] 0 (game.moves.flatMap Turn.moves)) moves := by
  have read : ((start .describing (.ofSource .remarked)).answers [.next]).any (fun answer =>
      answer.1.game?.any fun game =>
        game.remarks = [(some (Bytes.ofString "a; good move"), [.goodMove]),
          (some (Bytes.ofString "bc; poor move"), [.mistake])]) = true := by
    decide +kernel
  obtain ⟨answer, member, returned⟩ := List.any_eq_true.mp read
  obtain ⟨some, shown⟩ := (Option.any_eq_true_iff_get _ _).mp returned
  exact ⟨rfl, answer, member, _, Option.get_mem some, of_decide_eq_true shown,
    Reader.comments_with_descriptions (show Config.describing.annotationTemplate = _ from rfl)
      (.ofSource .remarked) [.next] answer member _ (Option.get_mem some)⟩

/-- A game with a comment in front of the first move of a variation and a code behind it. -/
def Source.abutting : Source := .ofBytes (Bytes.ofString "1. e4 ({lead} 1. d4 $1) *")

/-- The comment in front of the move and the description abut, where the separator would be asked
for. -/
theorem Reader.comments_abut :
    ((start .describing (.ofSource .abutting)).answers [.next]).map
        (fun answer => answer.1.game?.map Game.remarks) =
      [some [(none, []), (some (Bytes.ofString "leadgood move"), [.goodMove])]] ∧
    Comment.glossed (Bytes.ofString "; ") (Comment.joined .describing [Bytes.ofString "lead"])
        (Nag.rendered (Bytes.ofString "; ") [.goodMove]) =
      some (Bytes.ofString "lead; good move") := by
  decide +kernel

end Scoresheet
