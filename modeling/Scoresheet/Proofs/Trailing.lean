/-
This file says with which texts annotations, comments and variations are written behind a move. A
text is spelled piece by piece, with white space in front of each; a piece that is a run is ended by
the byte behind it. Wherever in the movetext such a text stands, the lexer tells the tokens it is
spelled with. Only moves are told by the token in front of them: so what begins with another token
means the same behind every token, and what a move behind it is told to be depends on its last token
alone, which may be that of a variation.
-/

import Scoresheet.Proofs.Interleaving
import Scoresheet.Proofs.Phrasing

namespace Scoresheet

open Ascii

/-! ### Words -/

/-- Behind a token of a kind it may start behind, and behind white space, the text is told as the
lexemes up to the rest, in front of which white space may be left. -/
def Words (area : Area) (starts ends : TokenKind → Prop) (text rest : Bytes)
    (lexemes : List Lexeme) : Prop :=
  ∀ ⦃kind : TokenKind⦄ ⦃gap : Bytes⦄ ⦃lexer : Lexer⦄, starts kind → gap.all isSpace = true →
    lexer.Before area kind (gap ++ (text ++ rest)) →
    ∃ left : Bytes, left.all isSpace = true ∧
      lexer.Spells .moves ends (left ++ rest) fun tokens => tokens.map Token.lexeme = lexemes

namespace Words

variable {area : Area} {starts middle ends : TokenKind → Prop} {text more rest gap made : Bytes}
  {first second : List Lexeme} {told : TokenKind}

theorem blank (blank : gap.all isSpace = true) : Words .moves ends ends gap rest [] := by
  intro kind before lexer starting spaces stands
  refine ⟨before ++ gap, ?_, .here (stands.congr (List.append_assoc ..).symm) starting rfl⟩
  rw [List.all_append, spaces, blank]
  rfl

/-- One token that is told where the text may start. -/
theorem one (inside : told ≠ .termination)
    (leads : ∀ (kind : TokenKind) (gap span : Bytes), starts kind → gap.all isSpace = true →
      Scan.advance.Leads (Lexer.Stands area kind span (gap ++ (text ++ rest)))
        fun _ => Lexer.Stands .moves told made rest) :
    Words area starts (· = told) text rest [(told, made)] := by
  intro kind gap lexer starting spaces stands
  refine ⟨[], rfl, stands.next (fun span => leads kind gap span starting spaces) nofun inside
    fun token after kinds texts later => .here later rfl ?_⟩
  rw [List.map_singleton, Token.lexeme, kinds, texts]

/-- One text and then another. -/
theorem append (left : Words area starts middle text (more ++ rest) first)
    (right : Words .moves middle ends more rest second) :
    Words area starts ends (text ++ more) rest (first ++ second) := by
  intro kind gap lexer starting spaces stands
  rw [List.append_assoc] at stands
  obtain ⟨_, blank, tokens, behind, _, yields, written, reached, later⟩ :=
    left starting spaces stands
  obtain ⟨gap, blank, others, last, kind, yieldsMore, writtenMore, ended, final⟩ :=
    right reached blank later
  refine ⟨gap, blank, tokens ++ others, last, kind, yields.append yieldsMore, ?_, ended, final⟩
  show (tokens ++ others).map Token.lexeme = first ++ second
  rw [List.map_append, written, writtenMore]

theorem imp {lexemes : List Lexeme} {begins stops : TokenKind → Prop}
    (words : Words area starts ends text rest lexemes)
    (starting : ∀ kind, begins kind → starts kind) (ended : ∀ kind, ends kind → stops kind) :
    Words area begins stops text rest lexemes := by
  intro kind gap lexer starter spaces stands
  obtain ⟨left, blank, spells⟩ := words (starting kind starter) spaces stands
  exact ⟨left, blank, spells.imp ended fun _ => id⟩

end Words

/-! ### Pieces of a text -/

/-- A token that is told behind one of the previous kind, with the bytes it is written with. The rest
behind them ends it. -/
inductive Piece (previous : TokenKind) (rest : Bytes) : Lexeme → Bytes → Prop where
  | opening : Piece previous rest (.variationBegin, []) [openParen]
  | closing : Piece previous rest (.variationEnd, []) [closeParen]
  | code {code : Bytes} (all : code.all (!isDelimiter ·) = true)
      (stopped : rest.head?.any isDelimiter = true) :
      Piece previous rest (.nag, dollar :: code) (dollar :: code)
  | marks {marks : Bytes} (some : marks ≠ []) (all : marks.all Scan.isMark = true)
      (stopped : rest.head?.any (!Scan.isMark ·) = true) : Piece previous rest (.nag, marks) marks
  | glyph {glyph : Bytes} (standalone : glyph ∈ standaloneGlyphs)
      (stopped : rest.head?.any isDelimiter = true) : Piece previous rest (.nag, glyph) glyph
  | line {text ending : Bytes} (noFeed : text.all (· != lineFeed) = true)
      (returned : ending = [carriageReturn] ∨ ending = [] ∧ text.getLast? ≠ some carriageReturn)
      (stopped : rest.head?.any (· == lineFeed) = true) :
      Piece previous rest (.lineComment, text) (semicolon :: (text ++ ending))
  | number {digits : Bytes} (some : digits ≠ []) (all : digits.all isDigit = true)
      (stopped : rest.head?.any Scan.endsNumber = true) :
      Piece previous rest (.moveNumber, digits) digits
  | dots {dots : Bytes} (some : dots ≠ []) (all : dots.all (· == dot) = true)
      (stopped : rest.head?.any (· != dot) = true) :
      Piece previous rest (if dots = [dot] then .dot else .ellipsis, dots) dots
  | move {text : Bytes} (isMove : Move.isMoveText text = true) (plain : text.head? ≠ some percent)
      (stopped : rest.head?.any isDelimiter = true) :
      Piece previous rest (previous.moveKindAfter, text) text

theorem Bytes.any_head_append {text : Bytes} {stops : UInt8 → Bool}
    (stopped : text.head?.any stops = true) (more : Bytes) :
    (text ++ more).head?.any stops = true := by
  cases text with
  | nil => cases stopped
  | cons byte rest => exact stopped

/-- A byte that stops a run does not go on with it. -/
theorem Bytes.not_any_head {text : Bytes} {stops : UInt8 → Bool}
    (stopped : text.head?.any stops = true) : text.head?.any (!stops ·) = false := by
  cases text with
  | nil => rfl
  | cons byte rest =>
    have stops : stops byte = true := stopped
    simp [stops]

theorem Bytes.exists_head {text : Bytes} {stops : UInt8 → Bool}
    (stopped : text.head?.any stops = true) : ∃ byte rest, text = byte :: rest ∧ stops byte = true := by
  cases text with
  | nil => cases stopped
  | cons byte rest => exact ⟨byte, rest, rfl, stopped⟩

namespace Piece

variable {previous : TokenKind} {rest written : Bytes} {lexeme : Lexeme}

/-- What ends a piece goes on ending it, whatever comes behind. -/
theorem extend (piece : Piece previous rest lexeme written) (more : Bytes) :
    Piece previous (rest ++ more) lexeme written := by
  cases piece with
  | opening => exact .opening
  | closing => exact .closing
  | code all stopped => exact .code all (Bytes.any_head_append stopped more)
  | marks some all stopped => exact .marks some all (Bytes.any_head_append stopped more)
  | glyph standalone stopped => exact .glyph standalone (Bytes.any_head_append stopped more)
  | line noFeed returned stopped => exact .line noFeed returned (Bytes.any_head_append stopped more)
  | number some all stopped => exact .number some all (Bytes.any_head_append stopped more)
  | dots some all stopped => exact .dots some all (Bytes.any_head_append stopped more)
  | move isMove plain stopped => exact .move isMove plain (Bytes.any_head_append stopped more)

/-- No piece is a marker, and a comment in braces is more than a piece. -/
theorem inside (piece : Piece previous rest lexeme written) :
    lexeme.1 ≠ .termination ∧ lexeme.1 ≠ .commentBegin := by
  cases piece with
  | dots => split <;> exact ⟨nofun, nofun⟩
  | move => cases previous <;> exact ⟨nofun, nofun⟩
  | _ => exact ⟨nofun, nofun⟩

/-- Only a move is told by the token in front of it. -/
theorem elsewhere (piece : Piece previous rest lexeme written) (adds : lexeme.1 ∈ Grammar.adding)
    (other : TokenKind) : Piece other rest lexeme written := by
  cases piece with
  | opening => exact .opening
  | closing => exact .closing
  | code all stopped => exact .code all stopped
  | marks some all stopped => exact .marks some all stopped
  | glyph standalone stopped => exact .glyph standalone stopped
  | line noFeed returned stopped => exact .line noFeed returned stopped
  | number some all stopped => exact .number some all stopped
  | dots some all stopped => exact .dots some all stopped
  | move => cases previous <;> simp [TokenKind.moveKindAfter, Grammar.adding] at adds

open Scan in
theorem words (piece : Piece previous rest lexeme written) (aside : previous ≠ .commentBegin) :
    Words .moves (· = previous) (· = lexeme.1) written rest [lexeme] := by
  refine .one piece.inside.1 fun kind gap span same blank => ?_
  subst same
  cases piece with
  | opening => exact advance_paren aside blank (.inl ⟨rfl, rfl⟩)
  | closing => exact advance_paren aside blank (.inr ⟨rfl, rfl⟩)
  | code all stopped => exact advance_nag all (Bytes.not_any_head stopped) aside blank
  | marks some all stopped =>
    exact advance_marks some all (by simpa using Bytes.not_any_head stopped) aside blank
  | glyph standalone stopped =>
    exact advance_glyph standalone (Bytes.not_any_head stopped) aside blank
  | line noFeed returned stopped =>
    obtain ⟨byte, later, rfl, feeds⟩ := Bytes.exists_head stopped
    rw [beq_iff_eq.mp feeds]
    exact advance_lineComment noFeed returned aside blank
  | number some all stopped =>
    obtain ⟨byte, later, rfl, ends⟩ := Bytes.exists_head stopped
    exact advance_number (.inr ⟨rfl, aside⟩) blank all some ends
  | dots some all stopped =>
    exact advance_dots some all (by simpa [bne] using Bytes.not_any_head stopped) aside blank
  | move isMove plain stopped =>
    exact advance_move isMove (Bytes.not_any_head stopped) aside blank
      fun escape => absurd escape plain

end Piece

/-! ### Texts of many pieces -/

/-- Behind a token of the given kind the text is spelled with the lexemes, and the rest follows it. The
last kind is that of the last token. -/
inductive Spelling (rest : Bytes) : TokenKind → Bytes → List Lexeme → TokenKind → Prop where
  | blank {kind : TokenKind} {gap : Bytes} (blank : gap.all isSpace = true) :
      Spelling rest kind gap [] kind
  | piece {kind last : TokenKind} {gap written text : Bytes} {lexeme : Lexeme}
      {lexemes : List Lexeme} (blank : gap.all isSpace = true)
      (first : Piece kind (text ++ rest) lexeme written)
      (more : Spelling rest lexeme.1 text lexemes last) :
      Spelling rest kind (gap ++ (written ++ text)) (lexeme :: lexemes) last
  | comment {kind last : TokenKind} {gap remark text : Bytes} {lexemes : List Lexeme}
      (blank : gap.all isSpace = true) (enclosable : remark.isEnclosable closeBrace = true)
      (more : Spelling rest .commentEnd text lexemes last) :
      Spelling rest kind (gap ++ (Comment.write remark ++ text))
        (Grammar.commentLexemes remark ++ lexemes) last

namespace Spelling

variable {rest text : Bytes} {kind last : TokenKind} {lexemes : List Lexeme}

theorem extend (spelling : Spelling rest kind text lexemes last) (more : Bytes) :
    Spelling (rest ++ more) kind text lexemes last := by
  induction spelling with
  | blank blank => exact .blank blank
  | piece blank first _ inductionHypothesis =>
    refine .piece blank ?_ inductionHypothesis
    rw [← List.append_assoc]
    exact first.extend more
  | comment blank enclosable _ inductionHypothesis =>
    exact .comment blank enclosable inductionHypothesis

/-- The last kind is that of the last lexeme, if there is one. -/
theorem last_eq (spelling : Spelling rest kind text lexemes last) :
    last = (lexemes.map Prod.fst).getLast?.getD kind := by
  induction spelling with
  | blank => rfl
  | piece _ _ _ inductionHypothesis =>
    rw [inductionHypothesis, List.map_cons, List.getLast?_cons]
    rfl
  | comment _ _ _ inductionHypothesis =>
    rw [inductionHypothesis, Grammar.commentLexemes, List.append_assoc, List.map_append,
      List.getLast?_append, List.singleton_append, List.map_cons, List.getLast?_cons]
    rfl

/-- What does not begin with a move is spelled alike behind every token. -/
theorem elsewhere (spelling : Spelling rest kind text lexemes last)
    (adds : ∀ lexeme ∈ lexemes.head?, lexeme.1 ∈ Grammar.adding) (other : TokenKind) :
    ∃ last, Spelling rest other text lexemes last := by
  cases spelling with
  | blank blank => exact ⟨other, .blank blank⟩
  | piece blank first more => exact ⟨_, .piece blank (first.elsewhere (adds _ rfl) other) more⟩
  | comment blank enclosable more => exact ⟨_, .comment blank enclosable more⟩

/-- The text is told as the lexemes it is spelled with. -/
theorem words (spelling : Spelling rest kind text lexemes last) (aside : kind ≠ .commentBegin) :
    Words .moves (· = kind) (· = last) text rest lexemes := by
  induction spelling with
  | blank blank => exact .blank blank
  | piece blank first _ inductionHypothesis =>
    exact (Words.blank blank).append
      ((first.words aside).append (inductionHypothesis first.inside.2))
  | @comment kind _ gap remark text _ blank enclosable _ inductionHypothesis =>
    have braced : Words .moves (· = kind) (· = .commentEnd) (Comment.write remark) (text ++ rest)
        (Grammar.commentLexemes remark) := by
      rintro kind gap lexer rfl spaces stands
      have split : gap ++ (Comment.write remark ++ (text ++ rest)) =
          gap ++ openBrace :: (remark ++ closeBrace :: (text ++ rest)) := by
        simp [Comment.write]
      exact ⟨[], rfl, (Grammar.spells_braced enclosable (.inr ⟨rfl, aside⟩) spaces
        (stands.congr split)).imp (fun _ => id) fun _ => And.left⟩
    exact (Words.blank blank).append (braced.append (inductionHypothesis (by decide)))

end Spelling

/-! ### What follows a move -/

namespace Grammar

variable {config : Config} {item : Item} {items : List Item} {rest text : Bytes} {kind : TokenKind}

def Item.lexemes (items : List Item) : List Lexeme := (items.flatMap Item.tokens).map Token.lexeme

/-- The kinds of the last tokens of what adds to a move. -/
def added : List TokenKind := [.nag, .commentEnd, .lineComment, .variationEnd]

theorem kind_of_closes {branch : Branch} {outer : List Branch} {phase : CommentPhase}
    {tokens : List Token} {line : Line} (closes : Closes config branch outer phase tokens line) :
    ∃ first last, tokens = first ++ [last] ∧ last.kind = .variationEnd := by
  induction closes with
  | last closed => exact ⟨[], _, rfl, kind_of_closed closed⟩
  | more _ _ inductionHypothesis =>
    obtain ⟨first, last, rfl, kind⟩ := inductionHypothesis
    exact ⟨_ :: first, last, rfl, kind⟩

/-- An item begins with a token that adds to a move, and ends with one behind which a move is of
black. -/
theorem Item.bounds (accepted : item.IsAccepted config) :
    (∃ first more, item.tokens = first :: more ∧ first.kind ∈ adding) ∧
      ∃ before last, item.tokens = before ++ [last] ∧ last.kind ∈ added := by
  cases item with
  | nag token =>
    have kind : token.kind = .nag := accepted
    exact ⟨⟨token, [], rfl, by simp [adding, kind]⟩, [], token, rfl, by simp [added, kind]⟩
  | remark tokens text =>
    cases (accepted : Remark tokens text) with
    | @line token kind =>
      exact ⟨⟨token, [], rfl, by simp [adding, kind]⟩, [], token, rfl, by simp [added, kind]⟩
    | @empty opening closing opens closes =>
      exact ⟨⟨opening, _, rfl, by simp [adding, opens]⟩, [opening], closing, rfl,
        by simp [added, closes]⟩
    | @braced opening text closing opens inside closes =>
      exact ⟨⟨opening, _, rfl, by simp [adding, opens]⟩, [opening, text], closing, rfl,
        by simp [added, closes]⟩
  | aside tokens line =>
    obtain ⟨opens, closes⟩ := (accepted : Detour config tokens line)
    obtain ⟨first, last, rfl, kind⟩ := kind_of_closes closes
    exact ⟨⟨_, _, rfl, by simp [adding, opens]⟩, _ :: first, last, rfl, by simp [added, kind]⟩

/-- Behind a move the text is what the items are written with, up to the rest, and it parts the move
from the rest. -/
structure Trails (config : Config) (rest text : Bytes) (items : List Item) : Prop where
  parts : (text ++ rest).head?.any isDelimiter = true
  spelled : ∃ last, Spelling rest .whiteMove text (Item.lexemes items) last
  accepted : ∀ item ∈ items, item.IsAccepted config

/-- A text that ends by itself may be followed by anything. -/
theorem Trails.extend (trails : Trails config [] text items) (rest : Bytes) :
    Trails config rest text items := by
  obtain ⟨parts, ⟨last, spelling⟩, accepted⟩ := trails
  rw [List.append_nil] at parts
  exact ⟨Bytes.any_head_append parts rest, ⟨last, spelling.extend rest⟩, accepted⟩

/-- Behind a move of either side the text is told as the items, of which the last token decides what
a move behind them is. -/
theorem Trails.words (trails : Trails config rest text items)
    (moved : kind = .whiteMove ∨ kind = .blackMove) :
    Words .moves (· = kind) (fun last => last = kind ∨ last ∈ added) text rest
      (Item.lexemes items) := by
  obtain ⟨_, ⟨_, spelling⟩, accepted⟩ := trails
  have adds : ∀ lexeme ∈ (Item.lexemes items).head?, lexeme.1 ∈ adding := by
    cases items with
    | nil => nofun
    | cons item more =>
      obtain ⟨first, others, shown, kind⟩ := (Item.bounds (accepted _ List.mem_cons_self)).1
      intro lexeme head
      rw [Item.lexemes, List.flatMap_cons, shown] at head
      cases head
      exact kind
  obtain ⟨last, spelled⟩ := spelling.elsewhere adds kind
  have ends : last = kind ∨ last ∈ added := by
    rw [spelled.last_eq]
    rcases List.eq_nil_or_concat items with rfl | ⟨others, item, rfl⟩
    · exact .inl rfl
    · obtain ⟨early, last, shown, kind⟩ := (Item.bounds (accepted item (by simp))).2
      refine .inr ?_
      simpa [Item.lexemes, shown, Token.lexeme] using kind
  have aside : kind ≠ .commentBegin := by rcases moved with rfl | rfl <;> decide
  exact (spelled.words aside).imp (fun _ => id) fun _ same => same ▸ ends

end Grammar

end Scoresheet
