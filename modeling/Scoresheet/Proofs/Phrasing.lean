/-
This file follows a lexer through the text of a game. From in front of the text of a phrase the lexer
yields tokens that derive from the phrase, and it stands in front of what follows then. The phrases
are taken together as they are written: the parts of a move, the moves of a turn, the turns of a
line, and the variations of a move, which are lines again.
-/

import Scoresheet.Proofs.Parsing
import Scoresheet.Proofs.Shift
import Scoresheet.Proofs.Spelling

namespace Scoresheet

/-! ### Tokens of a phrase -/

namespace Lexer

/-- The tokens are the next ones, and no marker is among them. -/
inductive Yields : Lexer → List Token → Lexer → Prop where
  | none (lexer : Lexer) : Yields lexer [] lexer
  | next {lexer middle after : Lexer} {tokens : List Token}
      (success : Scan.advance.run lexer = (.ok (), middle)) (more : middle.isExhausted = false)
      (inside : middle.kind ≠ .termination) (rest : Yields middle tokens after) :
      Yields lexer (middle.token :: tokens) after

/-- A lexer that will not fail stands in front of the text. -/
structure Before (area : Area) (kind : TokenKind) (text : Bytes) (lexer : Lexer) : Prop where
  unfailing : lexer.source.IsUnfailing
  stands : ∃ span, lexer.Stands area kind span text

/-- The lexer yields tokens as described, behind the last of which it stands in front of the rest. -/
def Spells (lexer : Lexer) (area : Area) (ends : TokenKind → Prop) (rest : Bytes)
    (phrase : List Token → Prop) : Prop :=
  ∃ tokens after kind, lexer.Yields tokens after ∧ phrase tokens ∧ ends kind ∧
    after.Before area kind rest

variable {lexer middle after : Lexer} {area last : Area} {told kind : TokenKind}
  {text made rest final : Bytes} {first second : List Token} {ends stops : TokenKind → Prop}
  {phrase whole : List Token → Prop}

theorem Yields.append (left : lexer.Yields first middle) (right : middle.Yields second after) :
    lexer.Yields (first ++ second) after := by
  induction left with
  | none => exact right
  | next success more inside _ inductionHypothesis =>
    exact .next success more inside (inductionHypothesis right)

/-- The tokens are the first ones of the segment. -/
theorem Yields.segment_eq (yields : lexer.Yields first middle) :
    lexer.segment = (first ++ middle.segment.1, middle.segment.2) := by
  induction yields with
  | none => rfl
  | next success more inside _ inductionHypothesis =>
    rw [segment_of_inside success more inside, inductionHypothesis]
    rfl

theorem Before.congr (before : lexer.Before area kind text) (same : text = rest) :
    lexer.Before area kind rest :=
  same ▸ before

/-- Over an unfailing source a scan leads where it is said to. -/
theorem exists_advance {ready : Lexer → Prop} {later : Lexer → Prop} (holds : ready lexer)
    (unfailing : lexer.source.IsUnfailing)
    (leads : Scan.advance.Leads ready fun _ => later) :
    ∃ after, Scan.advance.run lexer = (.ok (), after) ∧ after.source.IsUnfailing ∧ later after := by
  obtain ⟨after, success, still⟩ := advance_of_isUnfailing unfailing
  exact ⟨after, success, still, leads lexer after () holds success⟩

/-- The next token is the one that is spelled next. -/
theorem Before.advance (before : lexer.Before area kind text)
    (leads : ∀ span, Scan.advance.Leads (Stands area kind span text)
      fun _ => Stands last told made rest) :
    ∃ after, Scan.advance.run lexer = (.ok (), after) ∧ after.token.kind = told ∧
      after.token.text = made ∧ after.Before last told rest := by
  obtain ⟨span, stands⟩ := before.stands
  obtain ⟨after, success, unfailing, later⟩ := exists_advance stands before.unfailing (leads span)
  exact ⟨after, success, later.kind, later.span, unfailing, made, later⟩

theorem Spells.here (before : lexer.Before area kind rest) (ended : ends kind)
    (empty : phrase []) : lexer.Spells area ends rest phrase :=
  ⟨[], lexer, kind, .none lexer, empty, ended, before⟩

/-- The tokens of one phrase and then those of another. -/
theorem Spells.andThen (left : lexer.Spells area ends rest phrase)
    (right : ∀ (tokens : List Token) (after : Lexer) (kind : TokenKind), phrase tokens →
      ends kind → after.Before area kind rest →
      after.Spells last stops final fun more => whole (tokens ++ more)) :
    lexer.Spells last stops final whole := by
  obtain ⟨tokens, middle, kind, yields, holds, ended, before⟩ := left
  obtain ⟨more, after, lastKind, yieldsMore, all, stopped, later⟩ :=
    right tokens middle kind holds ended before
  exact ⟨tokens ++ more, after, lastKind, yields.append yieldsMore, all, stopped, later⟩

theorem Spells.imp (spells : lexer.Spells area ends rest phrase)
    (ended : ∀ kind, ends kind → stops kind) (derives : ∀ tokens, phrase tokens → whole tokens) :
    lexer.Spells area stops rest whole := by
  obtain ⟨tokens, after, kind, yields, holds, stopped, before⟩ := spells
  exact ⟨tokens, after, kind, yields, derives tokens holds, ended kind stopped, before⟩

/-- One token and then those of a phrase. -/
theorem Spells.next (success : Scan.advance.run lexer = (.ok (), middle))
    (before : middle.Before area kind text) (known : area ≠ .entering)
    (inside : kind ≠ .termination)
    (spells : middle.Spells last stops final fun more => whole (middle.token :: more)) :
    lexer.Spells last stops final whole := by
  obtain ⟨_, stands⟩ := before.stands
  obtain ⟨tokens, after, lastKind, yields, all, stopped, ended⟩ := spells
  exact ⟨middle.token :: tokens, after, lastKind,
    .next success (stands.more known) (stands.kind ▸ inside) yields, all, stopped, ended⟩

theorem Before.next (before : lexer.Before area kind text)
    (leads : ∀ span, Scan.advance.Leads (Stands area kind span text)
      fun _ => Stands last told made rest)
    (known : last ≠ .entering) (inside : told ≠ .termination)
    {goal : Area} (behind : ∀ (token : Token) (after : Lexer), token.kind = told →
      token.text = made → after.Before last told rest →
      after.Spells goal stops final fun more => whole (token :: more)) :
    lexer.Spells goal stops final whole := by
  obtain ⟨middle, success, kinds, texts, later⟩ := before.advance leads
  exact .next success later known inside (behind middle.token middle kinds texts later)

end Lexer

namespace Grammar

open Lexer Ascii

variable {lexer : Lexer} {area : Area} {kind : TokenKind} {text gap rest : Bytes}

/-! ### Comments -/

/-- The lexemes of a comment in braces. -/
def commentLexemes (text : Bytes) : List Lexeme :=
  (.commentBegin, []) :: (if text = [] then [] else [(.comment, text)]) ++ [(.commentEnd, [])]

theorem spells_braced (enclosable : text.isEnclosable closeBrace = true)
    (goesOn : area.GoesOn kind) (blank : gap.all isSpace = true)
    (before : lexer.Before area kind (gap ++ openBrace :: (text ++ closeBrace :: rest))) :
    lexer.Spells area (· = .commentEnd) rest fun tokens =>
      tokens.map Token.lexeme = commentLexemes text ∧ Remark tokens text := by
  obtain ⟨inner, entered, inside, same, left⟩ : ∃ inner,
      area.entered.behind .commentBegin = inner ∧ (inner = .opening ∨ inner = .moves) ∧
        inner.behind .comment = inner ∧ inner.behind .commentEnd = area := by
    rcases goesOn with rfl | ⟨rfl, _⟩
    · exact ⟨_, rfl, .inl rfl, rfl, rfl⟩
    · exact ⟨_, rfl, .inr rfl, rfl, rfl⟩
  have known : inner ≠ .entering := by
    rcases inside with rfl | rfl <;> decide
  have knownArea : area ≠ .entering := by
    rcases goesOn with rfl | ⟨rfl, _⟩ <;> decide
  refine before.next (fun _ => entered ▸ Scan.advance_openBrace goesOn blank) known
    (by decide) fun opening middle opens noText before => ?_
  by_cases empty : text = []
  · subst empty
    refine before.next (fun _ => left ▸ Scan.advance_closeBrace inside (.inl rfl)) knownArea
      (by decide) fun closing after closes noMore before => ?_
    refine .here before rfl ⟨?_, .empty opens closes⟩
    simp [Token.lexeme, commentLexemes, opens, noText, closes, noMore]
  · refine before.next (fun _ => same ▸ Scan.advance_comment inside enclosable empty) known
      (by decide) fun comment later isComment texts before => ?_
    refine before.next (fun _ => left ▸ Scan.advance_closeBrace inside (.inr rfl)) knownArea
      (by decide) fun closing after closes noMore before => ?_
    refine .here before rfl ⟨?_, texts ▸ .braced opens isComment closes⟩
    simp [Token.lexeme, commentLexemes, opens, noText, isComment, texts, closes, noMore, empty]

theorem spells_comment (writable : Comment.isWritable text = true)
    (goesOn : area.GoesOn kind) (blank : gap.all isSpace = true)
    (before : lexer.Before area kind (gap ++ (Comment.write text ++ rest))) :
    lexer.Spells area (· = .commentEnd) rest fun tokens => Remark tokens text := by
  have enclosable : text.isEnclosable closeBrace = true := by
    simp only [Comment.isWritable, Bool.and_eq_true] at writable
    exact writable.1.1
  have written : gap ++ (Comment.write text ++ rest) =
      gap ++ openBrace :: (text ++ closeBrace :: rest) := by
    simp [Comment.write]
  exact (spells_braced enclosable goesOn blank (before.congr written)).imp (fun _ => id)
    fun _ => And.right

/-! ### What follows a move -/

/-- What a text begins with that may follow a run of the movetext. -/
def Stops (text : Bytes) : Prop := text.head?.any (!isDelimiter ·) = false

theorem stops_cons {byte : UInt8} (delimiter : isDelimiter byte = true) : Stops (byte :: rest) := by
  simp [Stops, delimiter]

/-- The kinds of the last token of a move of the side, what follows the move included. -/
def EndsMove (side : Side) (kind : TokenKind) : Prop :=
  kind = side.moveKind ∨ kind = .nag ∨ kind = .commentEnd ∨ kind = .variationEnd

variable {side : Side} {marks remarks : List Bytes} {asides : List Line} {done : List Token}

theorem EndsMove.aside (ended : EndsMove side kind) : kind ≠ .commentBegin := by
  rcases ended with rfl | rfl | rfl | rfl
  · cases side <;> nofun
  all_goals nofun

/-- Behind a move of white, whatever follows it, a run is a move of black. -/
theorem EndsMove.moveKindAfter (ended : EndsMove .white kind) :
    kind.moveKindAfter = Side.black.moveKind := by
  rcases ended with rfl | rfl | rfl | rfl <;> rfl

theorem ofText?_write (nag : Nag) : Nag.ofText? nag.write = some nag := by
  obtain ⟨all, some, written⟩ := Bytes.decimal_spec nag.code.toNat
  have bound := nag.code.toNat_lt
  have number := written 256 (by omega)
  unfold Nag.write
  generalize Bytes.decimal nag.code.toNat = digits at *
  obtain ⟨digit, rest, rfl⟩ := List.exists_cons_of_ne_nil some
  show Nag.ofDigits? (digit :: rest) = _
  unfold Nag.ofDigits?
  rw [if_pos ⟨some, all, by omega⟩, number, UInt8.ofNat_toNat]

theorem spells_nags {nags : List Nag}
    (derives : Derives .standard (.items marks remarks asides) done)
    (ended : EndsMove side kind) (stopped : Stops rest)
    (before : lexer.Before .moves kind (nags.flatMap (fun nag => space :: nag.write) ++ rest)) :
    lexer.Spells .moves (EndsMove side) rest fun tokens =>
      Derives .standard (.items (marks ++ nags.map Nag.write) remarks asides) (done ++ tokens) := by
  induction nags generalizing lexer kind marks done with
  | nil =>
    refine .here before ended ?_
    rw [List.map_nil, List.append_nil, List.append_nil]
    exact derives
  | cons nag nags inductionHypothesis =>
    have later : Stops (nags.flatMap (fun nag => space :: nag.write) ++ rest) := by
      cases nags with
      | nil => exact stopped
      | cons nag nags => exact stops_cons rfl
    have all : (Bytes.decimal nag.code.toNat).all (!isDelimiter ·) = true := by
      refine List.all_eq_true.mpr fun digit member => ?_
      rw [Scan.isDelimiter_of_isDigit
        (List.all_eq_true.mp (Bytes.decimal_spec nag.code.toNat).1 digit member)]
      rfl
    refine (@Before.congr _ _ _ _ ([space] ++ _) before (by simp [Nag.write])).next
      (fun _ => Scan.advance_nag all later ended.aside rfl) nofun
      (by nofun) fun token after kinds texts before => ?_
    have derived := derives.nag kinds
    rw [show token.text = nag.write from texts] at derived
    exact (inductionHypothesis derived (.inr (.inl rfl)) before).imp (fun _ => id)
      fun tokens derives => by simpa using derives

theorem spells_remarks {nags : List Nag} {remark : Option Bytes}
    (writable : remark.all Comment.isWritable = true) (ended : EndsMove side kind)
    (stopped : Stops rest)
    (before : lexer.Before .moves kind (Move.writeRemarks nags remark ++ rest)) :
    lexer.Spells .moves (EndsMove side) rest fun tokens =>
      Derives .standard (.items (nags.map Nag.write) remark.toList []) tokens := by
  have later : Stops ((remark.toList.flatMap fun text => space :: Comment.write text) ++ rest) := by
    cases remark with
    | none => exact stopped
    | some text => exact stops_cons rfl
  have written := before.congr (List.append_assoc _ _ _)
  refine (spells_nags (@Derives.noItems .standard) ended later written).andThen
    fun tokens after kind derives ended before => ?_
  cases remark with
  | none => exact .here before ended (by simpa using derives)
  | some text =>
    have spelled := @spells_comment _ _ _ text [space] rest writable (.inr ⟨rfl, ended.aside⟩) rfl
      (before.congr (by simp))
    refine spelled.imp (fun _ closes => .inr (.inr (.inl closes))) fun more remark => ?_
    simpa using derives.remark remark

/-! ### What is read back of a move -/

section Composed

variable {nags held : List Nag} {lines : List Line} {remark : Option Bytes}

/-- New annotations are added to those before them. -/
theorem foldl_noted_write (room : (held ++ nags).length ≤ 8) (fresh : (held ++ nags).Nodup) :
    (nags.map Nag.write).foldl (Nag.noted .standard) held = held ++ nags := by
  induction nags generalizing held with
  | nil => exact (List.append_nil held).symm
  | cons nag nags inductionHypothesis =>
    have within : ¬ Config.standard.annotationLimit ≤ held.length := by
      show ¬ 8 ≤ held.length
      simp only [List.length_append, List.length_cons] at room
      omega
    have new : nag ∉ held := fun member =>
      (List.nodup_append.mp fresh).2.2 nag member nag List.mem_cons_self rfl
    have one : Nag.noted .standard held nag.write = held ++ [nag] := by
      unfold Nag.noted
      rw [if_neg within, ofText?_write]
      simp [Nag.put, Config.standard, new]
    rw [List.append_cons] at room fresh
    rw [List.map_cons, List.foldl_cons, one, inductionHypothesis room fresh, List.append_assoc,
      List.singleton_append]

/-- A comment that can be written is kept as it is written. -/
theorem joined_of_isWritable (writable : remark.all Comment.isWritable = true) :
    Comment.joined .standard remark.toList = remark := by
  cases remark with
  | none => exact Comment.joined_nil
  | some text =>
    have keeps : Config.standard.skip.comments = false := rfl
    rw [Option.toList_some, Comment.joined_of_ne_nil keeps (List.cons_ne_nil _ _),
      List.flatMap_singleton, ← Comment.tidy_eq_kept]
    exact congrArg some (Bytes.trim_of_isWritable writable)

theorem kept_of_variationsWritable (writable : variationsWritable lines = true) :
    Line.kept .standard lines = lines := by
  show lines.filter (!·.isEmpty) = lines
  induction lines with
  | nil => rfl
  | cons line lines inductionHypothesis =>
    simp only [variationsWritable, Bool.and_eq_true] at writable
    rw [List.filter_cons, if_pos writable.1.1, inductionHypothesis writable.2]

/-- What is read of a move with its details in writing are these details. -/
theorem composed_of_writable (remarks : remark.all Comment.isWritable = true)
    (room : nags.length ≤ 8) (fresh : nags.Nodup) (variations : variationsWritable lines = true) :
    Move.composed .standard text (nags.map Nag.write) remark.toList lines =
      .withDetails text remark nags lines := by
  have codes : (nags.map Nag.write).foldl (Nag.noted .standard) [] = [] ++ nags :=
    foldl_noted_write room fresh
  show Move.withDetails text (Comment.joined .standard remark.toList)
    ((nags.map Nag.write).foldl (Nag.noted .standard) []) (Line.kept .standard lines) = _
  rw [joined_of_isWritable remarks, codes, List.nil_append, kept_of_variationsWritable variations]

end Composed

/-! ### Moves, turns and lines -/

/-- A number with its dots. -/
theorem spells_number {number : UInt32} {dots : Bytes} (goesOn : area.GoesOn kind)
    (blank : gap.all isSpace = true) (some : dots ≠ []) (all : dots.all (· == dot) = true)
    (before : lexer.Before area kind (gap ++ (Turn.writeNumber number dots ++ rest))) :
    lexer.Spells .moves (· = if dots = [dot] then .dot else .ellipsis) (space :: rest) fun tokens =>
      ∃ first second, tokens = [first, second] ∧ first.kind = .moveNumber ∧
        Grammar.number first.text = number ∧
        second.kind = if dots = [dot] then .dot else .ellipsis := by
  obtain ⟨digits, nonempty, written⟩ := Bytes.decimal_spec number.toNat
  obtain ⟨byte, tail, rfl⟩ := List.exists_cons_of_ne_nil some
  have equal : byte = dot := by
    rw [List.all_cons, Bool.and_eq_true, beq_iff_eq] at all
    exact all.1
  subst equal
  have split : gap ++ (Turn.writeNumber number (dot :: tail) ++ rest) =
      gap ++ (Bytes.decimal number.toNat ++ dot :: (tail ++ space :: rest)) := by
    simp [Turn.writeNumber]
  refine (before.congr split).next
    (fun _ => Scan.advance_number goesOn blank digits nonempty rfl) (by nofun) (by nofun)
    fun first middle isNumber texts before => ?_
  refine (@Before.congr _ _ _ _ ([] ++ _) before (List.cons_append ..).symm).next
    (fun _ => Scan.advance_dots (List.cons_ne_nil _ _) all rfl nofun rfl) (by nofun)
    (by split <;> nofun)
    fun second after isDots _ before => ?_
  refine .here before rfl ⟨first, second, rfl, isNumber, ?_, isDots⟩
  have bound := number.toNat_lt
  rw [texts, ← ofNat_boundedNumber, written _ (by show _ ≤ 4294967295; omega), UInt32.ofNat_toNat]

section Moves

variable (repeats : Move → Bool)

/-- The move is read back from its text behind a token after which a move of the side is told. -/
def MoveSpelled (move : Move) : Prop :=
  ∀ ⦃side : Side⦄ ⦃kind : TokenKind⦄ ⦃lexer : Lexer⦄ ⦃rest : Bytes⦄,
    kind.moveKindAfter = side.moveKind → Stops rest →
    lexer.Before .moves kind (space :: (move.write repeats ++ rest)) →
    lexer.Spells .moves (EndsMove side) rest (Derives .standard (.half side.moveKind move))

/-- The variations are read back from their text behind a move and its remarks. -/
def VariationsSpelled (lines : List Line) : Prop :=
  ∀ ⦃side : Side⦄ ⦃kind : TokenKind⦄ ⦃lexer : Lexer⦄ ⦃rest : Bytes⦄ ⦃marks remarks : List Bytes⦄
    ⦃asides : List Line⦄ ⦃done : List Token⦄, Derives .standard (.items marks remarks asides) done →
    EndsMove side kind → Stops rest →
    lexer.Before .moves kind (writeVariations repeats lines ++ rest) →
    lexer.Spells .moves (EndsMove side) rest fun tokens =>
      Derives .standard (.items marks remarks (asides ++ lines)) (done ++ tokens)

/-- The turn is read back from its text behind complete turns. -/
def TurnSpelled (turn : Turn) : Prop :=
  ∀ ⦃area : Area⦄ ⦃kind : TokenKind⦄ ⦃lexer : Lexer⦄ ⦃gap rest : Bytes⦄ ⦃line : Line⦄
    ⦃done : List Token⦄, area.GoesOn kind → gap.all isSpace = true → Stops rest →
    Derives .standard (.turns line) done →
    lexer.Before area kind (gap ++ (turn.write repeats ++ rest)) →
    lexer.Spells .moves (· ≠ .commentBegin) rest fun tokens =>
      Derives .standard (.sequence (line ++ [turn])) (done ++ tokens) ∧
        (turn.black?.isSome = true → Derives .standard (.turns (line ++ [turn])) (done ++ tokens))

/-- The turns are read back from their text behind complete turns. -/
def LineSpelled (turns : Line) : Prop :=
  ∀ ⦃area : Area⦄ ⦃kind : TokenKind⦄ ⦃lexer : Lexer⦄ ⦃gap rest : Bytes⦄ ⦃line : Line⦄
    ⦃done : List Token⦄, turns ≠ [] → area.GoesOn kind → gap.all isSpace = true → Stops rest →
    Derives .standard (.turns line) done →
    lexer.Before area kind (gap ++ (Bytes.join [space] (writeTurns repeats turns) ++ rest)) →
    lexer.Spells .moves (· ≠ .commentBegin) rest fun tokens =>
      Derives .standard (.sequence (line ++ turns)) (done ++ tokens)

variable {repeats} {white black : Move} {number : UInt32} {turn : Turn} {line : Line}
  {lines : List Line} {nags : List Nag} {remark : Option Bytes}

/-- The move is read back if its text is followed by what is kept of it. -/
theorem moveSpelled {move : Move} (isMove : Move.isMoveText text = true)
    (writable : remark.all Comment.isWritable = true) (variations : VariationsSpelled repeats lines)
    (same : Move.composed .standard text (nags.map Nag.write) remark.toList lines = move)
    (written : move.write repeats =
      text ++ (Move.writeRemarks nags remark ++ writeVariations repeats lines)) :
    MoveSpelled repeats move := by
  intro side kind lexer rest sides stopped before
  have aside : kind ≠ .commentBegin := by
    rintro rfl
    cases side <;> cases sides
  have insideVariations : Stops (writeVariations repeats lines ++ rest) := by
    cases lines with
    | nil => exact stopped
    | cons line lines => exact stops_cons rfl
  have inside : Stops (Move.writeRemarks nags remark ++ (writeVariations repeats lines ++ rest)) := by
    cases nags with
    | cons nag nags => exact stops_cons rfl
    | nil =>
      cases remark with
      | some text => exact stops_cons rfl
      | none => exact insideVariations
  refine (@Before.congr _ _ _ _ ([space] ++ _) before (by simp [written])).next
    (fun _ => Scan.advance_move isMove inside aside rfl fun _ => rfl) (by nofun) ?_
    fun token after isToken texts before => ?_
  · rw [sides]
    cases side <;> nofun
  have ended : EndsMove side kind.moveKindAfter := .inl sides
  refine (spells_remarks writable ended insideVariations before).andThen
    fun tokens middle kind derives ended before => ?_
  refine (variations derives ended stopped before).imp (fun _ => id) fun more derives => ?_
  have half := Derives.half (by cases side <;> simp [Side.moveKind]) (isToken.trans sides) derives
  rwa [show token.text = text from texts, List.nil_append, same] at half

theorem variationsSpelled_nil : VariationsSpelled repeats [] := by
  intro side kind lexer rest marks remarks asides done derives ended stopped before
  refine .here before ended ?_
  rw [List.append_nil, List.append_nil]
  exact derives

theorem moveSpelled_bare (isMove : Move.isMoveText text = true) :
    MoveSpelled repeats ⟨text, none⟩ := by
  have same : Move.composed .standard text (([] : List Nag).map Nag.write)
      (none : Option Bytes).toList [] = ⟨text, none⟩ := rfl
  exact moveSpelled isMove rfl variationsSpelled_nil same (List.append_nil text).symm

theorem variationsSpelled_cons (some : line ≠ []) (spelled : LineSpelled repeats line)
    (more : VariationsSpelled repeats lines) : VariationsSpelled repeats (line :: lines) := by
  intro side kind lexer rest marks remarks asides done derives ended stopped before
  have split : writeVariations repeats (line :: lines) ++ rest =
      [space] ++ openParen :: ([] ++ (Bytes.join [space] (writeTurns repeats line) ++ closeParen ::
        (writeVariations repeats lines ++ rest))) := by
    simp [writeVariations]
  refine (before.congr split).next
    (fun _ => Scan.advance_paren ended.aside rfl (.inl ⟨rfl, rfl⟩)) (by nofun) (by nofun)
    fun opening after opens _ before => ?_
  refine (spelled some (.inr ⟨rfl, by nofun⟩) rfl (stops_cons rfl) .noTurns before).andThen
    fun body middle kind inner aside before => ?_
  refine (@Lexer.Before.congr _ _ _ _ ([] ++ _) before rfl).next
    (fun _ => Scan.advance_paren aside rfl (.inr ⟨rfl, rfl⟩)) (by nofun) (by nofun)
    fun closing last closes _ before => ?_
  have added := derives.aside (derives_variation opens inner closes)
  refine (more added (.inr (.inr (.inr rfl))) stopped before).imp (fun _ => id)
    fun tokens derives => ?_
  simpa using derives

theorem turnSpelled_whiteOnly (spelled : MoveSpelled repeats white) :
    TurnSpelled repeats (.whiteOnly number white) := by
  intro area kind lexer gap rest line done goesOn blank stopped derives before
  have split : gap ++ ((Turn.whiteOnly number white).write repeats ++ rest) =
      gap ++ (Turn.writeNumber number [dot] ++ (white.write repeats ++ rest)) := by
    simp [Turn.write]
  refine (spells_number goesOn blank (List.cons_ne_nil _ _) rfl (before.congr split)).andThen ?_
  rintro _ middle _ ⟨first, second, rfl, numbered, rfl, dotted⟩ rfl before
  refine (@spelled .white _ _ _ rfl stopped before).imp (fun _ ended => ended.aside)
    fun tokens moved => ⟨.unanswered derives numbered dotted moved, nofun⟩

/-- A turn with a move of black is complete. -/
theorem derives_complete {lead tokens : List Token} {white : Option Move} {done : List Token}
    (derives : Derives .standard (.turns line) done)
    (led : Derives .standard (.lead number white .blackMove) lead)
    (moved : Derives .standard (.half .blackMove black) tokens) :
    Derives .standard (.sequence (line ++ [LineDraft.blackTurn number white black]))
        (done ++ (lead ++ tokens)) ∧
      ((LineDraft.blackTurn number white black).black?.isSome = true →
        Derives .standard (.turns (line ++ [LineDraft.blackTurn number white black]))
          (done ++ (lead ++ tokens))) :=
  have turns := derives.moreTurns (derives_turn led moved)
  ⟨.answered turns, fun _ => turns⟩

theorem turnSpelled_blackOnly (spelled : MoveSpelled repeats black) :
    TurnSpelled repeats (.blackOnly number black) := by
  intro area kind lexer gap rest line done goesOn blank stopped derives before
  have split : gap ++ ((Turn.blackOnly number black).write repeats ++ rest) =
      gap ++ (Turn.writeNumber number Turn.skippingDots ++ (black.write repeats ++ rest)) := by
    simp [Turn.write]
  refine (spells_number goesOn blank (List.cons_ne_nil _ _) rfl (before.congr split)).andThen ?_
  rintro _ middle _ ⟨first, second, rfl, numbered, rfl, skipped⟩ rfl before
  refine (@spelled .black _ _ _ rfl stopped before).imp (fun _ ended => ended.aside)
    fun tokens moved => ?_
  exact derives_complete derives (.skipping numbered .absent skipped) moved

theorem turnSpelled_both (spelledWhite : MoveSpelled repeats white)
    (spelledBlack : MoveSpelled repeats black) : TurnSpelled repeats (.both number white black) := by
  intro area kind lexer gap rest line done goesOn blank stopped derives before
  have split : gap ++ ((Turn.both number white black).write repeats ++ rest) =
      gap ++ (Turn.writeNumber number [dot] ++ (white.write repeats ++ space ::
        ((if repeats white then Turn.writeNumber number Turn.skippingDots else []) ++
          (black.write repeats ++ rest)))) := by
    simp [Turn.write]
  refine (spells_number goesOn blank (List.cons_ne_nil _ _) rfl (before.congr split)).andThen ?_
  rintro _ middle _ ⟨first, second, rfl, numbered, rfl, dotted⟩ rfl before
  refine (@spelledWhite .white _ _ _ rfl (stops_cons rfl) before).andThen
    fun tokens behind kind moved ended before => ?_
  by_cases repeated : repeats white = true
  · rw [if_pos repeated] at before
    refine (@spells_number _ _ _ [space] _ _ _ (.inr ⟨rfl, ended.aside⟩) rfl
      (List.cons_ne_nil _ _) rfl before).andThen ?_
    rintro _ last _ ⟨again, ellipsis, rfl, renumbered, _, skipped⟩ rfl before
    refine (@spelledBlack .black _ _ _ rfl stopped before).imp (fun _ ended => ended.aside)
      fun more answer => ?_
    have whole : first :: second :: tokens ++ [again, ellipsis] ++ more =
        [first, second] ++ (tokens ++ ([again, ellipsis] ++ more)) := by
      simp
    rw [← whole]
    exact derives_complete derives (.deferred numbered dotted moved renumbered skipped) answer
  · rw [if_neg repeated] at before
    refine (@spelledBlack .black _ _ _ ended.moveKindAfter stopped before).imp
      (fun _ ended => ended.aside) fun more answer => ?_
    exact derives_complete derives (.direct numbered dotted moved) answer

theorem lineSpelled_cons {turns : Line} (spelled : TurnSpelled repeats turn)
    (answered : turns = [] ∨ turn.black?.isSome = true) (more : LineSpelled repeats turns) :
    LineSpelled repeats (turn :: turns) := by
  intro area kind lexer gap rest line done _ goesOn blank stopped derives before
  by_cases last : turns = []
  · subst last
    exact (spelled goesOn blank stopped derives before).imp (fun _ => id) fun _ => And.left
  · have complete := answered.resolve_left last
    have split : gap ++ (Bytes.join [space] (writeTurns repeats (turn :: turns)) ++ rest) =
        gap ++ (turn.write repeats ++ ([space] ++
          (Bytes.join [space] (writeTurns repeats turns) ++ rest))) := by
      obtain ⟨next, others, rfl⟩ := List.exists_cons_of_ne_nil last
      simp [writeTurns, Bytes.join]
    refine (spelled goesOn blank (stops_cons rfl) derives (before.congr split)).andThen
      fun tokens middle kind derived aside before => ?_
    refine (@more _ _ _ [space] _ _ _ last (.inr ⟨rfl, aside⟩) rfl stopped (derived.2 complete)
      before).imp
      (fun _ => id) fun others derives => ?_
    simpa using derives

variable (repeats)

/-! ### Every game tree -/

mutual

theorem Move.spelled : ∀ move : Move, move.isWritable = true → MoveSpelled repeats move
  | ⟨_, none⟩, writable => moveSpelled_bare writable
  | ⟨text, some ⟨remark, nags, lines⟩⟩, writable => by
    simp only [Move.isWritable, Bool.and_eq_true, decide_eq_true_eq] at writable
    obtain ⟨⟨⟨⟨⟨something, isMove⟩, remarks⟩, room⟩, fresh⟩, variations⟩ := writable
    refine moveSpelled isMove remarks (variationsSpelled lines variations) ?_
      (List.append_assoc _ _ _)
    rw [composed_of_writable remarks room fresh variations]
    exact Move.withDetails_of_some something

theorem Turn.spelled : ∀ turn : Turn, turn.isWritable = true → TurnSpelled repeats turn
  | .whiteOnly _ white, writable => turnSpelled_whiteOnly (Move.spelled white writable)
  | .blackOnly _ black, writable => turnSpelled_blackOnly (Move.spelled black writable)
  | .both _ white black, writable =>
    have parts := Bool.and_eq_true_iff.mp writable
    turnSpelled_both (Move.spelled white parts.1) (Move.spelled black parts.2)

theorem lineSpelled : ∀ turns : List Turn, lineWritable turns = true → LineSpelled repeats turns
  | [], _ => fun _ _ _ _ _ _ _ some => absurd rfl some
  | turn :: rest, writable => by
    simp only [lineWritable, Bool.and_eq_true, Bool.or_eq_true, List.isEmpty_iff] at writable
    obtain ⟨⟨own, answered⟩, others⟩ := writable
    exact lineSpelled_cons (Turn.spelled turn own) answered (lineSpelled rest others)

theorem variationsSpelled :
    ∀ lines : List (List Turn), variationsWritable lines = true → VariationsSpelled repeats lines
  | [], _ => variationsSpelled_nil
  | line :: rest, writable => by
    simp only [variationsWritable, Bool.and_eq_true, Bool.not_eq_true', List.isEmpty_eq_false_iff]
      at writable
    obtain ⟨⟨some, own⟩, others⟩ := writable
    exact variationsSpelled_cons some (lineSpelled line own) (variationsSpelled rest others)

end

end Moves

/-! ### Header sections -/

/-- A value with its closing quote and bracket. -/
theorem spells_value {text : Bytes} (enclosable : text.isEnclosable quote = true)
    (before : lexer.Before .header .valueBegin (text ++ quote :: closeBracket :: rest)) :
    lexer.Spells .between (· = .headerEnd) rest fun tokens =>
      ∃ value endQuote endBracket, tokens = value ++ [endQuote, endBracket] ∧
        Optional .value value text ∧ endQuote.kind = .valueEnd ∧ endBracket.kind = .headerEnd := by
  by_cases empty : text = []
  · subst empty
    refine before.next (fun _ => Scan.advance_closeQuote) (by nofun) (by nofun)
      fun endQuote middle closes _ before => ?_
    refine before.next (fun _ => Scan.advance_closeBracket) (by nofun) (by nofun)
      fun endBracket after ends _ before => ?_
    exact .here before rfl ⟨[], endQuote, endBracket, rfl, .absent, closes, ends⟩
  · refine before.next (fun _ => Scan.advance_value enclosable empty) (by nofun) (by nofun)
      fun value first valued texts before => ?_
    refine before.next (fun _ => Scan.advance_quote ⟨nofun, nofun⟩) (by nofun) (by nofun)
      fun endQuote middle closes _ before => ?_
    refine before.next (fun _ => Scan.advance_closeBracket) (by nofun) (by nofun)
      fun endBracket after ends _ before => ?_
    exact .here before rfl
      ⟨[value], endQuote, endBracket, rfl, texts ▸ .present valued, closes, ends⟩

/-- The kinds of tokens between the parts of an input. -/
def Aside (kind : TokenKind) : Prop := kind ≠ .valueBegin ∧ kind ≠ .headerName

theorem spells_pair {pair : HeaderPair} (writable : pair.isWritable = true)
    (aside : Aside kind) (blank : gap.all isSpace = true)
    (before : lexer.Before .between kind (gap ++ (pair.write ++ rest))) :
    lexer.Spells .between (· = .headerEnd) (lineFeed :: rest) fun tokens => Spaced tokens pair := by
  obtain ⟨pairName, pairValue⟩ := pair
  simp only [HeaderPair.isWritable, Bool.and_eq_true, Bool.not_eq_true',
    List.isEmpty_eq_false_iff] at writable
  obtain ⟨⟨some, all⟩, enclosable⟩ := writable
  have split : gap ++ (HeaderPair.write ⟨pairName, pairValue⟩ ++ rest) =
      gap ++ openBracket :: (pairName ++ space :: quote :: (pairValue ++ quote :: closeBracket ::
        lineFeed :: rest)) := by
    simp [HeaderPair.write]
  obtain ⟨_, stands⟩ := (before.congr split).stands
  obtain ⟨bracket, success, unfailing, begun, inLine⟩ :=
    Lexer.exists_advance stands before.unfailing (Scan.advance_openBracket blank aside)
  obtain ⟨name, successName, unfailingName, named⟩ :=
    Lexer.exists_advance ⟨begun, inLine⟩ unfailing (Scan.advance_name some all rfl)
  refine .next success ⟨unfailing, _, begun⟩ nofun nofun
    (.next successName ⟨unfailingName, _, named⟩ nofun nofun ?_)
  refine Lexer.Before.next ⟨unfailingName, _, named⟩ (fun _ => Scan.advance_separator) (by nofun)
    (by nofun) fun separator first separated _ before => ?_
  refine before.next (fun _ => Scan.advance_quote ⟨nofun, nofun⟩) (by nofun) (by nofun)
    fun opening middle opens _ before => ?_
  refine (spells_value enclosable before).imp (fun _ => id) ?_
  rintro _ ⟨value, endQuote, endBracket, rfl, valued, closes, ends⟩
  have begins : bracket.token.kind = .headerBegin := begun.kind
  have isName : name.token.kind = .headerName := named.kind
  have derived := Header.pair begins isName (.present separated) opens valued closes ends
  rw [show name.token.text = pairName from named.span] at derived
  exact ⟨by simpa using derived, separator, by simp, separated⟩

theorem spells_pairs {pairs earlier : List HeaderPair} {done : List Token} (some : pairs ≠ [])
    (writable : pairs.all HeaderPair.isWritable = true) (aside : Aside kind)
    (blank : gap.all isSpace = true) (derives : Many Spaced done earlier)
    (before : lexer.Before .between kind (gap ++ (pairs.flatMap HeaderPair.write ++ rest))) :
    lexer.Spells .between (· = .headerEnd) (lineFeed :: rest) fun tokens =>
      Many Spaced (done ++ tokens) (earlier ++ pairs) := by
  induction pairs generalizing lexer kind gap earlier done with
  | nil => exact absurd rfl some
  | cons pair pairs inductionHypothesis =>
    rw [List.all_cons, Bool.and_eq_true] at writable
    have split : gap ++ ((pair :: pairs).flatMap HeaderPair.write ++ rest) =
        gap ++ (pair.write ++ (pairs.flatMap HeaderPair.write ++ rest)) := by
      simp
    refine (spells_pair writable.1 aside blank (before.congr split)).andThen ?_
    rintro tokens middle _ derived rfl before
    have grown := derives.more derived
    by_cases last : pairs = []
    · subst last
      refine .here before rfl ?_
      rwa [List.append_nil]
    · refine (@inductionHypothesis middle .headerEnd [lineFeed] _ _ last writable.2
        ⟨nofun, nofun⟩ rfl grown before).imp (fun _ => id) fun more derives => ?_
      simpa using derives

end Grammar

end Scoresheet
