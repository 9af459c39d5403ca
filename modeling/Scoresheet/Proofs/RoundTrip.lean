/-
This file shows that reading undoes writing. The text of a game is a segment of the input whose
tokens derive from the game, so that it is the game that is read; behind its marker the lexer stands
in front of the next text. A reader of the texts of any games yields these games in order, and then
nothing, however often it is asked.
-/

import Scoresheet.Cache.PairHash
import Scoresheet.Proofs.Passes
import Scoresheet.Proofs.Phrasing

namespace Scoresheet

namespace Grammar

open Lexer Ascii

variable {repeats : Move → Bool} {lexer : Lexer} {kind : TokenKind} {gap rest : Bytes}

/-! ### The parts of a game -/

theorem spells_headers {headers : Option (List HeaderPair)}
    (writable : Game.headersWritable headers = true) (aside : Aside kind)
    (blank : gap.all isSpace = true)
    (before : lexer.Before .between kind (gap ++ (Game.writeHeaders headers ++ rest))) :
    ∃ blanks : Bytes, blanks.all isSpace = true ∧
      lexer.Spells .between (fun _ => True) (blanks ++ rest) fun tokens =>
        ∃ pairs, Many Header tokens pairs ∧ kept pairs = headers := by
  cases headers with
  | none => exact ⟨gap, blank, .here before trivial ⟨[], .none, rfl⟩⟩
  | some pairs =>
    simp only [Game.headersWritable, Bool.and_eq_true, Bool.not_eq_true',
      List.isEmpty_eq_false_iff] at writable
    have split : gap ++ (Game.writeHeaders (some pairs) ++ rest) =
        gap ++ (pairs.flatMap HeaderPair.write ++ lineFeed :: rest) := by
      simp [Game.writeHeaders]
    refine ⟨[lineFeed, lineFeed], rfl, (spells_pairs writable.1 writable.2 aside blank .none
      (before.congr split)).imp (fun _ _ => trivial) fun tokens derives => ⟨pairs, ?_, ?_⟩⟩
    · have spaced : Many Spaced tokens pairs := by simpa using derives
      exact spaced.imp fun _ _ => And.left
    · exact if_neg writable.1

theorem spells_gameComment {remark : Option Bytes}
    (writable : remark.all Comment.isWritable = true) (blank : gap.all isSpace = true)
    (before : lexer.Before .between kind
      (gap ++ (remark.toList.flatMap (fun text => Comment.write text ++ [space]) ++ rest))) :
    ∃ blanks : Bytes, blanks.all isSpace = true ∧
      lexer.Spells .between (fun _ => True) (blanks ++ rest) fun tokens =>
        ∃ texts, Many Remark tokens texts ∧ Comment.joined .standard texts = remark := by
  cases remark with
  | none => exact ⟨gap, blank, .here before trivial ⟨[], .none, Comment.joined_nil⟩⟩
  | some text =>
    have split : gap ++ ((some text).toList.flatMap (fun text => Comment.write text ++ [space]) ++
        rest) = gap ++ (Comment.write text ++ space :: rest) := by
      simp
    refine ⟨[space], rfl, (spells_comment writable (.inl rfl) blank (before.congr split)).imp
      (fun _ _ => trivial) fun tokens remark => ⟨[text], ?_, joined_of_isWritable writable⟩⟩
    exact .more .none remark

theorem spells_line {turns : Line} {marker : Bytes} (writable : lineWritable turns = true)
    (blank : gap.all isSpace = true)
    (before : lexer.Before .between kind
      (gap ++ (Bytes.join [space] (writeTurns repeats turns ++ [marker]) ++ rest))) :
    ∃ (area : Area) (blanks : Bytes), blanks.all isSpace = true ∧
      lexer.Spells area (area.GoesOn ·) (blanks ++ (marker ++ rest))
        (Derives .standard (.sequence turns)) := by
  by_cases empty : turns = []
  · subst empty
    exact ⟨.between, gap, blank, .here before (.inl rfl) (.answered .noTurns)⟩
  · have some : writeTurns repeats turns ≠ [] := by
      obtain ⟨turn, others, rfl⟩ := List.exists_cons_of_ne_nil empty
      simp [writeTurns]
    have split : gap ++ (Bytes.join [space] (writeTurns repeats turns ++ [marker]) ++ rest) =
        gap ++ (Bytes.join [space] (writeTurns repeats turns) ++ space :: (marker ++ rest)) := by
      rw [Bytes.join_concat some]
      simp
    exact ⟨.moves, [space], rfl, (lineSpelled repeats turns writable empty (.inl rfl) blank
      (stops_cons rfl) .noTurns (before.congr split)).imp (fun _ aside => .inr ⟨rfl, aside⟩)
      fun _ => id⟩

/-- The text of a game is a segment whose tokens derive from the game. -/
theorem segment_of_written {game : Game} (writable : game.isWritable = true) (aside : Aside kind)
    (blank : gap.all isSpace = true)
    (before : lexer.Before .between kind (gap ++ (game.write repeats ++ rest))) :
    Played .standard lexer.segment.1 game ∧
      lexer.segment.2.Before .between .termination (lineFeed :: rest) := by
  obtain ⟨headers, remark, turns, outcome⟩ := game
  simp only [Game.isWritable, Bool.and_eq_true] at writable
  obtain ⟨⟨headersOk, remarkOk⟩, turnsOk⟩ := writable
  have split : gap ++ (Game.write repeats ⟨headers, remark, turns, outcome⟩ ++ rest) =
      gap ++ (Game.writeHeaders headers ++
        (remark.toList.flatMap (fun text => Comment.write text ++ [space]) ++
          (Bytes.join [space] (writeTurns repeats turns ++ [outcome.marker]) ++
            lineFeed :: rest))) := by
    rw [Game.write, Bytes.join_append (by simp)]
    simp [List.flatMap_map]
  obtain ⟨_, blankFirst, pairTokens, first, _, yieldsPairs, ⟨pairs, derivesPairs, rfl⟩, _,
    before⟩ := spells_headers headersOk aside blank (before.congr split)
  obtain ⟨_, blankSecond, remarkTokens, second, _, yieldsRemark, ⟨texts, derivesRemark, rfl⟩, _,
    before⟩ := spells_gameComment remarkOk blankFirst before
  obtain ⟨area, _, blankThird, moveTokens, third, _, yieldsMoves, derivesMoves, goesOn, before⟩ :=
    spells_line turnsOk blankSecond before
  obtain ⟨after, success, isMarker, named, later⟩ :=
    before.advance fun _ => Scan.advance_marker outcome goesOn blankThird
  obtain ⟨_, stands⟩ := later.stands
  have marker := segment_of_marker success (stands.more nofun) isMarker
  have whole := ((yieldsPairs.append yieldsRemark).append yieldsMoves).segment_eq
  rw [marker] at whole
  rw [whole]
  exact ⟨.game .none derivesPairs derivesRemark derivesMoves isMarker named.symm, later⟩

end Grammar

/-! ### Reading a text that was written -/

open Lexer Ascii Grammar

/-- A game that the tokens of a segment amount to is read, whatever is interned, and the lexer is
behind the segment then. -/
theorem Draft.read_of_judge [Hashable HeaderPair] {config : Config} {game : Game} {lexer : Lexer}
    (unfailing : lexer.source.IsUnfailing)
    (finished : Draft.start.judge config lexer.segment.1 = .finished game) (interner : Interner) :
    ∃ entry, (Draft.read config interner lexer).1 = .ok (some entry) ∧ entry.game = game ∧
      (Draft.read config interner lexer).2.2 = lexer.segment.2 := by
  obtain ⟨reading, stops, _⟩ := Draft.readOn_eq_judge unfailing config .start [] interner
  unfold Draft.read
  rw [finished] at reading
  generalize Draft.start.readOn config [] interner lexer = result at *
  obtain ⟨answer, interned, after⟩ := result
  match answer, reading with
  | .ok (some entry), reading =>
    exact ⟨entry, rfl, Option.some.inj (Except.ok.inj reading),
      stops.resolve_left fun ⟨_, refused, _⟩ => by cases refused⟩

/-- Reading yields the game that was written. -/
theorem read_written [Hashable HeaderPair] {repeats : Move → Bool} {game : Game} {lexer : Lexer}
    {kind : TokenKind} {gap rest : Bytes} (writable : game.isWritable = true) (aside : Aside kind)
    (blank : gap.all isSpace = true)
    (before : lexer.Before .between kind (gap ++ (game.write repeats ++ rest)))
    (interner : Interner) :
    ∃ entry, (Draft.read .standard interner lexer).1 = .ok (some entry) ∧ entry.game = game ∧
      (Draft.read .standard interner lexer).2.2.Before .between .termination (lineFeed :: rest) := by
  obtain ⟨played, later⟩ := segment_of_written writable aside blank before
  have lenient : Config.standard.IsLenient := ⟨rfl, rfl, rfl, rfl⟩
  have finished := judge_of_played lenient played (tokens_of_segment lexer).1
  obtain ⟨entry, read, same, after⟩ := Draft.read_of_judge before.unfailing finished interner
  exact ⟨entry, read, same, after ▸ later⟩

/-- In front of nothing but white space there is no game. -/
theorem read_blank [Hashable HeaderPair] {lexer : Lexer} {kind : TokenKind} {gap : Bytes}
    (blank : gap.all isSpace = true) (before : lexer.Before .between kind gap) (config : Config)
    (interner : Interner) :
    (Draft.read config interner lexer).1 = .ok none := by
  obtain ⟨span, stands⟩ := before.stands
  obtain ⟨after, success, _, last⟩ :=
    exists_advance stands before.unfailing (Scan.advance_end blank)
  unfold Draft.read
  rw [Draft.readOn_of_last success last]
  rfl

namespace Reader

/-- With the standard settings, the reader stands between games, in front of the text. -/
structure Between (text : Bytes) (reader : Reader) : Prop where
  config : reader.config = .standard
  running : reader.isDone = false
  before : ∃ kind gap, Aside kind ∧ gap.all isSpace = true ∧
    reader.lexer.Before .between kind (gap ++ text)

variable {reader : Reader} {text rest : Bytes}

theorem Between.room (between : reader.Between text) : reader.atLimit = false := by
  rw [atLimit, between.config]
  rfl

variable [Hashable HeaderPair]

/-- What requests for games made one after the other return, apart from the allocations. -/
def returns : Nat → Reader → List (Option (Except ReadError Game))
  | 0, _ => []
  | count + 1, reader =>
    reader.next.1.map (·.map Entry.game) :: reader.next.2.returns count

/-- A game that is read is returned. -/
theorem next_of_read {reader : Reader} {entry : Entry} (running : reader.isDone = false)
    (room : reader.atLimit = false)
    (read : (Draft.read reader.config reader.interner reader.lexer).1 = .ok (some entry)) :
    reader.next = (some (.ok entry), { reader with
      interner := (Draft.read reader.config reader.interner reader.lexer).2.1
      lexer := (Draft.read reader.config reader.interner reader.lexer).2.2
      gamesRead := reader.gamesRead + 1 }) := by
  refine next_of_answered running room ?_
  unfold Reader.pass
  dsimp only
  rw [read]
  rfl

/-- Where there is no game to read, none is returned and the reader is done. -/
theorem next_of_nothing {reader : Reader} (running : reader.isDone = false)
    (room : reader.atLimit = false)
    (read : (Draft.read reader.config reader.interner reader.lexer).1 = .ok none) :
    reader.next.1 = none ∧ reader.next.2.isDone = true := by
  have passed : reader.pass = (some none, { reader with
      interner := (Draft.read reader.config reader.interner reader.lexer).2.1
      lexer := (Draft.read reader.config reader.interner reader.lexer).2.2
      isDone := true }) := by
    unfold Reader.pass
    dsimp only
    rw [read]
    rfl
  rw [next_of_answered running room passed]
  exact ⟨rfl, rfl⟩

/-- The next game is the one that was written, and the reader stands behind it then. -/
theorem Between.next_written {repeats : Move → Bool} {game : Game}
    (between : reader.Between (game.write repeats ++ rest)) (writable : game.isWritable = true) :
    reader.next.1.map (·.map Entry.game) = some (.ok game) ∧ reader.next.2.Between rest := by
  obtain ⟨kind, gap, aside, blank, before⟩ := between.before
  have answered := read_written writable aside blank before reader.interner
  rw [← between.config] at answered
  obtain ⟨entry, read, same, later⟩ := answered
  rw [next_of_read between.running between.room read]
  refine ⟨congrArg (some ∘ Except.ok) same, between.config, between.running, ?_⟩
  exact ⟨.termination, [lineFeed], ⟨nofun, nofun⟩, rfl, later⟩

/-- Behind the last game nothing is returned. -/
theorem Between.next_blank (between : reader.Between []) :
    reader.next.1 = none ∧ reader.next.2.isDone = true := by
  obtain ⟨kind, gap, _, blank, before⟩ := between.before
  rw [List.append_nil] at before
  exact next_of_nothing between.running between.room
    (read_blank blank before reader.config reader.interner)

/-- A reader that is done returns nothing, however often it is asked. -/
theorem returns_of_isDone (done : reader.isDone = true) (count : Nat) :
    reader.returns count = List.replicate count none := by
  induction count with
  | zero => rfl
  | succ count inductionHypothesis =>
    rw [returns, next_of_isDone done, inductionHypothesis]
    rfl

theorem Between.returns_blank (between : reader.Between []) (count : Nat) :
    reader.returns count = List.replicate count none := by
  cases count with
  | zero => rfl
  | succ count =>
    obtain ⟨nothing, done⟩ := between.next_blank
    rw [returns, nothing, returns_of_isDone done]
    rfl

/-- From between games, the games that were written are returned, and then nothing. -/
theorem Between.returns_written {repeats : Move → Bool} {games : List Game}
    (between : reader.Between (games.flatMap (Game.write repeats)))
    (writable : games.all Game.isWritable = true) (more : Nat) :
    reader.returns (games.length + more) =
      games.map (some ∘ Except.ok) ++ List.replicate more none := by
  induction games generalizing reader with
  | nil =>
    rw [List.length_nil, Nat.zero_add]
    exact between.returns_blank more
  | cons game games inductionHypothesis =>
    rw [List.all_cons, Bool.and_eq_true] at writable
    obtain ⟨first, later⟩ := between.next_written writable.1
    rw [List.length_cons, Nat.add_right_comm, returns, first,
      inductionHypothesis later writable.2]
    rfl

end Reader

/-- Reading undoes writing. Over a source that keeps its promises and holds the texts of any games
that can be written, a reader with the standard settings yields exactly these games, and then
nothing, however often it is asked. -/
theorem returns_write_eq [Hashable HeaderPair] {repeats : Move → Bool} {games : List Game}
    {source : Source} (writable : games.all Game.isWritable = true) (honest : source.IsHonest)
    (unfailing : source.IsUnfailing) (content : source.content = games.flatMap (Game.write repeats))
    (more : Nat) :
    (Reader.start .standard (.ofSource source)).returns (games.length + more) =
      games.map (some ∘ Except.ok) ++ List.replicate more none := by
  have before : (Lexer.ofSource source).Before .between .undefined
      ([] ++ games.flatMap (Game.write repeats)) :=
    ⟨unfailing, [], ⟨honest, content, rfl, rfl, rfl, Nat.le_refl _⟩⟩
  have between : (Reader.start .standard (.ofSource source)).Between
      (games.flatMap (Game.write repeats)) :=
    ⟨rfl, rfl, .undefined, [], ⟨nofun, nofun⟩, rfl, before⟩
  exact between.returns_written writable more

/-- A game with a header pair, comments, annotations, and a variation in front of the answer. -/
def Game.annotated : Game where
  headers := some [⟨Bytes.ofString "Event", Bytes.ofString "\\\"A\\\" match"⟩]
  comment := some (Bytes.ofString "Casual")
  moves :=
    [.both 1
      ⟨Bytes.ofString "e4", some ⟨some (Bytes.ofString "best by test"), [.goodMove],
        [[.both 1 (.bare (Bytes.ofString "d4")) (.bare (Bytes.ofString "d5"))]]⟩⟩
      (.bare (Bytes.ofString "e5")),
      .whiteOnly 2 (.bare (Bytes.ofString "Nf3"))]
  outcome := .unknown

/-- A game that begins with a move of black. -/
def Game.adjourned : Game where
  headers := none
  comment := none
  moves := [.blackOnly 40 ⟨Bytes.ofString "Kd7", some ⟨some [], [], []⟩⟩]
  outcome := .draw

open scoped PairHash

theorem returns_write_annotated :
    ([.annotated, .adjourned] : List Game).all Game.isWritable = true ∧
      (Reader.ofBytes (([.annotated, .adjourned] : List Game).flatMap
          (Game.write fun _ => true))).returns 4 =
        [some (.ok .annotated), some (.ok .adjourned), none, none] := by
  have writable : ([.annotated, .adjourned] : List Game).all Game.isWritable = true := by
    decide +kernel
  exact ⟨writable, @returns_write_eq _ (fun _ => true) [.annotated, .adjourned] (.ofBytes _)
    writable trivial trivial (List.append_nil _) 2⟩

end Scoresheet
