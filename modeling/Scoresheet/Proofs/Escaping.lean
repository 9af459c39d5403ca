/-
This file shows that header values survive escaping. If every backslash and every quote of a value
is written behind a backslash, the first quote that is not behind one is the closing quote, however
many backslashes come in a row, and decoding takes the same backslashes away that were added. So a
header section can carry any values at all. It is read back whatever the settings are, as long as
they do not leave headers out: the blanks behind the names satisfy strict settings too, and a marker
ends a movetext that is left out just as well as one that is kept.
-/

import Scoresheet.Cache.PairHash
import Scoresheet.Proofs.RoundTrip
import Scoresheet.Proofs.Unescaping

namespace Scoresheet

open Ascii

/-! ### Escaping -/

namespace HeaderPair

/-- The value with a backslash in front of every backslash and of every quote. -/
def escape (value : Bytes) : Bytes :=
  value.flatMap fun byte => if isEscapable byte then [backslash, byte] else [byte]

/-- The pair that is written for a value. -/
def ofValue (name value : Bytes) : HeaderPair := ⟨name, escape value⟩

variable {byte : UInt8} {rest : Bytes}

theorem escape_of_escapable (escapable : isEscapable byte = true) (rest : Bytes) :
    escape (byte :: rest) = backslash :: byte :: escape rest := by
  unfold escape
  rw [List.flatMap_cons, if_pos escapable]
  rfl

theorem escape_of_plain (plain : isEscapable byte = false) (rest : Bytes) :
    escape (byte :: rest) = byte :: escape rest := by
  unfold escape
  rw [List.flatMap_cons, if_neg (Bool.eq_false_iff.mp plain)]
  rfl

/-- A byte that is neither a backslash nor a quote. -/
theorem ne_of_plain (plain : isEscapable byte = false) : byte ≠ backslash ∧ byte ≠ quote := by
  rwa [isEscapable, Bool.or_eq_false_iff, beq_eq_false_iff_ne, beq_eq_false_iff_ne] at plain

theorem unescape_of_plain (plain : byte ≠ backslash) (rest : Bytes) :
    unescape (byte :: rest) = byte :: unescape rest := by
  cases rest with
  | nil => rfl
  | cons next rest => rw [unescape, if_neg fun both => plain both.1]

/-- Decoding takes away what escaping added. -/
theorem unescape_escape (value : Bytes) : unescape (escape value) = value := by
  induction value with
  | nil => rfl
  | cons byte rest inductionHypothesis =>
    cases escapable : isEscapable byte with
    | true =>
      rw [escape_of_escapable escapable, unescape, if_pos ⟨rfl, escapable⟩, inductionHypothesis]
    | false =>
      rw [escape_of_plain escapable, unescape_of_plain (ne_of_plain escapable).1,
        inductionHypothesis]

theorem decode_ofValue (name value : Bytes) : (ofValue name value).decode = value :=
  (decode_eq_unescape _).trans (unescape_escape value)

end HeaderPair

theorem Bytes.isEnclosable_of_plain {closing byte : UInt8} {rest : Bytes} (inside : byte ≠ closing)
    (plain : byte ≠ backslash) :
    Bytes.isEnclosable closing (byte :: rest) = Bytes.isEnclosable closing rest := by
  cases rest with
  | nil => simp [isEnclosable, inside, plain]
  | cons next rest => simp [isEnclosable, inside, plain]

namespace HeaderPair

open Bytes in
/-- The closing quote behind an escaped value is the first one that is not escaped. -/
theorem isEnclosable_escape (value : Bytes) : (escape value).isEnclosable quote = true := by
  induction value with
  | nil => rfl
  | cons byte rest inductionHypothesis =>
    cases escapable : isEscapable byte with
    | true =>
      rw [escape_of_escapable escapable, isEnclosable, if_pos rfl, inductionHypothesis]
      rfl
    | false =>
      obtain ⟨plain, inside⟩ := ne_of_plain escapable
      rw [escape_of_plain escapable, isEnclosable_of_plain inside plain, inductionHypothesis]

theorem isWritable_ofValue {name : Bytes} (some : name ≠ []) (all : name.all isNameByte = true)
    (value : Bytes) : (ofValue name value).isWritable = true := by
  simp only [isWritable, ofValue, Bool.and_eq_true, Bool.not_eq_true', List.isEmpty_eq_false_iff]
  exact ⟨⟨some, all⟩, isEnclosable_escape value⟩

end HeaderPair

/-! ### A game of header pairs -/

/-- A game of a header section only. -/
def Game.titled (pairs : List HeaderPair) (outcome : Outcome) : Game :=
  ⟨some pairs, none, [], outcome⟩

/-- The first pair of a name is looked up in the order in which the pairs were written. -/
theorem Game.decode_header? (pairs : List (Bytes × Bytes)) (outcome : Outcome) (name : Bytes) :
    ((Game.titled (pairs.map fun pair => .ofValue pair.1 pair.2) outcome).header? name).map
        (fun pair => (pair.name, pair.decode)) =
      pairs.find? (·.1 == name) := by
  show ((pairs.map fun pair => HeaderPair.ofValue pair.1 pair.2).find? (·.name == name)).map _ = _
  rw [List.find?_map, Option.map_map]
  have same (pair : Bytes × Bytes) :
      ((fun pair : HeaderPair => (pair.name, pair.decode)) ∘
        fun pair : Bytes × Bytes => HeaderPair.ofValue pair.1 pair.2) pair = pair :=
    Prod.ext rfl (HeaderPair.decode_ofValue pair.1 pair.2)
  rw [funext same, Option.map_id']
  rfl

namespace Grammar

open Lexer

variable {config : Config} {marker : Token} {outcome : Outcome}

/-- A marker in front of which there are no turns ends a game, whatever the settings are. -/
theorem accept_marker_of_inFront {headers : Option (List HeaderPair)} {remark : Option Bytes}
    {stage : Stage} (inFront : InFront stage) (ended : marker.kind = .termination)
    (named : outcome.marker = marker.text) :
    Draft.accept config ⟨headers, remark, .idle, stage⟩ marker =
      .ok (.finished ⟨headers.map List.reverse, remark, [], outcome⟩) := by
  have opened : Draft.acceptOpening config ⟨headers, remark, .idle, stage⟩ marker =
      .ok (.finished ⟨headers.map List.reverse, remark, [], outcome⟩) := by
    unfold Draft.acceptOpening
    split
    · simp [Draft.acceptLeftOut, ended, Draft.finish, ← named, Outcome.ofMarker?_marker]
    · simp [Draft.acceptMoves, MovesDraft.accept, MovesDraft.start, LineDraft.start,
        LineDraft.accept, LineDraft.acceptAtRest, ended, Draft.finish, ← named,
        Outcome.ofMarker?_marker]
  rw [accept_of_idle rfl (by simp [ended]) (by simp [ended]), ← opened]
  cases inFront <;>
    simp [Draft.acceptStage, Draft.acceptPreface, Draft.gameStart, ended]

/-- A header section in front of a marker is a game, unless headers are left out. -/
theorem judge_titled (keeps : config.skip.headers = false) {tokens : List Token}
    {pairs : List HeaderPair} (some : pairs ≠ []) (sectioned : Many (Allowed config) tokens pairs)
    (ended : marker.kind = .termination) (named : outcome.marker = marker.text) :
    Draft.start.judge config (tokens ++ [marker]) = .finished (Game.titled pairs outcome) := by
  obtain ⟨later, inFront, _, read⟩ := @judge_headers config _ keeps _ sectioned none .start (.inl rfl)
  rw [show Draft.start = ⟨none, none, .idle, .start⟩ from rfl,
    Draft.judge_append_of_unfinished read,
    Draft.judge_cons_of_finished (accept_marker_of_inFront inFront ended named), map_reverse_kept,
    kept, if_neg some]
  rfl

/-- The text of header pairs and a marker is a segment that is read as a game of these. -/
theorem judge_of_titled {lexer : Lexer} {pairs : List HeaderPair} {rest : Bytes}
    (keeps : config.skip.headers = false) (some : pairs ≠ [])
    (writable : pairs.all HeaderPair.isWritable = true)
    (before : lexer.Before .between .undefined
      (pairs.flatMap HeaderPair.write ++ (outcome.marker ++ rest))) :
    Draft.start.judge config lexer.segment.1 = .finished (Game.titled pairs outcome) ∧
      lexer.segment.2.Before .between .termination rest := by
  have front : lexer.Before .between .undefined
      ([] ++ (pairs.flatMap HeaderPair.write ++ (outcome.marker ++ rest))) := before
  obtain ⟨tokens, middle, _, yields, spaced, rfl, behind⟩ :=
    @spells_pairs lexer .undefined [] _ pairs [] [] some writable ⟨nofun, nofun⟩ rfl .none front
  obtain ⟨after, success, isMarker, named, later⟩ := behind.advance fun _ =>
    @Scan.advance_marker _ _ _ [lineFeed] _ outcome (.inl rfl) rfl
  obtain ⟨_, stands⟩ := later.stands
  have whole := yields.segment_eq
  rw [segment_of_marker success (stands.more nofun) isMarker] at whole
  rw [whole]
  exact ⟨judge_titled keeps some (spaced.imp fun _ _ pair => ⟨pair.1, fun _ => pair.2⟩) isMarker
    named.symm, later⟩

end Grammar

/-! ### Reading header pairs back -/

namespace Reader

variable [Hashable HeaderPair]

open Grammar

/-- Behind nothing but white space no reader returns anything, whatever its settings are. -/
theorem returns_of_blank {reader : Reader} {kind : TokenKind} {blanks : Bytes}
    (blank : blanks.all isSpace = true) (before : reader.lexer.Before .between kind blanks)
    (count : Nat) : reader.returns count = List.replicate count none := by
  cases count with
  | zero => rfl
  | succ count =>
    have nothing : reader.next.1 = none ∧ reader.next.2.isDone = true := by
      cases running : reader.isDone with
      | true => exact ⟨by rw [next_of_isDone running], by rw [next_of_isDone running, running]⟩
      | false =>
        cases room : reader.atLimit with
        | true => rw [next_of_atLimit running room]; exact ⟨rfl, rfl⟩
        | false =>
          exact next_of_nothing running room
            (read_blank blank before reader.config reader.interner)
    rw [returns, nothing.1, returns_of_isDone nothing.2]
    rfl

/-- Header values survive escaping. Over a source that keeps its promises and holds header pairs
with any values, escaped, and a marker, a reader that neither leaves headers out nor is limited to
no games returns one game and then nothing. Its pairs have the names that were written, in order,
and decode to the values that were escaped, and to look a name up finds the first pair of it. -/
theorem returns_escaped {config : Config} {source : Source} {pairs : List (Bytes × Bytes)}
    {outcome : Scoresheet.Outcome} {blanks : Bytes} (keeps : config.skip.headers = false)
    (room : config.gameLimit ≠ some 0) (some : pairs ≠ [])
    (names : ∀ pair ∈ pairs, pair.1 ≠ [] ∧ pair.1.all HeaderPair.isNameByte = true)
    (blank : blanks.all isSpace = true) (honest : source.IsHonest)
    (unfailing : source.IsUnfailing)
    (content : source.content =
      pairs.flatMap (fun pair => (HeaderPair.ofValue pair.1 pair.2).write) ++
        (outcome.marker ++ blanks))
    (more : Nat) :
    ∃ game headers,
      (start config (.ofSource source)).returns (more + 1) =
        Option.some (.ok game) :: List.replicate more none ∧
      game.headers = Option.some headers ∧
      headers.map (fun pair => (pair.name, pair.decode)) = pairs ∧
      ∀ name, (game.header? name).map (fun pair => (pair.name, pair.decode)) =
        pairs.find? (·.1 == name) := by
  let headers := pairs.map fun pair => HeaderPair.ofValue pair.1 pair.2
  refine ⟨Game.titled headers outcome, headers, ?_, rfl, ?_, Game.decode_header? pairs outcome⟩
  · have before : (Lexer.ofSource source).Before .between .undefined
        (headers.flatMap HeaderPair.write ++ (outcome.marker ++ blanks)) :=
      ⟨unfailing, [], honest, by rw [List.flatMap_map]; exact content, rfl, rfl, rfl, Nat.le_refl _⟩
    have writable : headers.all HeaderPair.isWritable = true := by
      rw [List.all_map, List.all_eq_true]
      exact fun pair member =>
        HeaderPair.isWritable_ofValue (names pair member).1 (names pair member).2 pair.2
    obtain ⟨finished, later⟩ := judge_of_titled keeps (by simpa [headers] using some) writable before
    obtain ⟨entry, read, same, after⟩ :=
      Draft.read_of_judge unfailing finished (.ofConfig config)
    have spare : (start config (.ofSource source)).atLimit = false := by
      unfold atLimit
      dsimp only [start]
      split
      · rfl
      · next limit limited =>
        exact decide_eq_false fun reached => room (by rw [limited, Nat.le_zero.mp reached])
    have first := @next_of_read _ (start config (.ofSource source)) entry rfl spare read
    rw [returns, first]
    exact List.cons_eq_cons.mpr ⟨congrArg (Option.some ∘ Except.ok) same,
      returns_of_blank blank (after ▸ later) more⟩
  · rw [List.map_map]
    refine List.map_id'' (fun pair => ?_) pairs
    exact Prod.ext rfl (HeaderPair.decode_ofValue pair.1 pair.2)

end Reader

/-- Strict settings that leave the movetext out, share pairs, and allow for one game. -/
def Config.terse : Config :=
  { Config.standard with
    skip := { Skip.nothing with moves := true }, strict := true,
    headerCache := some .standard, gameLimit := some 1 }

/-- Two values of one name: one that ends with a backslash and has escapes, a line feed, brackets and
a byte that encodes nothing in it, and an empty one. -/
def HeaderPair.awkward : List (Bytes × Bytes) :=
  [(Bytes.ofString "A",
      [backslash, backslash, quote, lineFeed, closeBracket, openBrace, 255, backslash]),
    (Bytes.ofString "A", [])]

/-- A device that delivers a text byte by byte, after an interruption. -/
def Device.halting (text : Bytes) : Device := ⟨text, [.interrupted], .deliver 1⟩

/-- The text of the awkward values. -/
def HeaderPair.awkwardText : Bytes :=
  HeaderPair.awkward.flatMap (fun pair => (HeaderPair.ofValue pair.1 pair.2).write) ++
    (Outcome.draw.marker ++ [lineFeed])

open scoped PairHash

theorem Reader.returns_escaped_awkward :
    Config.terse.skip.headers = false ∧ Config.terse.gameLimit ≠ some 0 ∧
      HeaderPair.awkward ≠ [] ∧
      (∀ pair ∈ HeaderPair.awkward, pair.1 ≠ [] ∧ pair.1.all HeaderPair.isNameByte = true) ∧
      ∃ game headers,
        (start .terse (.ofSource (.ofDevice (.halting HeaderPair.awkwardText)))).returns 3 =
          [some (.ok game), none, none] ∧
        game.headers = some headers ∧
        headers.map (fun pair => (pair.name, pair.decode)) = HeaderPair.awkward ∧
        ∀ name, (game.header? name).map (fun pair => (pair.name, pair.decode)) =
          HeaderPair.awkward.find? (·.1 == name) := by
  have room : Config.terse.gameLimit ≠ some 0 := by decide
  have names : ∀ pair ∈ HeaderPair.awkward,
      pair.1 ≠ [] ∧ pair.1.all HeaderPair.isNameByte = true := by decide +kernel
  have honest : (Device.halting HeaderPair.awkwardText).IsHonest := ⟨by simp [Device.halting], nofun⟩
  have unfailing : (Device.halting HeaderPair.awkwardText).IsUnfailing :=
    ⟨by simp [Device.halting], nofun⟩
  exact ⟨rfl, room, List.cons_ne_nil _ _, names,
    returns_escaped (show Config.terse.skip.headers = false from rfl) room (List.cons_ne_nil _ _)
      names (show [lineFeed].all isSpace = true from rfl)
      (show (Source.ofDevice _).IsHonest from .ofDevice honest) unfailing rfl 2⟩

end Scoresheet
