/-
This file follows a lexer through a text that is known to be still to come. A lexer stands in front
of a text in some area: between the parts of an input, in a header section, in the movetext before
its first number, or behind it. Each loop of the lexer is said to lead from where the lexer stands in
front of what the loop passes to where it stands in front of the rest.
-/

import Scoresheet.Proofs.Tokens
import Scoresheet.Proofs.Writing

namespace Scoresheet

namespace Place

theorem lineStart_le_next {place : Place} (inLine : place.lineStart ≤ place.offset)
    (byte : UInt8) : (place.next byte).lineStart ≤ (place.next byte).offset := by
  unfold next
  split
  · exact Nat.le_refl _
  · exact Nat.le_succ_of_le inLine

theorem lineStart_le_pass {place : Place} (inLine : place.lineStart ≤ place.offset)
    (text : Bytes) : (place.pass text).lineStart ≤ (place.pass text).offset := by
  induction text generalizing place with
  | nil => exact inLine
  | cons byte rest inductionHypothesis =>
    exact inductionHypothesis (lineStart_le_next inLine byte)

/-- Behind a byte that ends no line, no line begins. -/
theorem atLineStart_next {place : Place} (inLine : place.lineStart ≤ place.offset) {byte : UInt8}
    (within : byte ≠ Ascii.lineFeed) : (place.next byte).atLineStart = false := by
  rw [next, if_neg within, atLineStart, beq_eq_false_iff_ne]
  show place.offset + 1 ≠ place.lineStart
  omega

end Place

/-! ### Where a lexer stands -/

/-- What a lexer is about to read, as far as it is known. -/
inductive Area where
  /-- Where the scope has to be found first. -/
  | between
  /-- Where the scope is being found. -/
  | entering
  | header
  /-- The movetext behind nothing but comments. -/
  | opening
  /-- The movetext behind its first number. -/
  | moves
  deriving DecidableEq

namespace Area

def Holds (lexer : Lexer) : Area → Prop
  | between => lexer.unsettled = true
  | entering => lexer.unsettled = false
  | header => lexer.unsettled = false ∧ lexer.scope = .header
  | opening => lexer.unsettled = false ∧ lexer.scope = .movetext ∧ lexer.opening = true
  | moves => lexer.unsettled = false ∧ lexer.scope = .movetext ∧ lexer.opening = false

/-- The area in which a token of the movetext is read. -/
def entered : Area → Area
  | between => opening
  | area => area

/-- The area behind a token of the given kind in the movetext. -/
def behind (told : TokenKind) : Area → Area
  | opening =>
    match told with
    | .commentBegin | .comment => opening
    | .commentEnd | .lineComment => between
    | _ => moves
  | area => area

theorem Holds.of_same {before after : Lexer} {area : Area} (holds : area.Holds before)
    (unsettled : after.unsettled = before.unsettled) (scope : after.scope = before.scope)
    (opening : after.opening = before.opening) : area.Holds after := by
  cases area <;> simp_all [Holds]

end Area

namespace Lexer

/-- The text is still to come, and the state of the lexer is known as far as it matters. -/
structure Stands (area : Area) (kind : TokenKind) (span text : Bytes) (lexer : Lexer) : Prop where
  honest : lexer.source.IsHonest
  content : lexer.source.content = text
  holds : area.Holds lexer
  kind : lexer.kind = kind
  span : lexer.span = span
  inLine : lexer.place.lineStart ≤ lexer.place.offset

/-- A lexer stands in front of the text, with a whole lookahead in sight. -/
structure Faces (area : Area) (kind : TokenKind) (span text : Bytes) (lexer : Lexer) : Prop where
  stands : lexer.Stands area kind span text
  ready : lexer.source.IsReady

variable {area : Area} {kind : TokenKind} {span text run rest : Bytes} {keep : Bool}
  {lexer before after : Lexer}

/-- What is passed or kept was in front of the rest. -/
theorem Stands.takes (stands : before.Stands area kind span (run ++ rest))
    (takes : Takes keep run before after) :
    after.Stands area kind (if keep then span ++ run else span) rest where
  honest := takes.honest
  content := List.append_cancel_left (takes.content.symm.trans stands.content)
  holds := by
    have state := takes.state
    simp only [mk.injEq] at state
    obtain ⟨_, _, scope, unsettled, opening, _⟩ := state
    exact stands.holds.of_same unsettled scope opening
  kind := (congrArg Lexer.kind takes.state).trans stands.kind
  span := by
    have captured : after.captured =
        if keep then run.reverse ++ before.captured else before.captured :=
      congrArg Lexer.captured takes.state
    rw [← stands.span, Lexer.span, captured]
    cases keep <;> simp [Lexer.span]
  inLine := by
    rw [takes.place]
    exact Place.lineStart_le_pass stands.inLine run

theorem Stands.markStart (stands : lexer.Stands area kind span text) :
    lexer.markStart.Stands area kind span text :=
  { stands with holds := stands.holds.of_same rfl rfl rfl }

/-- What the area says about the next token. -/
theorem Stands.unsettled (stands : lexer.Stands area kind span text) :
    lexer.unsettled = decide (area = .between) := by
  have holds := stands.holds
  cases area <;> simp_all [Area.Holds]

/-- Inside the movetext the scope is known. -/
theorem Stands.settled (stands : lexer.Stands area kind span text)
    (inside : area = .opening ∨ area = .moves) :
    lexer.unsettled = false ∧ lexer.scope = .movetext := by
  have holds := stands.holds
  rcases inside with rfl | rfl
  · exact ⟨holds.1, holds.2.1⟩
  · exact ⟨holds.1, holds.2.1⟩

theorem Stands.more (stands : lexer.Stands area kind span text) (known : area ≠ .entering) :
    lexer.isExhausted = false := by
  have holds := stands.holds
  cases area <;> simp_all [Area.Holds, isExhausted]

end Lexer

/-! ### The loops -/

namespace Scan

open Lexer Ascii

variable {Value Result : Type} {area : Area} {kind : TokenKind} {span text run gap rest : Bytes}
  {byte : UInt8} {before : Lexer → Prop} {after : Result → Lexer → Prop}

/-- A look at what is known. -/
theorem Leads.bind_look_of {view : Lexer → Value} {second : Value → Scan Result} (value : Value)
    (known : ∀ lexer, before lexer → view lexer = value)
    (right : (second value).Leads before after) :
    (Scan.look view >>= second).Leads before after := by
  intro lexer later result holds success
  rw [run_bind, run_look, known lexer holds] at success
  exact right lexer later result holds success

/-- More may be known before a scan than it needs, and less may be asked of what it leads to. -/
theorem Leads.weaken {scan : Scan Result} {first : Lexer → Prop} {last : Result → Lexer → Prop}
    (leads : scan.Leads first last) (left : ∀ lexer, before lexer → first lexer)
    (right : ∀ value lexer, last value lexer → after value lexer) : scan.Leads before after :=
  fun lexer later value holds success =>
    right value later (leads lexer later value (left lexer holds) success)

theorem leads_fill : Scan.fill.Leads (Stands area kind span text)
    fun _ => Faces area kind span text := by
  intro lexer later value stands success
  have same : later = (Scan.fill.run lexer).2 := congrArg Prod.snd success.symm
  have takes : Takes false [] lexer later := same ▸ Takes.fill stands.honest
  refine ⟨stands.takes takes, ?_⟩
  rw [same]
  exact isReady_fill stands.honest (congrArg Prod.fst success)

theorem leads_peek : Scan.peek.Leads (Stands area kind span text)
    fun next lexer => next = text.head? ∧ lexer.Faces area kind span text :=
  leads_fill.bind fun _ => .look fun lexer faces =>
    ⟨by rw [← faces.stands.content, faces.ready.showsNext.head_content], faces⟩

theorem leads_markStart : Scan.markStart.Leads (Stands area kind span text)
    fun _ => Stands area kind span text :=
  .change fun _ stands => stands.markStart

/-- A byte that is in sight is passed or kept. -/
theorem takes_one {lexer : Lexer} (keep : Bool)
    (faces : lexer.Faces area kind span (byte :: rest)) :
    Takes keep [byte] lexer (lexer.take keep 1) := by
  have takes := Takes.take faces.stands.honest keep 1
  rwa [← faces.ready.showsNext.take_content, faces.stands.content] at takes

/-- Behind a byte that was passed and ends no line, no line begins. -/
theorem leads_pass : (Scan.pass 1).Leads (Faces area kind span (byte :: rest))
    fun _ lexer => lexer.Stands area kind span rest ∧
      (byte ≠ lineFeed → lexer.place.atLineStart = false) := by
  refine .change fun lexer faces => ?_
  have takes := takes_one false faces
  refine ⟨faces.stands.takes takes, fun within => ?_⟩
  rw [show (lexer.pass 1).place = lexer.place.next byte from takes.place]
  exact Place.atLineStart_next faces.stands.inLine within

/-- A short text is kept as a whole. -/
theorem leads_capture (short : run.length ≤ Window.lookahead) :
    (Scan.capture run.length).Leads (Faces area kind span (run ++ rest))
      fun _ => Stands area kind (span ++ run) rest := by
  refine .change fun lexer faces => ?_
  have next : run.isPrefixOf lexer.source.content = true := by
    rw [faces.stands.content]
    exact List.isPrefixOf_iff_prefix.mpr (List.prefix_append run rest)
  rw [← faces.ready.isPrefixOf_buffer short] at next
  have takes := Takes.take faces.stands.honest true run.length
  rw [← List.prefix_iff_eq_take.mp (List.isPrefixOf_iff_prefix.mp next)] at takes
  exact faces.stands.takes takes

theorem takeWhile_eq {onward : UInt8 → Bool} (all : run.all onward = true)
    (stopped : rest.head?.any onward = false) : (run ++ rest).takeWhile onward = run := by
  rw [List.takeWhile_append_of_pos (List.all_eq_true.mp all)]
  cases rest with
  | nil => exact List.append_nil run
  | cons byte rest =>
    have stops : onward byte = false := stopped
    rw [List.takeWhile_cons_of_neg (Bool.eq_false_iff.mp stops), List.append_nil]

/-- A run is kept up to the first byte that stops it. -/
theorem leads_captureUntil {stop : UInt8 → Bool} (all : run.all (!stop ·) = true)
    (stopped : rest.head?.any (!stop ·) = false) :
    (Scan.captureUntil stop).Leads (Stands area kind span (run ++ rest))
      fun _ => Stands area kind (span ++ run) rest := by
  intro lexer later value stands success
  have takes := runUntil_takes stands.honest success
  rw [stands.content, takeWhile_eq all stopped] at takes
  exact stands.takes takes

/-- Text that can be enclosed is kept up to its closing byte. -/
theorem leads_captureQuoted {closing : UInt8} (enclosable : text.isEnclosable closing = true) :
    (Scan.captureQuoted closing).Leads (Stands area kind span (text ++ closing :: rest))
      fun _ => Stands area kind (span ++ text) (closing :: rest) := by
  intro lexer later value stands success
  have takes := captureQuoted_takes stands.honest success
  rw [stands.content, Bytes.quoted_of_isEnclosable enclosable] at takes
  exact stands.takes takes

/-- White space is passed up to the next byte that matters or to the end. A percent sign matters
unless it begins a line. -/
theorem leads_passSpace (stands : ∀ lexer, before lexer →
      lexer.Stands area kind span (gap ++ rest))
    (blank : gap.all isSpace = true) (visible : rest.head?.any isSpace = false)
    (plain : rest.head? = some percent → ∀ lexer, before lexer →
      (lexer.place.pass gap).atLineStart = false) :
    Scan.passSpace.Leads before
      fun next lexer => next = rest.head? ∧ lexer.Faces area kind span rest := by
  intro lexer later next holds success
  have standing := stands lexer holds
  obtain ⟨takes, ready, head⟩ := passSpace_takes standing.honest success
  have blanks : Place.blanks false lexer.place lexer.source.content = gap := by
    rw [standing.content, Place.blanks_append_spaces (List.all_eq_true.mp blank)]
    cases rest with
    | nil => exact List.append_nil gap
    | cons byte rest =>
      rw [Place.blanks_significant (Bool.eq_false_iff.mp visible), List.append_nil]
      intro escaped
      rw [plain (congrArg some escaped.1) lexer holds] at escaped
      exact Bool.false_ne_true escaped.2
  rw [blanks] at takes
  have later := standing.takes takes
  exact ⟨by rw [← head, later.content], later, ready⟩

theorem leads_spacedToken {token : UInt8 → Scan TokenKind} {after : TokenKind → Lexer → Prop}
    (stands : ∀ lexer, before lexer → lexer.Stands area kind span (gap ++ byte :: rest))
    (blank : gap.all isSpace = true) (visible : isSpace byte = false)
    (plain : byte = percent → ∀ lexer, before lexer →
      (lexer.place.pass gap).atLineStart = false)
    (each : (token byte).Leads (Faces area kind span (byte :: rest)) after) :
    (spacedToken token).Leads before after := by
  refine (leads_passSpace stands blank visible fun escape => plain (Option.some.inj escape)).bind
    fun next => ?_
  rintro lexer later told ⟨rfl, faces⟩ success
  exact each lexer.markStart later told ⟨faces.stands.markStart, faces.ready⟩ success

end Scan

end Scoresheet
