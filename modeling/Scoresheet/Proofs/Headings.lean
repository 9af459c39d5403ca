/-
This file holds the recursive descent through a header section against the draft. Both intern a pair
at the same place: before the token of its value is taken, or, if the value is empty, when the token
behind its closing quote has come.
-/

import Scoresheet.Proofs.Descending

namespace Scoresheet.Descent

/-! ### Header phases -/

/-- A draft inside a header section. -/
abbrev sectioned (comment : Option Bytes) (headers : List HeaderPair) (phase : HeaderPhase) :
    Draft :=
  ⟨some headers, comment, .idle, .header phase⟩

section Sectioned

variable {config : Config} {comment : Option Bytes} {headers : List HeaderPair}
  {phase next : HeaderPhase} {token : Token}

theorem accept_sectioned (inside : phase ≠ .complete)
    (onward : phase.accept config token = .ok next) :
    (sectioned comment headers phase).accept config token =
      .ok (.onward (sectioned comment ((phase.recorded? token).toList ++ headers) next)) :=
  Grammar.accept_inside inside onward

/-- Only the blanks behind a name may be missing. -/
theorem accept_of_other (other : token.kind ∉ phase.expected)
    (missing : ∀ name, phase = .named name → token.kind = .valueBegin → config.strict = true) :
    phase.accept config token = .error (token.unexpected phase.expected) := by
  unfold HeaderPhase.accept
  split <;> simp_all [HeaderPhase.expected]

theorem accept_sectioned_of_other (phase : HeaderPhase) (inside : phase ≠ .complete)
    (other : token.kind ∉ phase.expected)
    (missing : ∀ name, phase = .named name → token.kind = .valueBegin → config.strict = true) :
    (sectioned comment headers phase).accept config token =
      .error (token.unexpected phase.expected) := by
  simp [Draft.accept, Draft.takesComments, inside, Draft.acceptStage, Draft.acceptHeader,
    accept_of_other other missing]

theorem Requires.section (inside : phase ≠ .complete) (plain : phase.recorded? token = none)
    (missing : ∀ name, phase = .named name → token.kind = .valueBegin → config.strict = true) :
    Requires config (sectioned comment headers phase) phase.expected token where
  plain := plain
  ending position := by
    cases phase with
    | complete => exact absurd rfl inside
    | _ => rfl
  refused other := accept_sectioned_of_other phase inside other missing

end Sectioned

/-! ### The section -/

variable [Hashable HeaderPair] {config : Config} {result : Reading × Interner × Lexer}
  {allocations : List Nat} {context : Context}

section Headers

variable {headers : List HeaderPair} {comment : Option Bytes} {name : Bytes}

/-- What stands between a name and the value. -/
theorem Stands.separator
    (stands : Stands config result (sectioned comment headers (.named name)) allocations context) :
    Serves result (separator config context) fun _ after =>
      Stands config result (sectioned comment headers (.separated name)) allocations after ∧
        context.Reaches after := by
  unfold Descent.separator
  rw [token_bind]
  split
  · next blank =>
    have separated : HeaderPhase.accept config (.named name) context.lexer.token =
        .ok (.separated name) := by
      simp [HeaderPhase.accept, blank]
    exact (stands.advance (by simp [blank]) rfl (accept_sectioned (by simp) separated)).imp
      fun _ after taken => ⟨taken.1, taken.2.reaches⟩
  · next noBlank =>
    split
    · next quote =>
      obtain ⟨quote, tolerant⟩ := quote
      refine .pure ⟨stands.congr rfl (fun last => ?_) ?_, .refl context⟩
      · simp [stands.settled last] at quote
      · have named : HeaderPhase.accept config (.named name) context.lexer.token =
            .ok (.opened name) := by
          simpa [HeaderPhase.accept, quote] using tolerant
        have separated : HeaderPhase.accept config (.separated name) context.lexer.token =
            .ok (.opened name) := by
          simp [HeaderPhase.accept, quote]
        exact (accept_sectioned (by simp) named).trans (accept_sectioned (by simp) separated).symm
    · next other =>
      have requires : Requires config (sectioned comment headers (.named name)) [.separator]
          context.lexer.token :=
        .section (by simp) rfl fun _ _ quote => by simpa [quote] using other
      exact stands.unexpected requires.plain (fun _ => requires.ending _) fun _ =>
        requires.refused (by simpa using noBlank)

theorem intern_apply (pair : HeaderPair) (context : Context) :
    intern pair context =
      some (.ok (context.interner.intern pair).1,
        { context with interner := (context.interner.intern pair).2 }) := rfl

theorem pair_intern (pair : HeaderPair) (interner : Interner) :
    (interner.intern pair).1.pair = pair := by
  rw [← Interner.internBy_hash]
  exact interner.pair_internBy _ pair

/-- An empty value is interned when the token behind it has come, before that token is taken. -/
theorem resume_emptied (config : Config) (comment : Option Bytes) (headers : List HeaderPair)
    (name : Bytes) (allocations : List Nat) (interner : Interner) (lexer : Lexer) :
    (sectioned comment headers (.emptied name)).resume config allocations interner lexer =
      (sectioned comment (⟨name, []⟩ :: headers) .closed).resume config
        ((interner.intern ⟨name, []⟩).1.allocation :: allocations)
        (interner.intern ⟨name, []⟩).2 lexer := by
  cases last : lexer.isExhausted with
  | true =>
    rw [Draft.resume_of_last last, Draft.resume_of_last last]
    rfl
  | false =>
    have same : (sectioned comment headers (.emptied name)).accept config lexer.token =
        (sectioned comment (⟨name, []⟩ :: headers) .closed).accept config lexer.token := by
      by_cases bracket : lexer.token.kind = .headerEnd
      · have emptied : HeaderPhase.accept config (.emptied name) lexer.token = .ok .complete := by
          simp [HeaderPhase.accept, bracket]
        have closed : HeaderPhase.accept config .closed lexer.token = .ok .complete := by
          simp [HeaderPhase.accept, bracket]
        exact (accept_sectioned (by simp) emptied).trans (accept_sectioned (by simp) closed).symm
      · have other : lexer.token.kind ∉ [TokenKind.headerEnd] := by simpa using bracket
        exact (accept_sectioned_of_other (.emptied name) (by simp) other (by simp)).trans
          (accept_sectioned_of_other .closed (by simp) other (by simp)).symm
    rw [Draft.resume_of_token last, Draft.resume_of_token last, same]
    rfl

theorem Stands.headerValue
    (stands : Stands config result (sectioned comment headers (.opened name)) allocations context) :
    Serves result (headerValue name context) fun shared after =>
      Stands config result (sectioned comment (shared.pair :: headers) .closed)
        (shared.allocation :: allocations) after ∧ context.Precedes after := by
  unfold Descent.headerValue
  rw [token_bind]
  split
  · next value =>
    have more := stands.more (by simp [value])
    have valued : HeaderPhase.accept config (.opened name) context.lexer.token = .ok .valued := by
      simp [HeaderPhase.accept, value]
    have pair : HeaderPhase.recorded? (.opened name) context.lexer.token =
        some ⟨name, context.lexer.token.text⟩ := by
      simp [HeaderPhase.recorded?, value]
    have onward : (sectioned comment headers (.opened name)).accept config context.lexer.token =
        .ok (.onward (sectioned comment (⟨name, context.lexer.token.text⟩ :: headers)
          .valued)) := by
      rw [accept_sectioned (by simp) valued, pair]
      rfl
    rw [bind_apply, intern_apply]
    refine Serves.bind (.advance more (stands.readOn_of_pair more pair onward))
      fun _ behind taken => ?_
    obtain ⟨before, first⟩ := taken
    have closed (member : behind.lexer.token.kind ∈ [TokenKind.valueEnd]) :
        (sectioned comment (⟨name, context.lexer.token.text⟩ :: headers) .valued).accept config
            behind.lexer.token =
          .ok (.onward (sectioned comment (⟨name, context.lexer.token.text⟩ :: headers) .closed)) :=
      accept_sectioned (by simp) (by simp [HeaderPhase.accept, List.mem_singleton.mp member])
    refine (before.consume (.section (by simp) rfl (by simp)) closed).bind fun _ after taken => ?_
    obtain ⟨stands, second⟩ := taken
    refine .pure ⟨?_, first.consumed.trans second.consumed, second.weight.trans first.weight⟩
    rw [pair_intern]
    exact stands
  · next noValue =>
    have plain : HeaderPhase.recorded? (.opened name) context.lexer.token = none := by
      simp [HeaderPhase.recorded?, noValue]
    have requires : Requires config (sectioned comment headers (.opened name)) [.value, .valueEnd]
        context.lexer.token :=
      .section (by simp) plain (by simp)
    have emptied (member : context.lexer.token.kind ∈ [TokenKind.value, TokenKind.valueEnd]) :
        (sectioned comment headers (.opened name)).accept config context.lexer.token =
          .ok (.onward (sectioned comment headers (.emptied name))) := by
      have quote : context.lexer.token.kind = .valueEnd := by simpa [noValue] using member
      have accepted : HeaderPhase.accept config (.opened name) context.lexer.token =
          .ok (.emptied name) := by
        simp [HeaderPhase.accept, quote]
      rw [accept_sectioned (by simp) accepted, plain]
      rfl
    refine (stands.consume requires emptied).bind fun _ after taken => ?_
    obtain ⟨behind, precedes⟩ := taken
    rw [intern_apply]
    refine .value ⟨⟨behind.settled, ?_⟩, precedes.consumed, precedes.weight⟩
    rw [← behind.leads, resume_emptied, pair_intern]

theorem Stands.headerPair
    (stands : Stands config result (sectioned comment headers .complete) allocations context)
    (bracket : context.lexer.token.kind = .headerBegin) :
    Serves result (headerPair config context) fun shared after =>
      Stands config result (sectioned comment (shared.pair :: headers) .complete)
        (shared.allocation :: allocations) after ∧ context.Precedes after := by
  unfold Descent.headerPair
  have begun : (sectioned comment headers .complete).accept config context.lexer.token =
      .ok (.onward (sectioned comment headers .begun)) := by
    simp [Draft.accept, Draft.acceptStage, Draft.acceptHeader, HeaderPhase.accept,
      HeaderPhase.recorded?, bracket]
  refine (stands.consume_of_mem (by simp [bracket]) (by simp [bracket]) rfl begun).bind
    fun _ _ taken => ?_
  obtain ⟨stands, first⟩ := taken
  refine (stands.expect (.section (by simp) rfl (by simp))).bind fun _ atName expected => ?_
  obtain ⟨rfl, named, more⟩ := expected
  rw [token_bind]
  have onward : (sectioned comment headers .begun).accept config atName.lexer.token =
      .ok (.onward (sectioned comment headers (.named atName.lexer.token.text))) :=
    accept_sectioned (by simp) (by simp [HeaderPhase.accept, List.mem_singleton.mp named])
  refine (stands.advance (by simp [List.mem_singleton.mp named]) rfl onward).bind
    fun _ behind taken => ?_
  obtain ⟨stands, second⟩ := taken
  refine stands.separator.bind fun _ atQuote taken => ?_
  obtain ⟨stands, reached⟩ := taken
  have opened (member : atQuote.lexer.token.kind ∈ [TokenKind.valueBegin]) :
      (sectioned comment headers (.separated atName.lexer.token.text)).accept config
          atQuote.lexer.token =
        .ok (.onward (sectioned comment headers (.opened atName.lexer.token.text))) :=
    accept_sectioned (by simp) (by simp [HeaderPhase.accept, List.mem_singleton.mp member])
  refine (stands.consume (.section (by simp) rfl (by simp)) opened).bind fun _ atValue taken => ?_
  obtain ⟨stands, third⟩ := taken
  refine stands.headerValue.bind fun shared atBracket taken => ?_
  obtain ⟨stands, fourth⟩ := taken
  have complete (member : atBracket.lexer.token.kind ∈ [TokenKind.headerEnd]) :
      (sectioned comment (shared.pair :: headers) .closed).accept config atBracket.lexer.token =
        .ok (.onward (sectioned comment (shared.pair :: headers) .complete)) :=
    accept_sectioned (by simp) (by simp [HeaderPhase.accept, List.mem_singleton.mp member])
  refine (stands.consume (.section (by simp) rfl (by simp)) complete).bind fun _ after taken => ?_
  exact .pure ⟨taken.1, (((first.trans second).andThen reached).trans third).trans
    (fourth.trans taken.2)⟩

/-- The header pairs of a draft that were handed out, latest first. -/
def pairsOf (shared : List SharedPair) : List HeaderPair := (shared.map SharedPair.pair).reverse

def allocationsOf (shared : List SharedPair) : List Nat :=
  (shared.map SharedPair.allocation).reverse

theorem Stands.headerPairs
    (stands : Stands config result (sectioned comment [] .complete) [] context) :
    Serves result (headerPairs config [] context) fun shared after =>
      Stands config result (sectioned comment (pairsOf shared) .complete) (allocationsOf shared)
          after ∧
        after.lexer.token.kind ≠ .headerBegin := by
  refine Serves.loop (fun shared after => Stands config result
    (sectioned comment (pairsOf shared) .complete) (allocationsOf shared) after) ?_ stands
  intro headerPairs shared here stands again
  rw [token_bind]
  split
  · next bracket =>
    refine (stands.headerPair bracket).bind fun last after taken => ?_
    obtain ⟨stands, precedes⟩ := taken
    refine again _ after ?_ precedes
    simpa [pairsOf, allocationsOf] using stands
  · next other => exact .pure ⟨stands, other⟩

theorem Stands.passHeaders
    (stands : Stands config result ⟨none, comment, .idle, .headersLeftOut⟩ allocations context) :
    Serves result (passHeaders () context) fun _ after =>
      Stands config result ⟨none, comment, .idle, .headersLeftOut⟩ allocations after ∧
        after.lexer.token.kind.isHeader = false := by
  refine Serves.loop (fun _ after => Stands config result
    ⟨none, comment, .idle, .headersLeftOut⟩ allocations after) ?_ stands
  intro passHeaders _ here stands again
  rw [token_bind, isExhausted_bind]
  split
  · next header =>
    have noBrace : here.lexer.token.kind ≠ .commentBegin := fun brace => by
      simp [brace, TokenKind.isHeader] at header
    have noLine : here.lexer.token.kind ≠ .lineComment := fun line => by
      simp [line, TokenKind.isHeader] at header
    have passed : Draft.accept config ⟨none, comment, .idle, .headersLeftOut⟩ here.lexer.token =
        .ok (.onward ⟨none, comment, .idle, .headersLeftOut⟩) := by
      rw [Grammar.accept_of_idle rfl noBrace noLine]
      simp [Draft.acceptStage, header.1]
    have known : here.lexer.token.kind ≠ .undefined := fun last => by
      simp [last, TokenKind.isHeader] at header
    exact (stands.advance known rfl passed).bind fun _ after taken =>
      again () after taken.1 taken.2
  · next other =>
    refine .pure ⟨stands, Bool.eq_false_iff.mpr fun header => other ⟨header, ?_⟩⟩
    refine Bool.not_eq_true' _ ▸ stands.more fun last => ?_
    simp [last, TokenKind.isHeader] at header

/-- Behind the header section, or where there is none. -/
inductive Closing : Stage → TokenKind → Prop where
  | opening {kind : TokenKind} (other : kind ∉ remarking) : Closing .opening kind
  | complete {kind : TokenKind} (other : kind ≠ .headerBegin) : Closing (.header .complete) kind
  | leftOut {kind : TokenKind} (other : kind.isHeader = false) : Closing .headersLeftOut kind

theorem Stands.headerSection
    (stands : Stands config result ⟨none, comment, .idle, .preface⟩ [] context)
    (other : context.lexer.token.kind ∉ remarking) :
    Serves result (headerSection config context) fun headers after => ∃ stage,
      Stands config result ⟨headers.map pairsOf, comment, .idle, stage⟩
          (allocationsOf (headers.getD [])) after ∧
        Closing stage after.lexer.token.kind := by
  unfold Descent.headerSection
  rw [token_bind]
  split
  · next bracket =>
    have more := stands.more (by simp [bracket])
    split
    · next skips =>
      have leftOut : Stands config result ⟨none, comment, .idle, .headersLeftOut⟩ [] context := by
        refine stands.restage other rfl rfl rfl (fun last => by simp [more] at last) ?_
        simp [Draft.acceptStage, Draft.acceptPreface, bracket, skips, TokenKind.isHeader]
      exact leftOut.passHeaders.bind fun _ after passed =>
        .pure ⟨_, passed.1, .leftOut passed.2⟩
    · next keeps =>
      have begins : Stands config result (sectioned comment [] .complete) [] context := by
        refine stands.restage other rfl rfl rfl (fun last => by simp [more] at last) ?_
        simp [Draft.acceptStage, Draft.acceptPreface, Draft.acceptHeader, HeaderPhase.accept,
          HeaderPhase.recorded?, bracket, keeps]
      exact begins.headerPairs.bind fun shared after read => .pure ⟨_, read.1, .complete read.2⟩
  · next noBracket =>
    refine .pure ⟨.opening, stands.restage other rfl rfl rfl (fun _ => rfl) ?_, .opening other⟩
    exact if_neg noBracket

end Headers

end Scoresheet.Descent
