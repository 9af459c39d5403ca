/-
This file holds the recursive descent against the draft. Where a function of the descent begins, the
draft would read on and come to some reading of the game. The function serves that reading if it
ends, either with the error that the reading is, or at a later token from which a draft reads on to
the same. Here this is shown of the functions for tokens and comments.

Between two calls of a function to itself a token is taken, so it is never without a value.
-/

import Scoresheet.Descent
import Scoresheet.Proofs.Hashing
import Scoresheet.Proofs.Interleaving
import Scoresheet.Proofs.Parsing
import Scoresheet.Proofs.RunningOut

namespace Scoresheet

/-! ### Reading on from the current token -/

namespace Draft

variable [Hashable HeaderPair]

/-- Reads on, beginning with the current token. -/
def resume (config : Config) (draft : Draft) (allocations : List Nat) (interner : Interner)
    (lexer : Lexer) : Reading × Interner × Lexer :=
  let noted := interner.note (draft.recorded? lexer.token) allocations
  if lexer.isExhausted then (draft.conclude config lexer.start, noted.2, lexer)
  else
    match draft.accept config lexer.token with
    | .error error => (.error error, noted.2, lexer)
    | .ok (.finished game) => (.ok (some ⟨game, noted.1.reverse⟩), noted.2, lexer)
    | .ok (.onward draft) => readOn config draft noted.1 noted.2 lexer

variable {config : Config} {draft other : Draft} {allocations : List Nat} {interner : Interner}
  {lexer after : Lexer}

theorem readOn_eq_resume (success : Scan.advance.run lexer = (.ok (), after)) :
    draft.readOn config allocations interner lexer =
      draft.resume config allocations interner after :=
  readOn_of_advance success

theorem resume_of_last (last : lexer.isExhausted = true) :
    draft.resume config allocations interner lexer =
      (draft.conclude config lexer.start,
        (interner.note (draft.recorded? lexer.token) allocations).2, lexer) :=
  if_pos last

theorem resume_of_token (more : lexer.isExhausted = false) :
    draft.resume config allocations interner lexer =
      (let noted := interner.note (draft.recorded? lexer.token) allocations
      match draft.accept config lexer.token with
      | .error error => (.error error, noted.2, lexer)
      | .ok (.finished game) => (.ok (some ⟨game, noted.1.reverse⟩), noted.2, lexer)
      | .ok (.onward draft) => readOn config draft noted.1 noted.2 lexer) :=
  if_neg (Bool.eq_false_iff.mp more)

/-- Two drafts that take the current token alike read on alike. -/
theorem resume_congr (pair : draft.recorded? lexer.token = other.recorded? lexer.token)
    (ending : lexer.isExhausted = true →
      draft.conclude config lexer.start = other.conclude config lexer.start)
    (token : lexer.isExhausted = false →
      draft.accept config lexer.token = other.accept config lexer.token) :
    draft.resume config allocations interner lexer =
      other.resume config allocations interner lexer := by
  cases last : lexer.isExhausted with
  | true => rw [resume_of_last last, resume_of_last last, pair, ending last]
  | false => rw [resume_of_token last, resume_of_token last, pair, token last]

end Draft

namespace Descent

/-! ### Places -/

/-- Tokens were taken in between. -/
structure Context.Precedes (before after : Context) : Prop where
  consumed : before.consumed < after.consumed
  weight : after.weight < before.weight

/-- Nothing has happened in between, or tokens were taken. -/
def Context.Reaches (before after : Context) : Prop := after = before ∨ before.Precedes after

section Places

variable {first second third : Context}

theorem Context.Precedes.trans (left : first.Precedes second) (right : second.Precedes third) :
    first.Precedes third :=
  ⟨left.consumed.trans right.consumed, right.weight.trans left.weight⟩

theorem Context.Reaches.refl (context : Context) : context.Reaches context := .inl rfl

theorem Context.Precedes.reaches (precedes : first.Precedes second) : first.Reaches second :=
  .inr precedes

theorem Context.Precedes.andThen (left : first.Precedes second) (right : second.Reaches third) :
    first.Precedes third := by
  rcases right with rfl | right
  · exact left
  · exact left.trans right

theorem Context.Reaches.trans (left : first.Reaches second) (right : second.Reaches third) :
    first.Reaches third := by
  rcases left with rfl | left
  · exact right
  · exact (left.andThen right).reaches

theorem Context.Reaches.andThen (left : first.Reaches second) (right : second.Precedes third) :
    first.Precedes third := by
  rcases left with rfl | left
  · exact right
  · exact left.trans right

theorem Context.Reaches.weight_le (reached : first.Reaches second) :
    second.weight ≤ first.weight := by
  rcases reached with rfl | precedes
  · exact Nat.le_refl _
  · exact precedes.weight.le

/-- Where nothing has happened on the whole, nothing has happened on the way. -/
theorem Context.Reaches.eq (left : first.Reaches second) (right : second.Reaches first) :
    second = first := by
  rcases left with rfl | left
  · rfl
  · exact absurd left.weight (Nat.not_lt.mpr right.weight_le)

end Places

/-! ### Functions in general -/

/-- The function has ended, with an error that is the result, or with a value at some place. -/
inductive Serves (result : Reading × Interner × Lexer) {Value : Type} :
    Option (Except ReadError Value × Context) → (Value → Context → Prop) → Prop where
  | refused {error : ReadError} {context : Context} {Post : Value → Context → Prop}
      (refused : result = (.error error, context.interner, context.lexer)) :
      Serves result (some (.error error, context)) Post
  | value {value : Value} {context : Context} {Post : Value → Context → Prop}
      (post : Post value context) : Serves result (some (.ok value, context)) Post


section Functions

variable {result : Reading × Interner × Lexer} {context : Context} {Argument Value Result : Type}
  {Post : Value → Context → Prop}

theorem bind_apply (first : Descent Value) (second : Value → Descent Result) (context : Context) :
    (first >>= second) context =
      match first context with
      | none => none
      | some (.error error, later) => some (.error error, later)
      | some (.ok value, later) => second value later := by
  show Option.bind (first context) _ = _
  rcases first context with _ | ⟨_ | _, _⟩ <;> rfl

theorem Serves.bind {Between : Value → Context → Prop} {Post : Result → Context → Prop}
    {first : Descent Value} {second : Value → Descent Result}
    (left : Serves result (first context) Between)
    (right : ∀ value later, Between value later → Serves result (second value later) Post) :
    Serves result ((first >>= second) context) Post := by
  rw [bind_apply]
  generalize first context = outcome at left
  cases left with
  | refused refused => exact .refused refused
  | value post => exact right _ _ post

theorem Serves.imp {Other : Value → Context → Prop}
    {outcome : Option (Except ReadError Value × Context)} (serves : Serves result outcome Post)
    (weaker : ∀ value later, Post value later → Other value later) :
    Serves result outcome Other := by
  cases serves with
  | refused refused => exact .refused refused
  | value post => exact .value (weaker _ _ post)

/-- A function that calls itself is right if it is right wherever the calls are, at places with less
to take. -/
theorem recur_induction {body : (Argument → Descent Value) → Argument → Descent Value}
    (Right : Argument → Context → Option (Except ReadError Value × Context) → Prop)
    (step : ∀ again argument context,
      (∀ next later, later.weight < context.weight → Right next later (again next later)) →
        Right argument context (body again argument context))
    (argument : Argument) (context : Context) :
    Right argument context (recur body argument context) := by
  induction weight : context.weight using Nat.strong_induction_on generalizing argument context with
  | _ _ inductionHypothesis =>
    rw [recur]
    refine step _ argument context fun next later less => ?_
    rw [if_pos less]
    exact inductionHypothesis _ (weight ▸ less) next later rfl

/-- A loop keeps its invariant up to a place where it stops. -/
theorem Serves.loop {body : (Argument → Descent Value) → Argument → Descent Value}
    (Invariant : Argument → Context → Prop)
    (step : ∀ (again : Argument → Descent Value) argument context, Invariant argument context →
      (∀ next later, Invariant next later → context.Precedes later →
        Serves result (again next later) Post) →
      Serves result (body again argument context) Post)
    {argument : Argument} {context : Context} (start : Invariant argument context) :
    Serves result (recur body argument context) Post :=
  recur_induction
    (fun argument context outcome => Invariant argument context → Serves result outcome Post)
    (fun again argument context inductionHypothesis invariant =>
      step again argument context invariant fun next later kept precedes =>
        inductionHypothesis next later precedes.weight kept)
    argument context start

theorem token_bind (second : Token → Descent Result) (context : Context) :
    (token >>= second) context = second context.lexer.token context := rfl

theorem isExhausted_bind (second : Bool → Descent Result) (context : Context) :
    (isExhausted >>= second) context = second context.lexer.isExhausted context := rfl

theorem consumed_bind (second : Nat → Descent Result) (context : Context) :
    (consumed >>= second) context = second context.consumed context := rfl

theorem Serves.pure {value : Value} (post : Post value context) :
    Serves result ((pure value : Descent Value) context) Post := .value post

theorem advance_apply (context : Context) :
    advance context =
      some ((Scan.advance.run context.lexer).1.mapError .sourceFailed,
        ⟨(Scan.advance.run context.lexer).2, context.interner, context.consumed + 1⟩) := rfl

/-- A token that is known to be of one of the kinds. -/
theorem Serves.expect_of_mem {kinds : List TokenKind}
    (more : context.lexer.isExhausted = false)
    (member : context.lexer.token.kind ∈ kinds) :
    Serves result (Descent.expect kinds context) fun _ later =>
      later = context ∧ context.lexer.token.kind ∈ kinds ∧
        context.lexer.isExhausted = false := by
  unfold Descent.expect
  rw [token_bind, isExhausted_bind, if_pos ⟨member, by rw [more]; rfl⟩]
  exact .value ⟨rfl, member, more⟩

end Functions

/-! ### Drafts that have to go on -/

/-- The draft has to go on with a token of one of the kinds. -/
structure Requires (config : Config) (draft : Draft) (kinds : List TokenKind) (token : Token) :
    Prop where
  plain : draft.recorded? token = none
  ending : ∀ position, draft.conclude config position = .error (.unexpectedEnd kinds position)
  refused : token.kind ∉ kinds → draft.accept config token = .error (token.unexpected kinds)

section Drafts

variable {config : Config} {draft : Draft}

/-- The kinds of tokens that begin a comment. -/
def remarking : List TokenKind := [.commentBegin, .lineComment]

theorem not_mem_remarking {kind : TokenKind} :
    kind ∉ remarking ↔ kind ≠ .commentBegin ∧ kind ≠ .lineComment := by
  simp [remarking]

/-- Comments are taken between the parts of a game, where no header pair is under way. -/
theorem recorded?_of_takesComments (takes : draft.takesComments = true) (token : Token) :
    draft.recorded? token = none := by
  obtain ⟨headers, comment, phase, stage⟩ := draft
  cases stage with
  | header phase =>
    cases phase with
    | complete => rfl
    | _ => cases takes
  | _ => rfl

theorem Requires.opened (takes : draft.takesComments = true) (token : Token) :
    Requires config { draft with commentPhase := .opened } [.comment, .commentEnd] token where
  plain := recorded?_of_takesComments takes token
  ending _ := rfl
  refused other := by
    simp only [List.mem_cons, List.not_mem_nil, or_false, not_or] at other
    simp [Draft.accept, other, CommentPhase.expected]

theorem Requires.filled (takes : draft.takesComments = true) (text : Bytes) (token : Token) :
    Requires config { draft with commentPhase := .filled text } [.commentEnd] token where
  plain := recorded?_of_takesComments takes token
  ending _ := rfl
  refused other := by
    simp only [List.mem_singleton] at other
    simp [Draft.accept, other, CommentPhase.expected]

/-- Behind its closing brace a comment is added where it was opened. -/
theorem closed_eq (idle : draft.commentPhase = .idle) (phase : CommentPhase) (text : Bytes) :
    { Draft.addComment config text { draft with commentPhase := phase } with
      commentPhase := .idle } = draft.addComment config text := by
  rw [Grammar.addComment_commentPhase]
  show { draft.addComment config text with commentPhase := .idle } = _
  rw [← Grammar.addComment_commentPhase, ← idle]

/-- The drafts take comments and hold those that were read. -/
structure Gathers (config : Config) (drafts : List Bytes → Draft) : Prop where
  idle : ∀ texts, (drafts texts).commentPhase = .idle
  takes : ∀ texts, (drafts texts).takesComments = true
  adds : ∀ texts text, (drafts texts).addComment config text = drafts (texts ++ [text])

/-- A comment is kept as it was merged, unless comments are left out. -/
theorem add_merged (config : Config) (merged : Option Bytes) (text : Bytes) :
    Comment.add config (if config.skip.comments then none else merged) text =
      if config.skip.comments then none else some (merged.getD [] ++ Comment.tidy config text) := by
  unfold Comment.add
  cases config.skip.comments <;> rfl

/-- Comments are added to an earlier one as if they were one comment. -/
theorem foldl_add_eq_extended (config : Config) (comment : Option Bytes) (texts : List Bytes) :
    texts.foldl (Comment.add config) comment =
      extended comment (texts.foldl (Comment.add config) none) := by
  induction texts using List.reverseRecOn with
  | nil => rfl
  | append_singleton texts text inductionHypothesis =>
    rw [List.foldl_append, List.foldl_append, inductionHypothesis]
    generalize texts.foldl (Comment.add config) none = merged
    show Comment.add config (extended comment merged) text =
      extended comment (Comment.add config merged text)
    unfold Comment.add
    cases config.skip.comments with
    | true => rfl
    | false =>
      cases merged with
      | none => rfl
      | some before => exact congrArg some (List.append_assoc _ _ _)

end Drafts

/-! ### Tokens -/

variable [Hashable HeaderPair]

/-- From the current token the draft reads on to the result. The last token is undefined. -/
structure Stands (config : Config) (result : Reading × Interner × Lexer) (draft : Draft)
    (allocations : List Nat) (context : Context) : Prop where
  settled : context.lexer.isExhausted = true → context.lexer.token.kind = .undefined
  leads : draft.resume config allocations context.interner context.lexer = result

variable {config : Config} {result : Reading × Interner × Lexer} {draft next : Draft}
  {allocations : List Nat} {context : Context} {Value : Type} {Post : Value → Context → Prop}

namespace Stands

theorem more (stands : Stands config result draft allocations context)
    (known : context.lexer.token.kind ≠ .undefined) : context.lexer.isExhausted = false :=
  Bool.eq_false_iff.mpr fun last => known (stands.settled last)

/-- At a place where another draft takes the token alike, the other may as well be read on. -/
theorem congr (stands : Stands config result draft allocations context)
    (pair : draft.recorded? context.lexer.token = next.recorded? context.lexer.token)
    (ending : context.lexer.isExhausted = true →
      draft.conclude config context.lexer.start = next.conclude config context.lexer.start)
    (token : draft.accept config context.lexer.token = next.accept config context.lexer.token) :
    Stands config result next allocations context where
  settled := stands.settled
  leads := by rw [← stands.leads, Draft.resume_congr pair ending fun _ => token]

/-- The same, where no comment is under way and the token begins none. -/
theorem restage (stands : Stands config result draft allocations context)
    (other : context.lexer.token.kind ∉ remarking) (idle : draft.commentPhase = .idle)
    (nextIdle : next.commentPhase = .idle)
    (pair : draft.recorded? context.lexer.token = next.recorded? context.lexer.token)
    (ending : context.lexer.isExhausted = true →
      draft.conclude config context.lexer.start = next.conclude config context.lexer.start)
    (stage : draft.acceptStage config context.lexer.token =
      next.acceptStage config context.lexer.token) :
    Stands config result next allocations context := by
  obtain ⟨noBrace, noLine⟩ := not_mem_remarking.mp other
  refine stands.congr pair ending ?_
  rw [Grammar.accept_of_idle idle noBrace noLine, Grammar.accept_of_idle nextIdle noBrace noLine,
    stage]

theorem result_of_error (stands : Stands config result draft allocations context)
    (known : context.lexer.isExhausted = false) {error : ReadError}
    (plain : draft.recorded? context.lexer.token = none)
    (refused : draft.accept config context.lexer.token = .error error) :
    result = (.error error, context.interner, context.lexer) := by
  rw [← stands.leads, Draft.resume_of_token known, refused, plain]
  rfl

theorem result_of_game (stands : Stands config result draft allocations context)
    (known : context.lexer.isExhausted = false) {game : Game}
    (plain : draft.recorded? context.lexer.token = none)
    (finished : draft.accept config context.lexer.token = .ok (.finished game)) :
    result = (.ok (some ⟨game, allocations.reverse⟩), context.interner, context.lexer) := by
  rw [← stands.leads, Draft.resume_of_token known, finished, plain]
  rfl

theorem readOn (stands : Stands config result draft allocations context)
    (known : context.lexer.isExhausted = false)
    (plain : draft.recorded? context.lexer.token = none)
    (onward : draft.accept config context.lexer.token = .ok (.onward next)) :
    next.readOn config allocations context.interner context.lexer = result := by
  rw [← stands.leads, Draft.resume_of_token known, onward, plain]
  rfl

/-- A header pair that the token makes known is interned before the token is taken. -/
theorem readOn_of_pair (stands : Stands config result draft allocations context)
    (known : context.lexer.isExhausted = false) {pair : HeaderPair}
    (recorded : draft.recorded? context.lexer.token = some pair)
    (onward : draft.accept config context.lexer.token = .ok (.onward next)) :
    next.readOn config ((context.interner.intern pair).1.allocation :: allocations)
      (context.interner.intern pair).2 context.lexer = result := by
  rw [← stands.leads, Draft.resume_of_token known, onward, recorded]
  rfl

end Stands

theorem Stands.behind {lexer after : Lexer} {interner : Interner} {consumed : Nat}
    (success : Scan.advance.run lexer = (.ok (), after))
    (leads : draft.readOn config allocations interner lexer = result) :
    Stands config result draft allocations ⟨after, interner, consumed⟩ where
  settled last := ((Lexer.isLast_or_offset_lt success).resolve_right
    fun inside => by simp_all).undefined
  leads := by rw [← leads, Draft.readOn_eq_resume success]

/-- Where the draft reads on, the next token may be taken. -/
theorem Serves.first (leads : draft.readOn config allocations context.interner context.lexer =
    result) :
    Serves result (advance context) fun _ later => Stands config result draft allocations later ∧
      (context.lexer.isExhausted = false → context.Precedes later) := by
  rw [advance_apply]
  match asked : Scan.advance.run context.lexer with
  | (.error failure, after) =>
    rw [Draft.readOn_of_failed asked] at leads
    exact .refused leads.symm
  | (.ok (), after) =>
    refine .value ⟨.behind asked leads, fun known => ⟨Nat.lt_succ_self _, ?_⟩⟩
    unfold Context.weight
    rw [known]
    have content := (Lexer.consumes_of_advance asked).content_le
    cases last : after.isExhausted with
    | true => simpa [last] using Nat.lt_succ_of_le content
    | false => simpa [last] using Lexer.content_lt_of_advance asked last

/-- Where the token was taken by the draft, it may be taken. -/
theorem Serves.advance (known : context.lexer.isExhausted = false)
    (leads : draft.readOn config allocations context.interner context.lexer = result) :
    Serves result (advance context) fun _ later =>
      Stands config result draft allocations later ∧ context.Precedes later :=
  (Serves.first leads).imp fun _ _ taken => ⟨taken.1, taken.2 known⟩

/-- The token is taken as the draft takes it. -/
theorem Stands.advance (stands : Stands config result draft allocations context)
    (known : context.lexer.token.kind ≠ .undefined)
    (plain : draft.recorded? context.lexer.token = none)
    (onward : draft.accept config context.lexer.token = .ok (.onward next)) :
    Serves result (advance context) fun _ later =>
      Stands config result next allocations later ∧ context.Precedes later :=
  .advance (stands.more known) (stands.readOn (stands.more known) plain onward)

section Requires

variable {kinds : List TokenKind}

/-- Both complain of the token. -/
theorem Stands.unexpected (stands : Stands config result draft allocations context)
    (plain : draft.recorded? context.lexer.token = none)
    (ending : context.lexer.isExhausted = true → draft.conclude config context.lexer.start =
      .error (.unexpectedEnd kinds context.lexer.start))
    (refused : context.lexer.isExhausted = false →
      draft.accept config context.lexer.token = .error (context.lexer.token.unexpected kinds)) :
    Serves result ((unexpected kinds : Descent Value) context) Post := by
  unfold Descent.unexpected
  rw [token_bind, isExhausted_bind]
  cases last : context.lexer.isExhausted with
  | true =>
    refine .refused ?_
    rw [← stands.leads, Draft.resume_of_last last, ending last, plain]
    rfl
  | false => exact .refused (stands.result_of_error last plain (refused last))

theorem Stands.expect_of (stands : Stands config result draft allocations context)
    (plain : draft.recorded? context.lexer.token = none)
    (ending : context.lexer.isExhausted = true → draft.conclude config context.lexer.start =
      .error (.unexpectedEnd kinds context.lexer.start))
    (refused : context.lexer.isExhausted = false → context.lexer.token.kind ∉ kinds →
      draft.accept config context.lexer.token = .error (context.lexer.token.unexpected kinds)) :
    Serves result (Descent.expect kinds context) fun _ later =>
      later = context ∧ context.lexer.token.kind ∈ kinds ∧
        context.lexer.isExhausted = false := by
  unfold Descent.expect
  rw [token_bind, isExhausted_bind]
  split
  · next fits =>
    exact .value ⟨rfl, fits.1, Bool.not_eq_true' _ ▸ fits.2⟩
  · next fails =>
    exact stands.unexpected plain ending fun more =>
      refused more fun member => fails ⟨member, by rw [more]; rfl⟩

theorem Stands.expect (stands : Stands config result draft allocations context)
    (requires : Requires config draft kinds context.lexer.token) :
    Serves result (Descent.expect kinds context) fun _ later =>
      later = context ∧ context.lexer.token.kind ∈ kinds ∧
        context.lexer.isExhausted = false :=
  stands.expect_of requires.plain (fun _ => requires.ending _) fun _ => requires.refused

theorem Stands.consume (stands : Stands config result draft allocations context)
    (requires : Requires config draft kinds context.lexer.token)
    (onward : context.lexer.token.kind ∈ kinds →
      draft.accept config context.lexer.token = .ok (.onward next)) :
    Serves result (Descent.consume kinds context) fun _ later =>
      Stands config result next allocations later ∧ context.Precedes later := by
  refine .bind (stands.expect requires) fun _ later expected => ?_
  obtain ⟨rfl, member, more⟩ := expected
  exact .advance more (stands.readOn more requires.plain (onward member))

/-- A token that is known to be of one of the kinds. -/
theorem Stands.consume_of_mem (stands : Stands config result draft allocations context)
    (known : context.lexer.token.kind ≠ .undefined)
    (member : context.lexer.token.kind ∈ kinds)
    (plain : draft.recorded? context.lexer.token = none)
    (onward : draft.accept config context.lexer.token = .ok (.onward next)) :
    Serves result (Descent.consume kinds context) fun _ later =>
      Stands config result next allocations later ∧ context.Precedes later := by
  refine (Serves.expect_of_mem (stands.more known) member).bind fun _ later expected => ?_
  obtain ⟨rfl, -, -⟩ := expected
  exact stands.advance known plain onward

end Requires

/-! ### Comments -/

section Comments

/-- One comment. -/
theorem Stands.commentText (stands : Stands config result draft allocations context)
    (idle : draft.commentPhase = .idle) (takes : draft.takesComments = true)
    (remark : context.lexer.token.kind ∈ remarking) :
    Serves result (commentText context) fun text later =>
      Stands config result (draft.addComment config text) allocations later ∧
        context.Precedes later := by
  have plain := recorded?_of_takesComments takes
  have requires (token : Token) : Requires config { draft with commentPhase := .opened }
      [.comment, .commentEnd] token := .opened takes token
  unfold Descent.commentText
  rw [token_bind]
  split
  · next line =>
    refine (stands.advance (by simp [line]) (plain _) ?_).bind fun _ later taken => .pure taken
    simp [Draft.accept, idle, takes, line]
  · next noLine =>
    have brace : context.lexer.token.kind = .commentBegin := by
      simpa [remarking, noLine] using remark
    have opened : draft.accept config context.lexer.token =
        .ok (.onward { draft with commentPhase := .opened }) := by
      simp [Draft.accept, idle, takes, brace]
    refine (stands.consume_of_mem (by simp [brace]) (by simp [brace]) (plain _) opened).bind
      fun _ inside taken => ?_
    obtain ⟨behind, first⟩ := taken
    rw [token_bind]
    split
    · next closing =>
      refine (behind.advance (by simp [closing]) (requires _).plain ?_).bind
        fun _ later taken => .pure ⟨taken.1, first.trans taken.2⟩
      simp only [Draft.accept, closing, if_true]
      rw [closed_eq idle]
    · next noEnd =>
      refine (behind.expect (requires _)).bind fun _ same expected => ?_
      obtain ⟨rfl, member, more⟩ := expected
      have text : same.lexer.token.kind = .comment := by simpa [noEnd] using member
      have filled : Draft.accept config { draft with commentPhase := .opened } same.lexer.token =
          .ok (.onward { draft with commentPhase := .filled same.lexer.token.text }) := by
        simp [Draft.accept, text]
      refine (behind.advance (by simp [text]) (requires _).plain filled).bind
        fun _ last taken => ?_
      obtain ⟨before, second⟩ := taken
      have closed (closing : last.lexer.token.kind ∈ [TokenKind.commentEnd]) :
          Draft.accept config { draft with commentPhase := .filled same.lexer.token.text }
            last.lexer.token = .ok (.onward (draft.addComment config same.lexer.token.text)) := by
        simp only [Draft.accept, List.mem_singleton.mp closing, if_true]
        rw [closed_eq idle]
      exact (before.consume (.filled takes _ _) closed).bind fun _ later taken =>
        .pure ⟨taken.1, (first.trans second).trans taken.2⟩

/-- Comments with the given texts were read, and come to what was added. -/
structure Remarked (config : Config) (result : Reading × Interner × Lexer)
    (drafts : List Bytes → Draft) (allocations : List Nat) (before : Context)
    (added : Option Bytes) (texts : List Bytes) (after : Context) : Prop where
  added : texts.foldl (Comment.add config) none = added
  stands : Stands config result (drafts texts) allocations after
  reaches : before.Reaches after
  here : texts = [] → after = before

/-- Comments that follow each other, where there may be some. -/
theorem Gathers.comments {drafts : List Bytes → Draft} (gathers : Gathers config drafts)
    (stands : Stands config result (drafts []) allocations context) :
    Serves result (comments config context) fun added later =>
      (∃ texts, Remarked config result drafts allocations context added texts later) ∧
        later.lexer.token.kind ∉ remarking := by
  have merges : Serves result (moreComments config none context) fun merged later =>
      (∃ texts, Remarked config result drafts allocations context
        (if config.skip.comments then none else merged) texts later) ∧
          later.lexer.token.kind ∉ remarking := by
    refine Serves.loop (fun merged later => ∃ texts, Remarked config result drafts allocations
      context (if config.skip.comments then none else merged) texts later) ?_ ?_
    · intro moreComments merged here invariant again
      obtain ⟨texts, remarked⟩ := invariant
      rw [token_bind]
      split
      · next remark =>
        have remark : here.lexer.token.kind ∈ remarking := by simpa [remarking] using remark
        refine (remarked.stands.commentText (gathers.idle _) (gathers.takes _) remark).bind
          fun text later taken => ?_
        obtain ⟨stands, precedes⟩ := taken
        refine again _ later ⟨texts ++ [text], ?_, gathers.adds _ _ ▸ stands,
          (remarked.reaches.andThen precedes).reaches, fun none => by simp at none⟩ precedes
        rw [List.foldl_append, remarked.added]
        exact add_merged config merged text
      · next other =>
        exact .pure ⟨⟨texts, remarked⟩, by simpa [remarking] using other⟩
    · exact ⟨[], (ite_self none).symm, stands, .refl context, fun _ => rfl⟩
  exact merges.bind fun merged later read => .pure read

end Comments

end Descent

end Scoresheet
