/-
This file holds the recursive descent through a whole game against the draft. For all settings,
caches and lexers the descent comes to an end, and both read the same, leave the same pairs in the
cache and the lexer at the same token.
-/

import Scoresheet.Proofs.Headings
import Scoresheet.Proofs.Probing

namespace Scoresheet.Descent

open Grammar

/-! ### Around a movetext -/

section Around

variable {headers : Option (List HeaderPair)} {comment : Option Bytes} {stage : Stage}

/-- A game behind the first comments. -/
abbrev prefaced (config : Config) (texts : List Bytes) : Draft :=
  ⟨none, texts.foldl (Comment.add config) none, .idle, if texts = [] then .start else .preface⟩

theorem gathers_prefaced (config : Config) : Gathers config (prefaced config) where
  idle _ := rfl
  takes texts := by
    unfold prefaced
    split <;> rfl
  adds texts added := by
    unfold prefaced
    rw [List.foldl_append, if_neg (by simp : texts ++ [added] ≠ [])]
    split <;> rfl

/-- A game behind the comments that follow the headers. -/
abbrev headed (config : Config) (headers : Option (List HeaderPair)) (comment : Option Bytes)
    (stage : Stage) (texts : List Bytes) : Draft :=
  ⟨headers, texts.foldl (Comment.add config) comment, .idle,
    if texts = [] then stage else .opening⟩

theorem gathers_headed (config : Config) {kind : TokenKind} (closing : Closing stage kind) :
    Gathers config (headed config headers comment stage) where
  idle _ := rfl
  takes texts := by
    unfold headed
    cases closing <;> split <;> rfl
  adds texts added := by
    unfold headed
    rw [List.foldl_append, if_neg (by simp : texts ++ [added] ≠ [])]
    cases closing <;> split <;> rfl

/-- Where the outcome has to follow, with the movetext that was read. -/
inductive Ending (lexer : Lexer) : Stage → Line → Prop where
  | played (line : Line) (marker : lexer.token.kind = .termination) :
      Ending lexer (.moves (Site.main.moves ⟨line.reverse, .rest⟩)) line
  | leftOut (stopped : lexer.token.kind = .termination ∨ lexer.isExhausted = true) :
      Ending lexer .movesLeftOut []

/-- A marker finishes the game with the movetext that was read. -/
theorem Ending.accept {lexer : Lexer} {line : Line} (ending : Ending lexer stage line)
    (marker : lexer.token.kind = .termination) (config : Config) :
    Draft.accept config ⟨headers, comment, .idle, stage⟩ lexer.token =
      Draft.finish ⟨headers, comment, .idle, stage⟩ line lexer.token := by
  rw [accept_of_idle rfl (by simp [marker]) (by simp [marker])]
  cases ending with
  | played line =>
    have ended : LineDraft.accept config ⟨line.reverse, .rest⟩ lexer.token =
        .ok (.ended line.reverse) :=
      Settled.accept_end (.turn (.rest _)) (.inl marker)
    simp [Draft.acceptStage, Draft.acceptMoves, Site.moves, MovesDraft.accept, ended, marker]
  | leftOut => simp [Draft.acceptStage, Draft.acceptLeftOut, marker]

end Around

/-! ### The parts of a game -/

section Games

variable [Hashable HeaderPair] {config : Config} {result : Reading × Interner × Lexer}
  {allocations : List Nat} {headers : Option (List HeaderPair)} {comment : Option Bytes}
  {stage : Stage} {context : Context}

/-- Behind the first comments, or where there are none, a header section may begin. -/
theorem Remarked.preface {before : Context} {added : Option Bytes} {texts : List Bytes}
    (remarked : Remarked config result (prefaced config) allocations before added texts context)
    (more : before.lexer.isExhausted = false)
    (starts : before.lexer.token.kind ∈ Draft.gameStart)
    (other : context.lexer.token.kind ∉ remarking) :
    Stands config result ⟨none, added, .idle, .preface⟩ allocations context := by
  have stands := remarked.stands
  unfold prefaced at stands
  rw [remarked.added] at stands
  split at stands
  · next none =>
    cases remarked.here none
    exact stands.restage other rfl rfl rfl (fun last => by simp [more] at last) (if_pos starts)
  · exact stands

/-- Behind the header section the movetext may begin as it does behind comments there. -/
theorem Closing.movetext (closing : Closing stage context.lexer.token.kind)
    (stands : Stands config result ⟨headers, comment, .idle, stage⟩ allocations context)
    (other : context.lexer.token.kind ∉ remarking) :
    Stands config result ⟨headers, comment, .idle, .opening⟩ allocations context := by
  cases closing with
  | opening => exact stands
  | complete noBracket =>
    exact stands.restage other rfl rfl rfl (fun _ => rfl) (if_pos ⟨rfl, noBracket⟩)
  | leftOut noHeader =>
    exact stands.restage other rfl rfl rfl (fun _ => rfl) (if_neg (Bool.eq_false_iff.mp noHeader))

/-- Behind the comments that follow the headers the movetext begins. -/
theorem Remarked.opening {before : Context} {added : Option Bytes} {texts : List Bytes}
    (remarked : Remarked config result (headed config headers comment stage) allocations before
      added texts context)
    (closing : Closing stage before.lexer.token.kind)
    (other : context.lexer.token.kind ∉ remarking) :
    Stands config result ⟨headers, extended comment added, .idle, .opening⟩ allocations
      context := by
  have stands := remarked.stands
  unfold headed at stands
  rw [foldl_add_eq_extended, remarked.added] at stands
  split at stands
  · next none =>
    cases remarked.here none
    exact closing.movetext stands other
  · exact stands

/-- A movetext that is left out is passed up to its marker. -/
theorem Stands.skipUntil {interner : Interner} {lexer : Lexer} {consumed : Nat}
    (stands : Stands config result ⟨headers, comment, .idle, .movesLeftOut⟩ allocations
      ⟨lexer, interner, consumed⟩) :
    Serves result (skipUntil .termination ⟨lexer, interner, consumed⟩) fun _ later =>
      Stands config result ⟨headers, comment, .idle, .movesLeftOut⟩ allocations later ∧
        Ending later.lexer .movesLeftOut [] := by
  have leads {lexer : Lexer} (onward : ¬ (lexer.kind = .termination ∨ lexer.isExhausted = true))
      (stands : Stands config result ⟨headers, comment, .idle, .movesLeftOut⟩ allocations
        ⟨lexer, interner, consumed⟩) :
      Draft.readOn config ⟨headers, comment, .idle, .movesLeftOut⟩ allocations interner lexer =
        result := by
    rw [not_or] at onward
    have noMarker : lexer.token.kind ≠ .termination := onward.1
    refine stands.readOn (Bool.eq_false_iff.mpr onward.2) rfl ?_
    simp [Draft.accept, Draft.takesComments, Draft.acceptStage, Draft.acceptLeftOut, noMarker]
  unfold Descent.skipUntil
  dsimp only
  fun_induction Lexer.skipUntil .termination lexer with
  | case1 lexer stopped => exact .value ⟨stands, .leftOut stopped⟩
  | case2 lexer onward failure after cut =>
    have failed := leads onward stands
    rw [Draft.readOn_of_failed cut] at failed
    exact .refused failed.symm
  | case3 lexer onward after success last =>
    exact .value ⟨.behind success (leads onward stands), .leftOut (.inr last)⟩
  | case4 lexer onward after success more inductionHypothesis =>
    exact inductionHypothesis (.behind success (leads onward stands))

theorem Stands.sequence
    (stands : Stands config result ⟨headers, comment, .idle, .opening⟩ allocations context)
    (other : context.lexer.token.kind ∉ remarking) :
    Serves result (sequence config (variation config ()) .termination context) fun line later =>
      ∃ stage, Stands config result ⟨headers, comment, .idle, stage⟩ allocations later ∧
        Ending later.lexer stage line := by
  unfold Descent.sequence
  cases skips : config.skip.moves with
  | true =>
    rw [if_pos ⟨rfl, rfl⟩]
    have passed : Stands config result ⟨headers, comment, .idle, .movesLeftOut⟩ allocations
        context := by
      refine stands.restage other rfl rfl rfl (fun _ => ?_) ?_
      · simp [Draft.conclude, Draft.expected, Draft.movetextStart, skips]
      · exact if_pos skips
    exact (Stands.skipUntil passed).bind fun _ later taken =>
      .pure ⟨_, taken.1, taken.2⟩
  | false =>
    rw [if_neg (by simp)]
    let scene : Scene := ⟨config, result, allocations, ⟨headers, comment⟩⟩
    have begins : scene.Stands .main ⟨[], .rest⟩ context := by
      refine stands.restage other rfl rfl rfl (fun _ => ?_) ?_
      · rw [conclude_moves]
        simp [Draft.conclude, Draft.expected, Draft.movetextStart, skips, LineDraft.expected]
      · exact if_neg (by simp [skips])
    refine (begins.allTurns (scene.readsAsides _) (Nat.lt_succ_self _)).imp
      fun line later read => ?_
    obtain ⟨stands, -, marker⟩ := read
    rw [List.append_nil] at stands
    exact ⟨_, stands, .played line marker⟩

/-- Without a marker the input has ended. -/
theorem Ending.expect {line : Line} (ending : Ending context.lexer stage line)
    (stands : Stands config result ⟨headers, comment, .idle, stage⟩ allocations context) :
    Serves result (Descent.expect [.termination] context) fun _ later =>
      later = context ∧ context.lexer.token.kind ∈ [TokenKind.termination] ∧
        context.lexer.isExhausted = false := by
  cases ending with
  | played line marker =>
    exact .expect_of_mem (stands.more (by simp [marker])) (by simp [marker])
  | leftOut stopped =>
    exact stands.expect_of rfl (fun _ => rfl) fun more noMarker => by simp_all

theorem Stands.outcome {line : Line}
    (stands : Stands config result ⟨headers, comment, .idle, stage⟩ allocations context)
    (ending : Ending context.lexer stage line) :
    Serves result (outcome context) fun outcome later =>
      result = (.ok (some ⟨⟨headers.map List.reverse, comment, line, outcome⟩,
        allocations.reverse⟩), later.interner, later.lexer) := by
  have plain : Draft.recorded? ⟨headers, comment, .idle, stage⟩ context.lexer.token = none := by
    cases ending <;> rfl
  unfold Descent.outcome
  refine (ending.expect stands).bind fun _ here taken => ?_
  obtain ⟨rfl, member, more⟩ := taken
  have accepted : Draft.accept config ⟨headers, comment, .idle, stage⟩ here.lexer.token =
      Draft.finish ⟨headers, comment, .idle, stage⟩ line here.lexer.token :=
    ending.accept (List.mem_singleton.mp member) config
  unfold Draft.finish at accepted
  rw [token_bind]
  cases named : Outcome.ofMarker? here.lexer.token.text with
  | some outcome =>
    rw [named] at accepted
    exact .pure (stands.result_of_game more plain accepted)
  | none =>
    rw [named] at accepted
    exact .refused (stands.result_of_error more plain accepted)

/-- The first token has to be one that a game can start with. -/
theorem Stands.start (stands : Stands config result .start allocations context)
    (known : context.lexer.isExhausted = false) :
    Serves result (Descent.expect Draft.gameStart context) fun _ later =>
      later = context ∧ context.lexer.token.kind ∈ Draft.gameStart ∧
        context.lexer.isExhausted = false := by
  refine stands.expect_of rfl (fun last => by simp [known] at last) fun _ other => ?_
  have noBrace : context.lexer.token.kind ≠ .commentBegin := fun brace => by
    simp [brace, Draft.gameStart] at other
  have noLine : context.lexer.token.kind ≠ .lineComment := fun line => by
    simp [line, Draft.gameStart] at other
  rw [accept_of_idle rfl noBrace noLine]
  exact if_neg other

/-- A game, from in front of its first token. -/
theorem serves_game (leads : Draft.start.readOn config [] context.interner context.lexer = result) :
    Serves result (game config context) fun entry later =>
      result = (.ok entry, later.interner, later.lexer) := by
  unfold Descent.game
  refine (Serves.first leads).bind fun _ first taken => ?_
  obtain ⟨stands, -⟩ := taken
  rw [isExhausted_bind]
  cases last : first.lexer.isExhausted with
  | true =>
    refine .pure ?_
    rw [← stands.leads, Draft.resume_of_last last]
    rfl
  | false =>
    refine (stands.start last).bind fun _ _ taken => ?_
    obtain ⟨rfl, starts, -⟩ := taken
    refine ((gathers_prefaced config).comments stands).bind fun early second read => ?_
    obtain ⟨⟨_, remarked⟩, other⟩ := read
    refine ((remarked.preface last starts other).headerSection other).bind
      fun headers third read => ?_
    obtain ⟨stage, stands, closing⟩ := read
    refine ((gathers_headed config closing).comments stands).bind fun late fourth read => ?_
    obtain ⟨⟨_, remarked⟩, other⟩ := read
    refine ((remarked.opening closing other).sequence other).bind fun line fifth read => ?_
    obtain ⟨_, stands, ending⟩ := read
    refine (stands.outcome ending).bind fun outcome last read => .pure (read.trans ?_)
    cases headers with
    | none => rfl
    | some shared => simp [pairsOf, allocationsOf]

end Games

/-- The recursive descent ends, and reads what the draft reads. -/
theorem read_eq_draft_read [Hashable HeaderPair] (config : Config) (interner : Interner)
    (lexer : Lexer) :
    Descent.read config interner lexer = some (Draft.read config interner lexer) := by
  have served : Serves (Draft.read config interner lexer) (game config ⟨lexer, interner, 0⟩)
      fun entry later => Draft.read config interner lexer =
        (.ok entry, later.interner, later.lexer) :=
    serves_game rfl
  unfold Descent.read
  generalize game config ⟨lexer, interner, 0⟩ = outcome at served ⊢
  cases served with
  | refused refused => rw [refused]; rfl
  | value read => rw [read]; rfl

end Scoresheet.Descent
