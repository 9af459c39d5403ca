/-
This file holds the recursive descent through the movetext against the draft. Behind a move the
descent looks for annotations, variations and comments in rounds, while the draft takes any of them
as it comes; the rounds end when nothing of the three follows. The functions from a move to a
variation are right as far as a variation inside them is, and that one has less to take.
-/

import Scoresheet.Proofs.Descending

namespace Scoresheet.Descent

open Grammar

/-! ### Tokens of a line -/

section Lines

variable {config : Config} {front : Front} {site : Site} {line further : LineDraft} {token : Token}

theorem takesComments_moves (front : Front) (site : Site) (line : LineDraft) :
    (front.draft (site.moves line)).takesComments = line.isBehindMove := by
  cases site <;> rfl

theorem conclude_moves (config : Config) (front : Front) (site : Site) (line : LineDraft)
    (position : Position) :
    (front.draft (site.moves line)).conclude config position =
      .error (.unexpectedEnd line.expected position) := by
  cases site <;> rfl

/-- Where no comment can follow, none is in the way. -/
theorem apart {kind : TokenKind} (unready : line.isBehindMove = false) :
    line.isBehindMove = true → kind ∉ remarking :=
  fun behind => absurd behind (Bool.eq_false_iff.mp unready)

/-- Comments belong to a line only behind a move. -/
theorem accept_line (outside : line.isBehindMove = true → token.kind ∉ remarking) :
    (front.draft (site.moves line)).accept config token =
      (front.draft (site.moves line)).acceptMoves config (site.moves line) token := by
  show _ = (front.draft (site.moves line)).acceptStage config token
  cases behind : line.isBehindMove with
  | true =>
    have other := outside behind
    exact accept_of_idle rfl (not_mem_remarking.mp other).1 (not_mem_remarking.mp other).2
  | false =>
    have takes := takesComments_moves front site line
    rw [behind] at takes
    unfold Draft.accept
    simp only [takes, Bool.false_eq_true, and_false, if_false]
    rfl

theorem accept_line_of_onward (outside : line.isBehindMove = true → token.kind ∉ remarking)
    (onward : line.accept config token = .ok (.onward further)) :
    (front.draft (site.moves line)).accept config token =
      .ok (.onward (front.draft (site.moves further))) := by
  rw [accept_line outside]
  unfold Draft.acceptMoves
  rw [Site.accept_of_onward onward]
  rfl

theorem accept_line_of_error (outside : line.isBehindMove = true → token.kind ∉ remarking)
    {error : ReadError} (refused : line.accept config token = .error error) :
    (front.draft (site.moves line)).accept config token = .error error := by
  rw [accept_line outside]
  unfold Draft.acceptMoves
  rw [Site.accept_of_error refused]

theorem Requires.ofLine (outside : line.isBehindMove = true → token.kind ∉ remarking)
    (refused : token.kind ∉ line.expected →
      line.accept config token = .error (token.unexpected line.expected)) :
    Requires config (front.draft (site.moves line)) line.expected token where
  plain := rfl
  ending := conclude_moves config front site line
  refused other := accept_line_of_error outside (refused other)

/-- The kind of the token that ends a line at the site. -/
def endingAt : Site → TokenKind
  | .main => .termination
  | .branch _ _ _ _ => .variationEnd

theorem Requires.rest {turns : List Turn} (onward : token.kind ≠ endingAt site) :
    Requires config (front.draft (site.moves ⟨turns, .rest⟩)) [.moveNumber] token where
  plain := rfl
  ending := conclude_moves config front site ⟨turns, .rest⟩
  refused other := by
    have noNumber : token.kind ≠ .moveNumber := by simpa using other
    have ended : LineDraft.accept config ⟨turns, .rest⟩ token = .ok (.ended turns) := by
      simp [LineDraft.accept, LineDraft.acceptAtRest, noNumber]
    have accepted : (front.draft (site.moves ⟨turns, .rest⟩)).accept config token =
        (front.draft (site.moves ⟨turns, .rest⟩)).acceptMoves config (site.moves ⟨turns, .rest⟩)
          token := accept_line (apart rfl)
    rw [accepted]
    cases site with
    | main =>
      have onward : token.kind ≠ .termination := onward
      simp [Draft.acceptMoves, Site.moves, MovesDraft.accept, ended, onward]
    | branch depth leading mainLine outer =>
      have onward : token.kind ≠ .variationEnd := onward
      simp [Draft.acceptMoves, Site.moves, MovesDraft.accept, Branch.accept, ended, onward]

/-- Behind the parentheses of a variation comments are gathered in front of its first move. -/
theorem gathers_within (moves : MovesDraft) (depth : Nat) :
    Gathers config fun texts => front.draft
      (within moves ⟨depth, leadOf texts, texts.foldl (Comment.add config) none, .start⟩) where
  idle _ := rfl
  takes texts := by
    unfold leadOf
    split <;> rfl
  adds texts added := by
    rw [List.foldl_append]
    unfold leadOf
    rw [if_neg (by simp : texts ++ [added] ≠ [])]
    split <;> rfl

section Behind

variable {turns : List Turn} {phase : MoveDraft → TurnPhase} {text : Bytes}
  {comment : Option Bytes} {nags : List Nag}

/-- Behind a move comments are gathered with it. -/
theorem gathers_behind {lines : List Line} (behind : Behind phase) :
    Gathers config fun texts => front.draft (site.moves
      ⟨turns, phase ⟨text, texts.foldl (Comment.add config) comment, nags, lines⟩⟩) where
  idle _ := rfl
  takes _ := behind.takesComments
  adds texts added := by
    rw [behind.addComment, List.foldl_append]
    rfl

/-- The draft has its variations latest first. -/
theorem addVariation_reverse (config : Config) (text : Bytes) (comment : Option Bytes)
    (nags : List Nag) (lines : List Line) (line : Line) :
    MoveDraft.addVariation config line ⟨text, comment, nags, lines.reverse⟩ =
      ⟨text, comment, nags,
        (if config.skip.variations || line.isEmpty then lines else lines ++ [line]).reverse⟩ := by
  unfold MoveDraft.addVariation
  split
  · rfl
  · rw [List.reverse_append]
    rfl

/-- The complete move has what was found behind it. -/
theorem finish_found (config : Config) (text : Bytes) (found : MoveDetails) :
    MoveDraft.finish config ⟨text, found.comment, found.nags, found.variations.reverse⟩ =
      .of text (described config found.nags found.comment) found.nags found.variations := by
  unfold MoveDraft.finish described
  dsimp only
  rw [List.reverse_reverse]
  cases config.annotationTemplate with
  | none => rfl
  | some template =>
    dsimp only
    unfold MoveDraft.describe
    cases Nag.rendered (Bytes.ofString template) found.nags with
    | none => rfl
    | some rendered =>
      match found.comment with
      | none => rfl
      | some [] => rfl
      | some (_ :: _) => rfl

end Behind

end Lines

/-- The reading that a movetext leads to, and what stays the same in between. -/
structure Scene where
  config : Config
  result : Reading × Interner × Lexer
  allocations : List Nat
  front : Front

variable [Hashable HeaderPair]

/-- From the current token on a line is read at a site. -/
abbrev Scene.Stands (scene : Scene) (site : Site) (line : LineDraft) (context : Context) : Prop :=
  Descent.Stands scene.config scene.result (scene.front.draft (site.moves line)) scene.allocations
    context

variable {scene : Scene} {site : Site} {line further : LineDraft} {turns : List Turn}
  {context : Context}

/-- The line takes the token. -/
theorem Scene.Stands.take (stands : scene.Stands site line context)
    (more : context.lexer.isExhausted = false)
    (outside : line.isBehindMove = true → context.lexer.token.kind ∉ remarking)
    (onward : line.accept scene.config context.lexer.token = .ok (.onward further)) :
    Serves scene.result (advance context) fun _ later =>
      scene.Stands site further later ∧ context.Precedes later :=
  .advance more (stands.readOn more rfl (accept_line_of_onward outside onward))

/-- The line complains of the token. -/
theorem Scene.Stands.refuse {Value : Type} {Post : Value → Context → Prop}
    {kinds : List TokenKind} (stands : scene.Stands site line context)
    (expected : context.lexer.isExhausted = true → line.expected = kinds)
    (outside : line.isBehindMove = true → context.lexer.token.kind ∉ remarking)
    (refused : context.lexer.isExhausted = false → line.accept scene.config context.lexer.token =
      .error (context.lexer.token.unexpected kinds)) :
    Serves scene.result ((unexpected kinds : Descent Value) context) Post :=
  Stands.unexpected stands rfl
    (fun last => expected last ▸ conclude_moves scene.config scene.front site line _)
    fun more => accept_line_of_error outside (refused more)

/-! ### What follows a move -/

section Behind

variable {phase : MoveDraft → TurnPhase} {text : Bytes} {comment : Option Bytes}
  {nags : List Nag} {lines : List Line}

/-- The code of an annotation that is not beyond the limit. -/
theorem Scene.Stands.code (behind : Behind phase)
    (stands : scene.Stands site ⟨turns, phase ⟨text, comment, nags, lines⟩⟩ context)
    (kind : context.lexer.token.kind = .nag)
    (room : nags.length < scene.config.annotationLimit) :
    Serves scene.result (code scene.config context.lexer.token context) fun nag later =>
      later = context ∧
        LineDraft.accept scene.config ⟨turns, phase ⟨text, comment, nags, lines⟩⟩
            context.lexer.token =
          .ok (.onward ⟨turns, phase ⟨text, comment, Nag.put scene.config nags nag, lines⟩⟩) := by
  have accepted := behind.accept_annotation kind scene.config turns ⟨text, comment, nags, lines⟩
  rw [MoveDraft.annotate_eq_gather] at accepted
  unfold Nag.gather at accepted
  rw [if_neg (Nat.not_le_of_lt room)] at accepted
  unfold Descent.code
  cases known : Nag.ofText? context.lexer.token.text with
  | some nag =>
    rw [known] at accepted
    exact .value ⟨rfl, accepted⟩
  | none =>
    rw [known] at accepted
    cases lenient : scene.config.nullOnInvalidNag with
    | true =>
      rw [lenient] at accepted
      exact .value ⟨rfl, accepted⟩
    | false =>
      rw [lenient] at accepted
      exact .refused (stands.result_of_error (stands.more (by simp [kind])) rfl
        (accept_line_of_error (fun _ => by simp [kind, remarking]) accepted))

/-- Annotations that follow each other. -/
theorem Scene.Stands.annotations (behind : Behind phase)
    (stands : scene.Stands site ⟨turns, phase ⟨text, comment, nags, lines⟩⟩ context) :
    Serves scene.result (annotations scene.config nags context) fun nags later =>
      scene.Stands site ⟨turns, phase ⟨text, comment, nags, lines⟩⟩ later ∧
        context.Reaches later ∧ later.lexer.token.kind ≠ .nag := by
  refine Serves.loop (fun nags later =>
    scene.Stands site ⟨turns, phase ⟨text, comment, nags, lines⟩⟩ later ∧ context.Reaches later)
    ?_ ⟨stands, .refl context⟩
  intro annotations nags here invariant again
  obtain ⟨stands, reached⟩ := invariant
  rw [token_bind]
  split
  · next kind =>
    have more := stands.more (by simp [kind])
    have outside : LineDraft.isBehindMove ⟨turns, phase ⟨text, comment, nags, lines⟩⟩ = true →
        here.lexer.token.kind ∉ remarking := fun _ => by simp [kind, remarking]
    split
    · next room =>
      refine (stands.code behind kind room).bind fun nag _ known => ?_
      obtain ⟨rfl, onward⟩ := known
      refine (stands.take more outside onward).bind fun _ later taken => ?_
      exact again _ later ⟨taken.1, (reached.andThen taken.2).reaches⟩ taken.2
    · next full =>
      have accepted := behind.accept_annotation kind scene.config turns ⟨text, comment, nags, lines⟩
      rw [MoveDraft.annotate_eq_gather] at accepted
      unfold Nag.gather at accepted
      rw [if_pos (Nat.le_of_not_lt full)] at accepted
      refine (stands.take more outside accepted).bind fun _ later taken => ?_
      exact again _ later ⟨taken.1, (reached.andThen taken.2).reaches⟩ taken.2
  · next other => exact .pure ⟨stands, reached, other⟩

/-- Comments that follow each other. -/
theorem Scene.Stands.comments (behind : Behind phase)
    (stands : scene.Stands site ⟨turns, phase ⟨text, comment, nags, lines⟩⟩ context) :
    Serves scene.result (comments scene.config context) fun added later =>
      scene.Stands site ⟨turns, phase ⟨text, extended comment added, nags, lines⟩⟩ later ∧
        context.Reaches later ∧ later.lexer.token.kind ∉ remarking := by
  refine ((gathers_behind behind).comments stands).imp fun added later read => ?_
  obtain ⟨⟨texts, remarked⟩, other⟩ := read
  have stands := remarked.stands
  rw [foldl_add_eq_extended, remarked.added] at stands
  exact ⟨stands, remarked.reaches, other⟩

/-- At an opening parenthesis behind a move a variation of it is read. -/
def Scene.ReadsAside (scene : Scene) (outcome : Option (Except ReadError Line × Context))
    (context : Context) : Prop :=
  ∀ ⦃site : Site⦄ ⦃turns : List Turn⦄ ⦃phase : MoveDraft → TurnPhase⦄ ⦃move : MoveDraft⦄,
    Behind phase → scene.Stands site ⟨turns, phase move⟩ context →
      context.lexer.token.kind = .variationBegin →
        Serves scene.result outcome fun line later =>
          scene.Stands site ⟨turns, phase (move.addVariation scene.config line)⟩ later ∧
            context.Precedes later

/-- Variations are read rightly wherever there is less to take than the given amount. -/
def Scene.ReadsAsides (scene : Scene) (variation : Descent Line) (weight : Nat) : Prop :=
  ∀ ⦃context : Context⦄, context.weight < weight → scene.ReadsAside (variation context) context

/-- Variations that follow each other. -/
theorem Scene.Stands.variations {variation : Descent Line} {weight : Nat}
    (asides : scene.ReadsAsides variation weight) (less : context.weight < weight)
    (behind : Behind phase)
    (stands : scene.Stands site ⟨turns, phase ⟨text, comment, nags, lines.reverse⟩⟩ context) :
    Serves scene.result (variations scene.config variation (false, lines) context)
      fun found later =>
        scene.Stands site ⟨turns, phase ⟨text, comment, nags, found.2.reverse⟩⟩ later ∧
          context.Reaches later ∧ later.lexer.token.kind ≠ .variationBegin := by
  refine Serves.loop (fun found later =>
    scene.Stands site ⟨turns, phase ⟨text, comment, nags, found.2.reverse⟩⟩ later ∧
      context.Reaches later) ?_ ⟨stands, .refl context⟩
  intro variations found here invariant again
  obtain ⟨stands, reached⟩ := invariant
  rw [token_bind]
  split
  · next kind =>
    refine (asides (reached.weight_le.trans_lt less) behind stands kind).bind
      fun line later taken => ?_
    rw [addVariation_reverse] at taken
    exact again _ later ⟨taken.1, (reached.andThen taken.2).reaches⟩ taken.2
  · next other => exact .pure ⟨stands, reached, other⟩

/-- One round. Where it has taken nothing, the token is none that adds to a move. -/
theorem Scene.Stands.probes {variation : Descent Line} {weight : Nat}
    (asides : scene.ReadsAsides variation weight) (less : context.weight < weight)
    (behind : Behind phase) {found : MoveDetails}
    (stands : scene.Stands site
      ⟨turns, phase ⟨text, found.comment, found.nags, found.variations.reverse⟩⟩ context) :
    Serves scene.result (probes scene.config variation found context) fun found later =>
      scene.Stands site
          ⟨turns, phase ⟨text, found.comment, found.nags, found.variations.reverse⟩⟩ later ∧
        context.Reaches later ∧ (later = context → later.lexer.token.kind ∉ adding) := by
  unfold Descent.probes
  refine (stands.annotations behind).bind fun nags first taken => ?_
  obtain ⟨stands, toFirst, noNag⟩ := taken
  refine (stands.variations asides (toFirst.weight_le.trans_lt less) behind).bind
    fun held second taken => ?_
  obtain ⟨stands, toSecond, noAside⟩ := taken
  obtain ⟨present, lines⟩ := held
  refine (stands.annotations behind).bind fun nags third taken => ?_
  obtain ⟨stands, toThird, -⟩ := taken
  refine (stands.comments behind).bind fun added fourth taken => ?_
  obtain ⟨stands, toFourth, noRemark⟩ := taken
  refine (stands.annotations behind).bind fun nags fifth taken => ?_
  obtain ⟨stands, toFifth, -⟩ := taken
  have toEnd := toThird.trans (toFourth.trans toFifth)
  have reached := toFirst.trans (toSecond.trans toEnd)
  -- Back at the beginning all places in between are the same one.
  have ended {later : Context} (onward : fifth.Reaches later) (same : later = context) :
      later.lexer.token.kind ∉ adding := by
    subst same
    have atFirst := toFirst.eq (toSecond.trans (toEnd.trans onward))
    have atSecond := (toFirst.trans toSecond).eq (toEnd.trans onward)
    have atFourth := (toFirst.trans (toSecond.trans (toThird.trans toFourth))).eq
      (toFifth.trans onward)
    subst atFirst atSecond atFourth
    obtain ⟨noBrace, noLine⟩ := not_mem_remarking.mp noRemark
    exact not_mem_adding.mpr ⟨noNag, noBrace, noLine, noAside⟩
  dsimp only
  split
  · exact .pure ⟨stands, reached, ended (.refl fifth)⟩
  · refine (stands.variations asides (reached.weight_le.trans_lt less) behind).bind
      fun held sixth taken => ?_
    obtain ⟨stands, toSixth, -⟩ := taken
    obtain ⟨_, lines⟩ := held
    refine (stands.annotations behind).bind fun nags seventh taken => ?_
    obtain ⟨stands, toSeventh, -⟩ := taken
    have onward := toSixth.trans toSeventh
    exact .pure ⟨stands, reached.trans onward, ended onward⟩

/-- All that follows a move. -/
theorem Scene.Stands.details {variation : Descent Line} {weight : Nat}
    (asides : scene.ReadsAsides variation weight) (less : context.weight < weight)
    (behind : Behind phase)
    (stands : scene.Stands site ⟨turns, phase ⟨text, none, nags, []⟩⟩ context) :
    Serves scene.result (details scene.config variation ⟨none, nags, []⟩ context)
      fun found later =>
        scene.Stands site
            ⟨turns, phase ⟨text, found.comment, found.nags, found.variations.reverse⟩⟩ later ∧
          context.Reaches later ∧ later.lexer.token.kind ∉ adding := by
  refine Serves.loop (fun found later => scene.Stands site
      ⟨turns, phase ⟨text, found.comment, found.nags, found.variations.reverse⟩⟩ later ∧
    context.Reaches later) ?_ ⟨stands, .refl context⟩
  intro details found here invariant again
  obtain ⟨stands, reached⟩ := invariant
  rw [consumed_bind]
  refine (stands.probes asides (reached.weight_le.trans_lt less) behind).bind
    fun found later taken => ?_
  obtain ⟨stands, onward, ended⟩ := taken
  rw [consumed_bind]
  rcases onward with same | precedes
  · rw [if_pos (congrArg Context.consumed same)]
    exact .pure ⟨stands, same ▸ reached, ended same⟩
  · rw [if_neg precedes.consumed.ne']
    exact again found later ⟨stands, (reached.andThen precedes).reaches⟩ precedes

/-- A move, where the token is required or known to be one. -/
theorem Scene.Stands.move {variation : Descent Line} {weight : Nat}
    (stands : scene.Stands site line context)
    (asides : scene.ReadsAsides variation weight) (less : context.weight < weight)
    (behind : Behind phase) {kind : TokenKind}
    (outside : line.isBehindMove = true → context.lexer.token.kind ∉ remarking)
    (expects : Serves scene.result (expect [kind] context) fun _ later =>
      later = context ∧ context.lexer.token.kind ∈ [kind] ∧ context.lexer.isExhausted = false)
    (onward : context.lexer.token.kind = kind →
      line.accept scene.config context.lexer.token =
        .ok (.onward ⟨turns, phase (.start scene.config context.lexer.token.text)⟩)) :
    Serves scene.result (move scene.config variation kind context) fun move later =>
      (∃ last, last.finish scene.config = move ∧ scene.Stands site ⟨turns, phase last⟩ later) ∧
        context.Precedes later ∧ later.lexer.token.kind ∉ adding := by
  unfold Descent.move
  refine expects.bind fun _ here expected => ?_
  obtain ⟨rfl, member, more⟩ := expected
  rw [token_bind]
  have moved := onward (List.mem_singleton.mp member)
  rw [MoveDraft.start_eq, Move.split] at moved
  generalize (if scene.config.extractInlineAnnotations then Nag.splitInline here.lexer.token.text
    else (here.lexer.token.text, [])) = told at moved ⊢
  obtain ⟨text, nags⟩ := told
  dsimp only
  refine (stands.take more outside moved).bind fun _ first taken => ?_
  obtain ⟨stands, precedes⟩ := taken
  refine (stands.details asides (precedes.weight.trans less) behind).bind
    fun found later taken => ?_
  obtain ⟨stands, reached, other⟩ := taken
  exact .pure ⟨⟨_, finish_found scene.config text found, stands⟩, precedes.andThen reached, other⟩

end Behind

/-! ### Turns -/

/-- The number of a turn. -/
theorem Scene.Stands.number (stands : scene.Stands site ⟨turns, .rest⟩ context)
    (kind : context.lexer.token.kind = .moveNumber) :
    Serves scene.result (number scene.config context) fun number later =>
      later = context ∧ LineDraft.accept scene.config ⟨turns, .rest⟩ context.lexer.token =
        .ok (.onward ⟨turns, .numbered number context.lexer.token.text⟩) := by
  have accepted : LineDraft.accept scene.config ⟨turns, .rest⟩ context.lexer.token =
      LineDraft.acceptAtRest scene.config turns context.lexer.token := rfl
  unfold LineDraft.acceptAtRest at accepted
  rw [if_pos kind] at accepted
  unfold Descent.number
  rw [token_bind]
  cases value : Bytes.number? LineDraft.largestNumber context.lexer.token.text with
  | none =>
    rw [value] at accepted
    exact stands.refuse (fun _ => rfl) (apart rfl) fun _ => accepted
  | some number =>
    rw [value] at accepted
    dsimp only at accepted ⊢
    split
    · next zero =>
      rw [if_pos ⟨zero.2, zero.1⟩] at accepted
      exact stands.refuse (fun _ => rfl) (apart rfl) fun _ => accepted
    · next fits =>
      rw [if_neg fun zero => fits ⟨zero.2, zero.1⟩] at accepted
      exact .pure ⟨rfl, accepted⟩

section Turns

variable {variation : Descent Line} {weight : Nat} {number : UInt32} {digits : Bytes}

/-- Behind the move of white, or where it is left out. -/
inductive Scene.Opened (scene : Scene) (site : Site) (turns : List Turn) (number : UInt32)
    (digits : Bytes) : Option Move × Option TokenKind → Context → Prop where
  | played {last : MoveDraft} {context : Context}
      (stands : scene.Stands site ⟨turns, .white number digits last⟩ context)
      (other : context.lexer.token.kind ∉ adding) :
      Opened scene site turns number digits (some (last.finish scene.config), none) context
  | omitted {context : Context}
      (stands : scene.Stands site ⟨turns, .owed number none .black⟩ context) :
      Opened scene site turns number digits (none, some .blackMove) context

theorem Scene.Stands.whiteMove (asides : scene.ReadsAsides variation weight)
    (less : context.weight < weight)
    (stands : scene.Stands site ⟨turns, .numbered number digits⟩ context) :
    Serves scene.result (whiteMove scene.config variation context) fun white later =>
      scene.Opened site turns number digits white later ∧ context.Precedes later := by
  unfold Descent.whiteMove
  rw [token_bind]
  split
  · next dot =>
    have dotted : LineDraft.accept scene.config ⟨turns, .numbered number digits⟩
        context.lexer.token = .ok (.onward ⟨turns, .dotted number digits⟩) := by
      simp [LineDraft.accept, dot]
    refine (stands.take (stands.more (by simp [dot])) (apart rfl) dotted).bind
      fun _ first taken => ?_
    obtain ⟨stands, precedes⟩ := taken
    rw [token_bind]
    split
    · next dots =>
      have omitted : LineDraft.accept scene.config ⟨turns, .dotted number digits⟩
          first.lexer.token = .ok (.onward ⟨turns, .owed number none .black⟩) := by
        simp_all [LineDraft.accept]
      refine (stands.take (stands.more (by simp [dots])) (apart rfl) omitted).bind
        fun _ later taken => ?_
      exact .pure ⟨.omitted taken.1, precedes.trans taken.2⟩
    · next noDots =>
      have requires : Requires scene.config
          (scene.front.draft (site.moves ⟨turns, .dotted number digits⟩)) [.whiteMove]
          first.lexer.token :=
        .ofLine (apart rfl) fun other => by
          simp_all [LineDraft.accept, LineDraft.expected]
      have moved (kind : first.lexer.token.kind = .whiteMove) :
          LineDraft.accept scene.config ⟨turns, .dotted number digits⟩ first.lexer.token =
            .ok (.onward ⟨turns, .white number digits
              (.start scene.config first.lexer.token.text)⟩) := by
        simp [LineDraft.accept, kind]
      refine (stands.move asides (precedes.weight.trans less) (.white number digits) (apart rfl)
        (stands.expect requires) moved).bind fun white later taken => ?_
      obtain ⟨⟨last, rfl, stands⟩, onward, other⟩ := taken
      exact .pure ⟨.played stands other, precedes.trans onward⟩
  · next noDot =>
    split
    · next dots =>
      have omitted : LineDraft.accept scene.config ⟨turns, .numbered number digits⟩
          context.lexer.token = .ok (.onward ⟨turns, .owed number none .black⟩) := by
        simp [LineDraft.accept, dots]
      refine (stands.take (stands.more (by simp [dots])) (apart rfl) omitted).bind
        fun _ later taken => ?_
      exact .pure ⟨.omitted taken.1, taken.2⟩
    · next noDots =>
      refine stands.refuse (fun _ => rfl) (apart rfl) fun _ => ?_
      unfold LineDraft.accept
      dsimp only
      split
      · next dot => exact absurd dot noDot
      · next dots => exact absurd dots noDots
      · rfl

/-- Behind the move of white, before the move of black if there is one. -/
inductive Scene.Answerable (scene : Scene) (site : Site) (turns : List Turn) (number : UInt32) :
    Option Move → Option TokenKind → Context → Prop where
  | owed {white : Option Move} (told : Side) {context : Context}
      (stands : scene.Stands site ⟨turns, .owed number white told⟩ context) :
      Answerable scene site turns number white (some told.moveKind) context
  | free {digits : Bytes} {last : MoveDraft} {context : Context}
      (stands : scene.Stands site ⟨turns, .white number digits last⟩ context)
      (other : context.lexer.token.kind ∉ adding)
      (noNumber : context.lexer.token.kind ≠ .moveNumber) :
      Answerable scene site turns number (some (last.finish scene.config)) none context

/-- The sign behind a repeated move number. -/
theorem Scene.Stands.repetition {white : Move} {same : Bool}
    (stands : scene.Stands site ⟨turns, .renumbered number white same⟩ context) :
    Serves scene.result (repetition scene.config same context) fun kind later =>
      (∃ told : Side, told.moveKind = kind ∧
        scene.Stands site ⟨turns, .owed number (some white) told⟩ later) ∧
          context.Precedes later := by
  unfold Descent.repetition
  rw [token_bind]
  split
  · next dots =>
    have owed : LineDraft.accept scene.config ⟨turns, .renumbered number white same⟩
        context.lexer.token = .ok (.onward ⟨turns, .owed number white .black⟩) := by
      simp [LineDraft.accept, dots]
    refine (stands.take (stands.more (by simp [dots])) (apart rfl) owed).bind
      fun _ later taken => ?_
    exact .pure ⟨⟨.black, rfl, taken.1⟩, taken.2⟩
  · next noDots =>
    split
    · next dot =>
      have owed : LineDraft.accept scene.config ⟨turns, .renumbered number white same⟩
          context.lexer.token = .ok (.onward ⟨turns, .owed number white .white⟩) := by
        simp_all [LineDraft.accept]
      refine (stands.take (stands.more (by simp [dot])) (apart rfl) owed).bind
        fun _ later taken => ?_
      exact .pure ⟨⟨.white, rfl, taken.1⟩, taken.2⟩
    · next noDot =>
      refine stands.refuse (fun _ => rfl) (apart rfl) fun _ => ?_
      have other : ¬ (context.lexer.token.kind = .dot ∧ same = true ∧
          scene.config.strict = false) := by
        simpa using noDot
      simp only [LineDraft.accept, if_neg noDots, if_neg other]
      rfl

/-- A move number repeated behind the move of white. -/
theorem Scene.Opened.deferral {white : Option Move} {owed : Option TokenKind}
    (opened : scene.Opened site turns number digits (white, owed) context) :
    Serves scene.result (deferral scene.config digits white owed context) fun owed later =>
      scene.Answerable site turns number white owed later ∧ context.Reaches later := by
  unfold Descent.deferral
  rw [token_bind]
  cases opened with
  | omitted stands => exact .pure ⟨.owed .black stands, .refl context⟩
  | @played last _ stands other =>
    split
    · next again =>
      have kind := again.2
      have outside : LineDraft.isBehindMove ⟨turns, .white number digits last⟩ = true →
          context.lexer.token.kind ∉ remarking := fun _ => by simp [kind, remarking]
      have more := stands.more (by simp [kind])
      split
      · next strict =>
        refine stands.refuse (fun ended => by simp [more] at ended) outside fun _ => ?_
        simp [LineDraft.accept, kind, strict]
      · next tolerant =>
        have renumbered : LineDraft.accept scene.config ⟨turns, .white number digits last⟩
            context.lexer.token = .ok (.onward ⟨turns, .renumbered number
              (last.finish scene.config) (decide (context.lexer.token.text = digits))⟩) := by
          by_cases same : context.lexer.token.text = digits
          · simp [LineDraft.accept, kind, same]
          · have lenient : scene.config.strict = false := by simpa [same] using tolerant
            simp [LineDraft.accept, kind, same, lenient]
        refine (stands.take more outside renumbered).bind fun _ sign taken => ?_
        obtain ⟨stands, toSign⟩ := taken
        refine stands.repetition.bind fun owed later taken => ?_
        obtain ⟨⟨told, rfl, stands⟩, toLater⟩ := taken
        exact .pure ⟨.owed told stands, (toSign.trans toLater).reaches⟩
    · next noNumber =>
      exact .pure ⟨.free stands other fun kind => noNumber ⟨rfl, kind⟩, .refl context⟩

/-- A line whose turn is complete may as well be between turns. -/
theorem Scene.Stands.settle (stands : scene.Stands site line context)
    (other : context.lexer.token.kind ∉ adding) (ending : line.expected = [.moveNumber])
    (complete : line.accept scene.config context.lexer.token =
      LineDraft.acceptAtRest scene.config turns context.lexer.token) :
    scene.Stands site ⟨turns, .rest⟩ context := by
  obtain ⟨_, noBrace, noLine, _⟩ := not_mem_adding.mp other
  refine stands.congr rfl (fun _ => ?_) ?_
  · rw [conclude_moves, conclude_moves, ending]
    rfl
  · exact accept_congr noBrace noLine complete acceptAtRest_ne_branch

/-- Behind a move of black and what follows it the turn is complete. -/
theorem Scene.Stands.answered {white : Option Move} {last : MoveDraft}
    (stands : scene.Stands site ⟨turns, .black number white last⟩ context)
    (other : context.lexer.token.kind ∉ adding) :
    ∃ turn, Turn.ofSides? number white (some (last.finish scene.config)) = some turn ∧
      scene.Stands site ⟨turn :: turns, .rest⟩ context := by
  refine ⟨LineDraft.blackTurn number white (last.finish scene.config), by cases white <;> rfl,
    stands.settle other rfl ?_⟩
  obtain ⟨noNag, _, _, noAside⟩ := not_mem_adding.mp other
  unfold LineDraft.accept
  dsimp only
  split
  · next kind => exact absurd kind noNag
  · next kind => exact absurd kind noAside
  · rfl

/-- Behind a move of white the turn is complete where no other move follows. -/
theorem Scene.Stands.unanswered {last : MoveDraft}
    (stands : scene.Stands site ⟨turns, .white number digits last⟩ context)
    (other : context.lexer.token.kind ∉ adding)
    (noNumber : context.lexer.token.kind ≠ .moveNumber)
    (noBlack : context.lexer.token.kind ≠ .blackMove) :
    scene.Stands site ⟨.whiteOnly number (last.finish scene.config) :: turns, .rest⟩ context := by
  refine stands.settle other rfl ?_
  obtain ⟨noNag, _, _, noAside⟩ := not_mem_adding.mp other
  unfold LineDraft.accept
  dsimp only
  split
  · next kind => exact absurd kind noNag
  · next kind => exact absurd kind noAside
  · next kind => exact absurd kind noNumber
  · next kind => exact absurd kind noBlack
  · rfl

theorem Scene.Answerable.blackMove {white : Option Move} {owed : Option TokenKind}
    (asides : scene.ReadsAsides variation weight) (less : context.weight < weight)
    (answerable : scene.Answerable site turns number white owed context) :
    Serves scene.result (blackMove scene.config variation owed context) fun black later =>
      (∃ turn, Turn.ofSides? number white black = some turn ∧
        scene.Stands site ⟨turn :: turns, .rest⟩ later) ∧ context.Reaches later := by
  unfold Descent.blackMove
  cases answerable with
  | owed told stands =>
    have requires : Requires scene.config
        (scene.front.draft (site.moves ⟨turns, .owed number white told⟩)) [told.moveKind]
        context.lexer.token :=
      .ofLine (apart rfl) fun other => by
        simp_all [LineDraft.accept, LineDraft.expected]
    have moved (kind : context.lexer.token.kind = told.moveKind) :
        LineDraft.accept scene.config ⟨turns, .owed number white told⟩ context.lexer.token =
          .ok (.onward ⟨turns, .black number white
            (.start scene.config context.lexer.token.text)⟩) := by
      simp [LineDraft.accept, kind]
    refine (stands.move asides less (.black number white) (apart rfl) (stands.expect requires)
      moved).bind fun black later taken => ?_
    obtain ⟨⟨last, rfl, stands⟩, onward, other⟩ := taken
    exact .pure ⟨stands.answered other, onward.reaches⟩
  | @free digits last _ stands other noNumber =>
    dsimp only
    rw [token_bind]
    split
    · next kind =>
      have outside : LineDraft.isBehindMove ⟨turns, .white number digits last⟩ = true →
          context.lexer.token.kind ∉ remarking := fun _ => by simp [kind, remarking]
      have moved (_ : context.lexer.token.kind = .blackMove) :
          LineDraft.accept scene.config ⟨turns, .white number digits last⟩ context.lexer.token =
            .ok (.onward ⟨turns, .black number (some (last.finish scene.config))
              (.start scene.config context.lexer.token.text)⟩) := by
        simp [LineDraft.accept, kind]
      refine (stands.move asides less (.black number _) outside (.expect_of_mem
        (stands.more (by simp [kind])) (by simp [kind])) moved).bind fun black later taken => ?_
      obtain ⟨⟨last, rfl, stands⟩, onward, other⟩ := taken
      exact .pure ⟨stands.answered other, onward.reaches⟩
    · next noBlack =>
      exact .pure ⟨⟨_, rfl, stands.unanswered other noNumber noBlack⟩, .refl context⟩

theorem Scene.Stands.turn (asides : scene.ReadsAsides variation weight)
    (less : context.weight < weight) (stands : scene.Stands site ⟨turns, .rest⟩ context)
    (onward : context.lexer.token.kind ≠ endingAt site) :
    Serves scene.result (turn scene.config variation context) fun turn later =>
      scene.Stands site ⟨turn :: turns, .rest⟩ later ∧ context.Precedes later := by
  unfold Descent.turn
  refine (stands.expect (.rest onward)).bind fun _ here expected => ?_
  obtain ⟨rfl, member, more⟩ := expected
  rw [token_bind]
  refine (stands.number (List.mem_singleton.mp member)).bind fun number _ known => ?_
  obtain ⟨rfl, numbered⟩ := known
  refine (stands.take more (apart rfl) numbered).bind fun _ first taken => ?_
  obtain ⟨stands, toFirst⟩ := taken
  refine (stands.whiteMove asides (toFirst.weight.trans less)).bind fun held second taken => ?_
  obtain ⟨opened, between⟩ := taken
  have toSecond := toFirst.trans between
  obtain ⟨white, owed⟩ := held
  dsimp only
  refine opened.deferral.bind fun owed third taken => ?_
  obtain ⟨answerable, between⟩ := taken
  have toThird := toSecond.andThen between
  refine (answerable.blackMove asides (toThird.weight.trans less)).bind fun black later taken => ?_
  obtain ⟨⟨turn, sides, stands⟩, between⟩ := taken
  rw [sides]
  exact .pure ⟨stands, toThird.andThen between⟩

/-- The turns of a line up to its end. -/
theorem Scene.Stands.allTurns (asides : scene.ReadsAsides variation weight)
    (less : context.weight < weight) (stands : scene.Stands site ⟨turns, .rest⟩ context) :
    Serves scene.result (Descent.turns scene.config variation (endingAt site) [] context)
      fun line later =>
        scene.Stands site ⟨line.reverse ++ turns, .rest⟩ later ∧ context.Reaches later ∧
          later.lexer.token.kind = endingAt site := by
  refine Serves.loop (fun (line : Line) later =>
    scene.Stands site ⟨line.reverse ++ turns, .rest⟩ later ∧ context.Reaches later) ?_
    ⟨stands, .refl context⟩
  intro more line here invariant again
  obtain ⟨stands, reached⟩ := invariant
  rw [token_bind]
  split
  · next ended => exact .pure ⟨stands, reached, ended⟩
  · next onward =>
    refine (stands.turn asides (reached.weight_le.trans_lt less) onward).bind
      fun turn later taken => ?_
    obtain ⟨stands, precedes⟩ := taken
    refine again _ later ⟨?_, (reached.andThen precedes).reaches⟩ precedes
    rw [List.reverse_append]
    exact stands

end Turns

/-! ### Variations -/

section Variations

variable {variation : Descent Line} {weight : Nat} {moves : MovesDraft}

/-- Where the movetext stands that a variation is part of. -/
abbrev Scene.StandsIn (scene : Scene) (moves : MovesDraft) (context : Context) : Prop :=
  Descent.Stands scene.config scene.result (scene.front.draft moves) scene.allocations context

/-- The parentheses that a variation begins with. -/
theorem Scene.StandsIn.openings (stands : scene.StandsIn (within moves .start) context) :
    Serves scene.result (openings 1 context) fun depth later =>
      (0 < depth ∧ scene.StandsIn (within moves ⟨depth, .parens, none, .start⟩) later) ∧
        context.Reaches later ∧ later.lexer.token.kind ≠ .variationBegin := by
  refine Serves.loop (fun depth later =>
    (0 < depth ∧ scene.StandsIn (within moves ⟨depth, .parens, none, .start⟩) later) ∧
      context.Reaches later) ?_ ⟨⟨Nat.one_pos, stands⟩, .refl context⟩
  intro openings depth here invariant again
  obtain ⟨⟨inside, stands⟩, reached⟩ := invariant
  rw [token_bind]
  split
  · next kind =>
    have deeper : (within moves ⟨depth, .parens, none, .start⟩).accept scene.config
        here.lexer.token = .ok (.onward (within moves ⟨depth + 1, .parens, none, .start⟩)) := by
      simp [within, MovesDraft.accept, Branch.accept, kind]
    refine (stands.advance (by simp [kind]) rfl
      (accept_of_moves (by simp [kind]) (by simp [kind]) deeper)).bind fun _ later taken => ?_
    exact again _ later ⟨⟨Nat.succ_pos _, taken.1⟩, (reached.andThen taken.2).reaches⟩ taken.2
  · next other => exact .pure ⟨⟨inside, stands⟩, reached, other⟩

/-- The comments behind the parentheses. -/
theorem Scene.StandsIn.comments {depth : Nat}
    (stands : scene.StandsIn (within moves ⟨depth, .parens, none, .start⟩) context)
    (closed : context.lexer.token.kind ≠ .variationBegin) :
    Serves scene.result (comments scene.config context) fun leading later =>
      scene.StandsIn (within moves ⟨depth, .moves, leading, .start⟩) later ∧
        context.Reaches later := by
  refine ((gathers_within moves depth).comments stands).imp fun leading later read => ?_
  obtain ⟨⟨texts, remarked⟩, other⟩ := read
  obtain ⟨noBrace, noLine⟩ := not_mem_remarking.mp other
  refine ⟨?_, remarked.reaches⟩
  rw [← remarked.added]
  refine remarked.stands.congr rfl (fun _ => rfl) (accept_of_lead noBrace noLine fun parens => ?_)
  have none : texts = [] := by
    by_contra some
    simp [leadOf, some] at parens
  rw [remarked.here none]
  exact closed

/-- The turns in front of a closing parenthesis. -/
theorem Scene.Stands.body (asides : scene.ReadsAsides variation weight)
    (less : context.weight < weight) {depth : Nat} {leading : Option Bytes}
    {mainLine : LineDraft} {outer : List Branch}
    (stands : scene.Stands (.branch depth leading mainLine outer) ⟨turns, .rest⟩ context) :
    Serves scene.result (body scene.config variation context) fun line later =>
      scene.Stands (.branch depth leading mainLine outer) ⟨line.reverse ++ turns, .rest⟩ later ∧
        context.Reaches later ∧ later.lexer.token.kind = .variationEnd := by
  unfold Descent.body
  rw [token_bind]
  split
  · next closing => exact .pure ⟨stands, .refl context, closing⟩
  · unfold Descent.sequence
    rw [if_neg (by simp)]
    exact stands.allTurns asides less

/-- The bodies of a variation up to its last parenthesis. The last closes the variation. -/
theorem Scene.StandsIn.bodies (asides : scene.ReadsAsides variation weight) {depth : Nat}
    {leading : Option Bytes} {line : Line} (inside : 0 < depth) (less : context.weight < weight)
    (stands : scene.StandsIn (within moves ⟨depth, .moves, leading, ⟨line.reverse, .rest⟩⟩)
      context) :
    Serves scene.result (bodies scene.config variation depth line context) fun line later =>
      scene.StandsIn (moves.addVariation scene.config (led leading line)) later ∧
        context.Precedes later := by
  induction depth generalizing line context with
  | zero => exact absurd inside (Nat.lt_irrefl 0)
  | succ depth inductionHypothesis =>
    have stands : scene.Stands (.branch (depth + 1) leading moves.main moves.branches)
      ⟨line.reverse, .rest⟩ context := stands
    unfold Descent.bodies
    refine (stands.body asides less).bind fun more first taken => ?_
    obtain ⟨stands, toFirst, closing⟩ := taken
    rw [← List.reverse_append] at stands
    have settled : Settled scene.config ⟨(line ++ more).reverse, .rest⟩ (line ++ more).reverse :=
      .turn (.rest _)
    have closes {later : MovesDraft} (accepted : Draft.accept scene.config
        (scene.front.draft (Site.moves (.branch (depth + 1) leading moves.main moves.branches)
          ⟨(line ++ more).reverse, .rest⟩)) first.lexer.token =
            .ok (.onward (scene.front.draft later))) :
        Serves scene.result (consume [.variationEnd] first) fun _ behind =>
          scene.StandsIn later behind ∧ first.Precedes behind :=
      Stands.consume_of_mem stands (by simp [closing]) (by simp [closing]) rfl accepted
    cases depth with
    | zero =>
      have last : Draft.accept scene.config (scene.front.draft
          (Site.moves (.branch 1 leading moves.main moves.branches)
            ⟨(line ++ more).reverse, .rest⟩)) first.lexer.token =
          .ok (.onward (scene.front.draft
            (moves.addVariation scene.config (led leading (line ++ more))))) := by
        rw [accept_last_closing settled closing, List.reverse_reverse]
      refine (closes last).bind fun _ behind taken => ?_
      exact .pure ⟨taken.1, toFirst.andThen taken.2⟩
    | succ depth =>
      refine (closes (accept_closing settled closing (Nat.succ_pos depth))).bind
        fun _ behind taken => ?_
      obtain ⟨stands, precedes⟩ := taken
      have toBehind := toFirst.andThen precedes
      refine (inductionHypothesis (Nat.succ_pos depth) (toBehind.weight.trans less)
        stands).imp fun line later read => ?_
      exact ⟨read.1, toBehind.trans read.2⟩

/-- A variation. The variations inside have less to take. -/
theorem Scene.readsAsides (scene : Scene) (weight : Nat) :
    scene.ReadsAsides (Descent.variation scene.config ()) weight := by
  refine fun context _ => recur_induction
    (fun _ context outcome => scene.ReadsAside outcome context) ?_ () context
  intro again _ context inside site turns phase move behind stands kind
  have opened : (scene.front.draft (site.moves ⟨turns, phase move⟩)).accept scene.config
      context.lexer.token =
        .ok (.onward (scene.front.draft (within (site.moves ⟨turns, phase move⟩) .start))) :=
    accept_of_moves (by simp [kind]) (by simp [kind])
      (Site.accept_of_branch (behind.accept_variation kind))
  refine (Stands.consume_of_mem stands (by simp [kind]) (by simp [kind]) rfl opened).bind
    fun _ first taken => ?_
  obtain ⟨stands, toFirst⟩ := taken
  refine (Scene.StandsIn.openings stands).bind fun depth second taken => ?_
  obtain ⟨⟨deep, stands⟩, toSecond, closed⟩ := taken
  refine (stands.comments closed).bind fun leading third taken => ?_
  obtain ⟨stands, toThird⟩ := taken
  have onward := toFirst.andThen (toSecond.trans toThird)
  have asides : scene.ReadsAsides (again ()) context.weight := fun _ less => inside () _ less
  refine (stands.bodies asides deep onward.weight).bind fun line later taken => ?_
  obtain ⟨stands, toLater⟩ := taken
  rw [behind.addVariation] at stands
  cases leading with
  | none =>
    rw [led_none] at stands
    exact .pure ⟨stands, onward.trans toLater⟩
  | some opening =>
    rw [led_some] at stands
    exact .pure ⟨stands, onward.trans toLater⟩

end Variations

end Scoresheet.Descent
