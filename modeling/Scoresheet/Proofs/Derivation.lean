/-
This file shows that whatever is read derives from the grammar. For every state the movetext can be
in, it says which tokens lead there: complete phrases, and the beginning of the phrase that is under
way. One token preserves this, whether it goes on with a line, opens a variation or closes one.
-/

import Scoresheet.Proofs.Recognition

namespace Scoresheet.Grammar

variable {config : Config} {line next : LineDraft} {token : Token} {tokens : List Token}
  {base : List Turn}

/-! ### Lines -/

/-- What derives behind a move that is written as the text, and the draft it leaves. -/
def Followed (config : Config) (text : Bytes) (items : List Token) (move : MoveDraft) : Prop :=
  ∃ marks remarks asides, Derives config (.items marks remarks asides) items ∧
    move = (MoveDraft.start config text).followed config marks remarks asides

section Followed

variable {text : Bytes} {items last : List Token} {move : MoveDraft}

theorem followed_nil (text : Bytes) : Followed config text [] (.start config text) :=
  ⟨[], [], [], .noItems, (MoveDraft.followed_nil _).symm⟩

theorem Followed.nag (followed : Followed config text items move) (kind : token.kind = .nag) :
    Followed config text (items ++ [token]) (move.note config token.text) := by
  obtain ⟨marks, remarks, asides, derives, rfl⟩ := followed
  exact ⟨_, _, _, derives.nag kind, MoveDraft.note_followed ..⟩

theorem Followed.remark {added : Bytes} (followed : Followed config text items move)
    (read : Remark last added) :
    Followed config text (items ++ last) (move.addComment config added) := by
  obtain ⟨marks, remarks, asides, derives, rfl⟩ := followed
  exact ⟨_, _, _, derives.remark read, MoveDraft.addComment_followed ..⟩

theorem Followed.aside {line : Line} (followed : Followed config text items move)
    (read : Derives config (.variation line) last) :
    Followed config text (items ++ last) (move.addVariation config line) := by
  obtain ⟨marks, remarks, asides, derives, rfl⟩ := followed
  exact ⟨_, _, _, derives.aside read, MoveDraft.addVariation_followed ..⟩

/-- With its token the move is complete. -/
theorem Followed.half {side : Side} (kind : token.kind = side.moveKind)
    (followed : Followed config token.text items move) :
    Derives config (.half side.moveKind (move.finish config)) (token :: items) := by
  obtain ⟨marks, remarks, asides, derives, rfl⟩ := followed
  rw [MoveDraft.finish_followed]
  exact .half (by cases side <;> simp [Side.moveKind]) kind derives

end Followed

/-- A turn is complete with the move of black. -/
theorem derives_turn {number : UInt32} {white : Option Move} {black : Move} {told : TokenKind}
    {lead last : List Token} (led : Derives config (.lead number white told) lead)
    (moved : Derives config (.half told black) last) :
    Derives config (.turn (LineDraft.blackTurn number white black)) (lead ++ last) := by
  cases white with
  | none => exact .blackOnly led moved
  | some white => exact .both led moved

/-- A line between parentheses is a variation. -/
theorem derives_variation {opening closing : Token} {body : List Token} {turns : Line}
    (opens : opening.kind = .variationBegin) (inner : Derives config (.sequence turns) body)
    (closes : closing.kind = .variationEnd) :
    Derives config (.variation turns) (opening :: body ++ [closing]) := by
  have bodies : Derives config (.bodies [opening].length turns) (body ++ [closing]) :=
    .moreBodies .noBodies inner closes
  have whole := Derives.variation (List.forall_mem_singleton.mpr opens) (List.cons_ne_nil _ _)
    .none bodies
  rwa [Comment.joined_nil, led_none] at whole

/-- The tokens that were read for a line, in front of which there were turns already. -/
inductive Taken (config : Config) (base : List Turn) : LineDraft → List Token → Prop where
  | rest {turns : Line} {tokens : List Token} (before : Derives config (.turns turns) tokens) :
      Taken config base ⟨turns.reverse ++ base, .rest⟩ tokens
  | numbered {turns : Line} {tokens : List Token} {first : Token}
      (before : Derives config (.turns turns) tokens) (numbered : first.kind = .moveNumber) :
      Taken config base ⟨turns.reverse ++ base, .numbered (number first.text) first.text⟩
        (tokens ++ [first])
  | dotted {turns : Line} {tokens : List Token} {first dot : Token}
      (before : Derives config (.turns turns) tokens) (numbered : first.kind = .moveNumber)
      (dotted : dot.kind = .dot) :
      Taken config base ⟨turns.reverse ++ base, .dotted (number first.text) first.text⟩
        (tokens ++ [first, dot])
  | white {turns : Line} {tokens items : List Token} {first dot token : Token} {move : MoveDraft}
      (before : Derives config (.turns turns) tokens) (numbered : first.kind = .moveNumber)
      (dotted : dot.kind = .dot) (kind : token.kind = Side.white.moveKind)
      (followed : Followed config token.text items move) :
      Taken config base ⟨turns.reverse ++ base, .white (number first.text) first.text move⟩
        (tokens ++ first :: dot :: token :: items)
  | renumbered {turns : Line} {tokens white : List Token} {first dot again : Token} {move : Move}
      {same : Bool} (before : Derives config (.turns turns) tokens)
      (numbered : first.kind = .moveNumber) (dotted : dot.kind = .dot)
      (moved : Derives config (.half .whiteMove move) white) (renumbered : again.kind = .moveNumber)
      (alike : same = true → again.text = first.text) :
      Taken config base ⟨turns.reverse ++ base, .renumbered (number first.text) move same⟩
        (tokens ++ (first :: dot :: white ++ [again]))
  | owed {turns : Line} {tokens lead : List Token} {number : UInt32} {white : Option Move}
      {side : Side} (before : Derives config (.turns turns) tokens)
      (led : Derives config (.lead number white side.moveKind) lead) :
      Taken config base ⟨turns.reverse ++ base, .owed number white side⟩ (tokens ++ lead)
  | black {turns : Line} {tokens lead items : List Token} {number : UInt32} {white : Option Move}
      {side : Side} {token : Token} {move : MoveDraft}
      (before : Derives config (.turns turns) tokens)
      (led : Derives config (.lead number white side.moveKind) lead)
      (kind : token.kind = side.moveKind)
      (followed : Followed config token.text items move) :
      Taken config base ⟨turns.reverse ++ base, .black number white move⟩
        (tokens ++ (lead ++ token :: items))

/-- The tokens of a turn under way do not end the line where it cannot end. -/
theorem taken_of_rest {turns : Line} (before : Derives config (.turns turns) tokens)
    (onward : LineDraft.acceptAtRest config (turns.reverse ++ base) token = .ok (.onward next)) :
    Taken config base next (tokens ++ [token]) := by
  unfold LineDraft.acceptAtRest at onward
  split at onward
  · next kind =>
    split at onward
    · cases onward
    · next value read =>
      split at onward
      · cases onward
      · cases onward
        unfold Bytes.number? at read
        split at read
        · cases read
          rw [ofNat_boundedNumber]
          exact .numbered before kind
        · cases read
  · cases onward

theorem ended_of_rest {turns later : List Turn}
    (ended : LineDraft.acceptAtRest config turns token = .ok (.ended later)) :
    later = turns := by
  unfold LineDraft.acceptAtRest at ended
  repeat' split at ended
  all_goals cases ended
  rfl

/-- An annotation goes on with the move it is written behind. -/
theorem nag_of_bind {move : MoveDraft} {turns : List Turn} {phase : MoveDraft → TurnPhase}
    {step : LineDraft.Step}
    (accepted : (move.annotate config token).bind (fun move =>
      .ok (.onward ⟨turns, phase move⟩)) = Except.ok step) :
    step = .onward ⟨turns, phase (move.note config token.text)⟩ := by
  cases done : move.annotate config token with
  | error error =>
    rw [done] at accepted
    cases accepted
  | ok later =>
    rw [done] at accepted
    cases accepted
    rw [MoveDraft.eq_of_annotate done]

theorem kind_of_rest {turns : List Turn}
    (onward : LineDraft.acceptAtRest config turns token = .ok (.onward next)) :
    token.kind = .moveNumber := by
  unfold LineDraft.acceptAtRest at onward
  split at onward
  · next kind => exact kind
  · cases onward

section Onward

variable {turns : Line} {white lead items : List Token} {first dot again moved : Token}
  {move : MoveDraft} {played : Move} {side : Side} {count : UInt32} {before : Option Move}
  {same : Bool}

/-- Behind a number comes a dot, or more of them if the move of white is left out. -/
theorem taken_of_numbered (derives : Derives config (.turns turns) tokens)
    (numbered : first.kind = .moveNumber)
    (onward : LineDraft.accept config
      ⟨turns.reverse ++ base, .numbered (number first.text) first.text⟩ token =
        .ok (.onward next)) :
    Taken config base next (tokens ++ [first] ++ [token]) := by
  rw [List.append_assoc]
  unfold LineDraft.accept at onward
  dsimp only at onward
  split at onward
  · next kind =>
    cases onward
    exact .dotted derives numbered kind
  · next kind =>
    cases onward
    exact .owed derives (.skipping numbered .absent kind)
  · cases onward

theorem taken_of_dotted (derives : Derives config (.turns turns) tokens)
    (numbered : first.kind = .moveNumber) (dotted : dot.kind = .dot)
    (onward : LineDraft.accept config
      ⟨turns.reverse ++ base, .dotted (number first.text) first.text⟩ token =
        .ok (.onward next)) :
    Taken config base next (tokens ++ [first, dot] ++ [token]) := by
  rw [List.append_assoc]
  unfold LineDraft.accept at onward
  dsimp only at onward
  split at onward
  · next kind =>
    cases onward
    exact .white derives numbered dotted kind (followed_nil _)
  · split at onward
    · next kind =>
      cases onward
      exact .owed derives (.skipping numbered (.present dotted) kind.1)
    · cases onward

/-- Behind the move of white the number may be repeated, the move of black may follow, or the turn
is left without one. -/
theorem taken_of_white (derives : Derives config (.turns turns) tokens)
    (numbered : first.kind = .moveNumber) (dotted : dot.kind = .dot)
    (kind : moved.kind = Side.white.moveKind)
    (followed : Followed config moved.text items move)
    (onward : LineDraft.accept config
      ⟨turns.reverse ++ base, .white (number first.text) first.text move⟩ token =
        .ok (.onward next)) :
    Taken config base next (tokens ++ first :: dot :: moved :: items ++ [token]) := by
  have half := Followed.half kind followed
  unfold LineDraft.accept at onward
  dsimp only at onward
  split at onward
  · next glyph =>
    have grown : Taken config base
        ⟨turns.reverse ++ base, .white (number first.text) first.text _⟩ _ :=
      .white derives numbered dotted kind (followed.nag glyph)
    rw [LineDraft.Step.onward.inj (nag_of_bind onward)]
    simpa only [List.append_assoc, List.cons_append] using grown
  · cases onward
  · next again =>
    split at onward
    · next alike =>
      have grown : Taken config base ⟨turns.reverse ++ base, .renumbered _ _ true⟩ _ :=
        .renumbered derives numbered dotted half again fun _ => alike
      cases onward
      simpa only [List.append_assoc, List.cons_append] using grown
    · split at onward
      · cases onward
      · have grown : Taken config base ⟨turns.reverse ++ base, .renumbered _ _ false⟩ _ :=
          .renumbered derives numbered dotted half again nofun
        cases onward
        simpa only [List.append_assoc, List.cons_append] using grown
  · next black =>
    have answer : token.kind = Side.black.moveKind := black
    have grown : Taken config base ⟨turns.reverse ++ base, .black (number first.text) _ _⟩ _ :=
      .black derives (.direct numbered dotted half) answer (followed_nil _)
    cases onward
    simpa only [List.append_assoc, List.cons_append] using grown
  · next other _ => exact absurd (kind_of_rest onward) other

/-- Behind a repeated number comes an ellipsis, or a dot if the number is the same. -/
theorem taken_of_renumbered (derives : Derives config (.turns turns) tokens)
    (numbered : first.kind = .moveNumber) (dotted : dot.kind = .dot)
    (half : Derives config (.half .whiteMove played) white) (renumbered : again.kind = .moveNumber)
    (alike : same = true → again.text = first.text)
    (onward : LineDraft.accept config
      ⟨turns.reverse ++ base, .renumbered (number first.text) played same⟩ token =
        .ok (.onward next)) :
    Taken config base next (tokens ++ (first :: dot :: white ++ [again]) ++ [token]) := by
  unfold LineDraft.accept at onward
  dsimp only at onward
  split at onward
  · next skipped =>
    have grown : Taken config base ⟨turns.reverse ++ base, .owed (number first.text) _ .black⟩ _ :=
      .owed derives (.deferred numbered dotted half renumbered skipped)
    cases onward
    simpa only [List.append_assoc, List.cons_append, List.nil_append] using grown
  · split at onward
    · next dottedAgain =>
      have grown : Taken config base
          ⟨turns.reverse ++ base, .owed (number first.text) _ .white⟩ _ :=
        .owed derives (.repeated numbered dotted half renumbered (alike dottedAgain.2.1)
          dottedAgain.1)
      cases onward
      simpa only [List.append_assoc, List.cons_append, List.nil_append] using grown
    · cases onward

theorem taken_of_owed (derives : Derives config (.turns turns) tokens)
    (led : Derives config (.lead count before side.moveKind) lead)
    (onward : LineDraft.accept config ⟨turns.reverse ++ base, .owed count before side⟩ token =
      .ok (.onward next)) :
    Taken config base next (tokens ++ lead ++ [token]) := by
  unfold LineDraft.accept at onward
  dsimp only at onward
  split at onward
  · next kind =>
    have grown : Taken config base ⟨turns.reverse ++ base, .black count before _⟩ _ :=
      .black derives led kind (followed_nil _)
    cases onward
    simpa only [List.append_assoc, List.cons_append] using grown
  · cases onward

/-- Behind the move of black the turn is complete. -/
theorem taken_of_black (derives : Derives config (.turns turns) tokens)
    (led : Derives config (.lead count before side.moveKind) lead)
    (kind : moved.kind = side.moveKind)
    (followed : Followed config moved.text items move)
    (onward : LineDraft.accept config ⟨turns.reverse ++ base, .black count before move⟩ token =
      .ok (.onward next)) :
    Taken config base next (tokens ++ (lead ++ moved :: items) ++ [token]) := by
  have turn := derives_turn led (followed.half kind)
  unfold LineDraft.accept at onward
  dsimp only at onward
  split at onward
  · next glyph =>
    have grown : Taken config base ⟨turns.reverse ++ base, .black count before _⟩ _ :=
      .black derives led kind (followed.nag glyph)
    rw [LineDraft.Step.onward.inj (nag_of_bind onward)]
    simpa only [List.append_assoc, List.cons_append] using grown
  · cases onward
  · refine taken_of_rest (.moreTurns derives turn) ?_
    rwa [List.reverse_append, List.reverse_singleton, List.singleton_append, List.cons_append]

end Onward

/-- A token that goes on with a line is read for it. -/
theorem Taken.onward (taken : Taken config base line tokens)
    (onward : line.accept config token = .ok (.onward next)) :
    Taken config base next (tokens ++ [token]) := by
  cases taken with
  | rest before => exact taken_of_rest before onward
  | numbered before numbered => exact taken_of_numbered before numbered onward
  | dotted before numbered dotted => exact taken_of_dotted before numbered dotted onward
  | white before numbered dotted kind followed =>
    exact taken_of_white before numbered dotted kind followed onward
  | renumbered before numbered dotted moved renumbered alike =>
    exact taken_of_renumbered before numbered dotted moved renumbered alike onward
  | owed before led => exact taken_of_owed before led onward
  | black before led kind followed => exact taken_of_black before led kind followed onward

/-- A token that ends a line leaves a complete sequence. -/
theorem Taken.ended {turns : List Turn} (taken : Taken config base line tokens)
    (ended : line.accept config token = .ok (.ended turns)) :
    ∃ whole : Line, turns = whole.reverse ++ base ∧ Derives config (.sequence whole) tokens := by
  cases taken with
  | rest before => exact ⟨_, ended_of_rest ended, .answered before⟩
  | numbered before numbered =>
    unfold LineDraft.accept at ended
    dsimp only at ended
    split at ended <;> cases ended
  | dotted before numbered dotted =>
    unfold LineDraft.accept at ended
    dsimp only at ended
    repeat' split at ended
    all_goals cases ended
  | @white whole tokens items first dot moved move before numbered dotted kind followed =>
    have derived := Derives.unanswered before numbered dotted (followed.half kind)
    unfold LineDraft.accept at ended
    dsimp only at ended
    split at ended
    · cases nag_of_bind ended
    · cases ended
    · repeat' split at ended
      all_goals cases ended
    · cases ended
    · refine ⟨_, ?_, derived⟩
      rw [ended_of_rest ended, List.reverse_append, List.reverse_singleton, List.singleton_append,
        List.cons_append]
  | renumbered before numbered dotted moved renumbered alike =>
    unfold LineDraft.accept at ended
    dsimp only at ended
    repeat' split at ended
    all_goals cases ended
  | owed before led =>
    unfold LineDraft.accept at ended
    dsimp only at ended
    split at ended <;> cases ended
  | @black whole tokens lead items number white side moved move before led kind followed =>
    have derived := Derives.moreTurns before (derives_turn led (followed.half kind))
    unfold LineDraft.accept at ended
    dsimp only at ended
    split at ended
    · cases nag_of_bind ended
    · cases ended
    · refine ⟨_, ?_, .answered derived⟩
      rw [ended_of_rest ended, List.reverse_append, List.reverse_singleton, List.singleton_append,
        List.cons_append]

/-- A token that opens a variation is an opening parenthesis behind a move. -/
theorem behind_of_branch (opens : line.accept config token = .ok .branch) :
    token.kind = .variationBegin ∧
      ∃ turns phase move, Behind phase ∧ line = ⟨turns, phase move⟩ := by
  obtain ⟨turns, phase⟩ := line
  cases phase with
  | rest => exact absurd opens acceptAtRest_ne_branch
  | white number digits move =>
    unfold LineDraft.accept at opens
    dsimp only at opens
    split at opens
    · cases nag_of_bind opens
    · next kind => exact ⟨kind, turns, _, move, .white number digits, rfl⟩
    · repeat' split at opens
      all_goals cases opens
    · cases opens
    · exact absurd opens acceptAtRest_ne_branch
  | black number white move =>
    unfold LineDraft.accept at opens
    dsimp only at opens
    split at opens
    · cases nag_of_bind opens
    · next kind => exact ⟨kind, turns, _, move, .black number white, rfl⟩
    · exact absurd opens acceptAtRest_ne_branch
  | _ =>
    unfold LineDraft.accept at opens
    dsimp only at opens
    repeat' split at opens
    all_goals cases opens

/-- Behind a move a line can take in whatever can follow the move. -/
theorem Taken.grow {turns : List Turn} {phase : MoveDraft → TurnPhase} {move later : MoveDraft}
    {more : List Token} (taken : Taken config base ⟨turns, phase move⟩ tokens)
    (behind : Behind phase)
    (grows : ∀ text items,
      Followed config text items move → Followed config text (items ++ more) later) :
    Taken config base ⟨turns, phase later⟩ (tokens ++ more) ∧ tokens ≠ [] := by
  cases behind with
  | white number digits =>
    cases taken with
    | white before numbered dotted kind followed =>
      refine ⟨?_, by simp⟩
      have grown : Taken config base ⟨_, .white _ _ later⟩ _ :=
        .white before numbered dotted kind (grows _ _ followed)
      simpa only [List.append_assoc, List.cons_append] using grown
  | black number white =>
    cases taken with
    | black before led kind followed =>
      refine ⟨?_, by simp⟩
      have grown : Taken config base ⟨_, .black number white later⟩ _ :=
        .black before led kind (grows _ _ followed)
      simpa only [List.append_assoc, List.cons_append] using grown

/-! ### Open variations -/

/-- The tokens that were read for an open variation: its parentheses, its comments, the sequences
that are closed, and the line under way. -/
structure Opened (config : Config) (branch : Branch) (opening leading bodies current : List Token) :
    Prop where
  opens : ∀ token ∈ opening, token.kind = .variationBegin
  depth : 0 < branch.depth
  inner : ∃ texts count line, Many Remark leading texts ∧
    branch.leading = Comment.joined config texts ∧
    Derives config (.bodies count line) bodies ∧ opening.length = branch.depth + count ∧
    Taken config line.reverse branch.line current
  /-- Behind parentheses or comments only, there is nothing else. -/
  fresh : branch.lead ≠ .moves → bodies = [] ∧ current = [] ∧ branch.line = .start
  bare : branch.lead = .parens → leading = []

variable {branch later : Branch} {opening leading bodies current : List Token}

theorem opened_start (kind : token.kind = .variationBegin) :
    Opened config .start [token] [] [] [] where
  opens := fun other member => by rwa [List.mem_singleton.mp member]
  depth := Nat.one_pos
  inner := ⟨[], 0, [], .none, Comment.joined_nil.symm, .noBodies, rfl,
    .rest (@Derives.noTurns config)⟩
  fresh := fun _ => ⟨rfl, rfl, rfl⟩
  bare := fun _ => rfl

/-- The tokens of an open variation, all in all. -/
def BranchTaken (config : Config) (branch : Branch) (tokens : List Token) : Prop :=
  ∃ opening leading bodies current, tokens = opening ++ leading ++ bodies ++ current ∧
    Opened config branch opening leading bodies current

/-- A token that goes on with a variation is read for it. -/
theorem BranchTaken.onward (taken : BranchTaken config branch tokens)
    (onward : branch.accept config token = .ok (.onward later)) :
    BranchTaken config later (tokens ++ [token]) := by
  obtain ⟨opening, leading, bodies, current, rfl, opens, depth, inner, fresh, bare⟩ := taken
  obtain ⟨texts, count, line, comments, lead, closed, length, running⟩ := inner
  unfold Branch.accept at onward
  split at onward
  · next paren =>
    obtain ⟨rfl, rfl, _⟩ := fresh (by simp [paren.1])
    obtain rfl := bare paren.1
    cases onward
    refine ⟨opening ++ [token], [], [], [], by simp, ?_, Nat.succ_pos _, ?_, fresh, bare⟩
    · intro other member
      rcases List.mem_append.mp member with early | last
      · exact opens other early
      · rw [List.mem_singleton.mp last]
        exact paren.2
    · refine ⟨texts, count, line, comments, lead, closed, ?_, running⟩
      rw [List.length_append, length, List.length_singleton]
      exact Nat.add_right_comm _ _ _
  · split at onward
    · cases onward
    · next accepted =>
      cases onward
      exact ⟨opening, leading, bodies, current ++ [token], by simp, opens, depth,
        ⟨texts, count, line, comments, lead, closed, length, running.onward accepted⟩,
        fun early => absurd rfl early, fun early => by cases early⟩
    · cases onward
    · next turns accepted =>
      obtain ⟨whole, rfl, derived⟩ := running.ended accepted
      split at onward
      · next kind =>
        split at onward
        · cases onward
        · next deep =>
          cases onward
          refine ⟨opening, leading, bodies ++ current ++ [token], [], by simp, opens,
            Nat.sub_pos_of_lt (Nat.lt_of_not_le deep),
            ⟨texts, count + 1, line ++ whole, comments, lead, .moreBodies closed derived kind,
              ?_, ?_⟩, fun early => absurd rfl early, fun early => by cases early⟩
          · rw [length]
            show branch.depth + count = branch.depth - 1 + (count + 1)
            omega
          · rw [List.reverse_append]
            exact .rest (@Derives.noTurns config)
      · cases onward

/-- A token that closes a variation completes it. -/
theorem BranchTaken.closed {line : Line} (taken : BranchTaken config branch tokens)
    (closes : branch.accept config token = .ok (.closed line)) :
    Derives config (.variation line) (tokens ++ [token]) := by
  obtain ⟨opening, leading, bodies, current, rfl, opens, depth, inner, _, _⟩ := taken
  obtain ⟨texts, count, turnsBefore, comments, lead, closed, length, running⟩ := inner
  unfold Branch.accept at closes
  split at closes
  · cases closes
  · split at closes
    · cases closes
    · cases closes
    · cases closes
    · next turns accepted =>
      obtain ⟨whole, rfl, derived⟩ := running.ended accepted
      split at closes
      · next kind =>
        split at closes
        · next last =>
          cases closes
          have whole : branch.finish (whole.reverse ++ turnsBefore.reverse) =
              led (Comment.joined config texts) (turnsBefore ++ whole) := by
            rw [finish_eq_led, lead, ← List.reverse_append, List.reverse_reverse]
          have one : opening.length = count + 1 := by omega
          rw [whole, List.append_assoc, List.append_assoc, ← List.append_assoc bodies]
          refine .variation opens (fun none => ?_) comments ?_
          · rw [none] at one
            cases one
          · rw [one]
            exact .moreBodies closed derived kind
        · cases closes
      · cases closes

/-- A parenthesis that opens a variation of the last move. -/
theorem behind_of_branch_branch (opens : branch.accept config token = .ok .branch) :
    token.kind = .variationBegin ∧
      ∃ turns phase move, Behind phase ∧ branch.line = ⟨turns, phase move⟩ := by
  unfold Branch.accept at opens
  split at opens
  · cases opens
  · split at opens
    · cases opens
    · cases opens
    · next accepted => exact behind_of_branch accepted
    · repeat' split at opens
      all_goals cases opens

/-! ### The movetext -/

/-- The line of the innermost open variation, or the main line. -/
def top : MovesDraft → LineDraft
  | ⟨main, []⟩ => main
  | ⟨_, branch :: _⟩ => branch.line

/-- The movetext with a change to the move that was read last. -/
def mapTop (change : MoveDraft → MoveDraft) : MovesDraft → MovesDraft
  | ⟨main, []⟩ => ⟨main.mapMove change, []⟩
  | ⟨main, branch :: outer⟩ => ⟨main, { branch with line := branch.line.mapMove change } :: outer⟩

/-- The tokens that were read for a movetext: each open variation stands behind a move. -/
inductive MovesTaken (config : Config) : MovesDraft → List Token → Prop where
  | main {line : LineDraft} {tokens : List Token} (taken : Taken config [] line tokens) :
      MovesTaken config ⟨line, []⟩ tokens
  | branch {main : LineDraft} {outer : List Branch} {branch : Branch} {tokens inner : List Token}
      {turns : List Turn} {phase : MoveDraft → TurnPhase} {move : MoveDraft}
      (before : MovesTaken config ⟨main, outer⟩ tokens) (behind : Behind phase)
      (shown : top ⟨main, outer⟩ = ⟨turns, phase move⟩)
      (taken : BranchTaken config branch inner) :
      MovesTaken config ⟨main, branch :: outer⟩ (tokens ++ inner)

variable {moves nextMoves : MovesDraft}

theorem Behind.mapMove {phase : MoveDraft → TurnPhase} (behind : Behind phase)
    (change : MoveDraft → MoveDraft) (turns : List Turn) (move : MoveDraft) :
    LineDraft.mapMove change ⟨turns, phase move⟩ = ⟨turns, phase (change move)⟩ := by
  cases behind <;> rfl

/-- Behind a move the movetext can take in whatever can follow the move. -/
theorem MovesTaken.grow {turns : List Turn} {phase : MoveDraft → TurnPhase} {move : MoveDraft}
    {more : List Token} {change : MoveDraft → MoveDraft} (taken : MovesTaken config moves tokens)
    (behind : Behind phase) (shown : top moves = ⟨turns, phase move⟩)
    (grows : ∀ text items, Followed config text items move →
      Followed config text (items ++ more) (change move)) :
    MovesTaken config (mapTop change moves) (tokens ++ more) := by
  cases taken with
  | @main line _ taken =>
    obtain rfl : line = ⟨turns, phase move⟩ := shown
    show MovesTaken config ⟨LineDraft.mapMove change ⟨turns, phase move⟩, []⟩ (tokens ++ more)
    rw [behind.mapMove]
    exact .main (taken.grow behind grows).1
  | @branch main outer branch before inner _ _ _ beforeTaken behindOuter shownOuter taken =>
    obtain ⟨opening, leading, bodies, current, rfl, opens, depth, inside, fresh, bare⟩ := taken
    obtain ⟨texts, count, line, comments, lead, closed, length, running⟩ := inside
    rw [show branch.line = ⟨turns, phase move⟩ from shown] at running
    obtain ⟨grown, some⟩ := running.grow behind grows
    have moving : branch.lead = .moves := by
      by_cases moving : branch.lead = .moves
      · exact moving
      · exact absurd (fresh moving).2.1 some
    rw [List.append_assoc]
    refine .branch beforeTaken behindOuter shownOuter
      ⟨opening, leading, bodies, current ++ more, by simp, opens, depth, ?_, ?_, ?_⟩
    · refine ⟨texts, count, line, comments, lead, closed, length, ?_⟩
      show Taken config line.reverse (branch.line.mapMove change) (current ++ more)
      rw [show branch.line = ⟨turns, phase move⟩ from shown, behind.mapMove]
      exact grown
    · exact fun early => absurd moving early
    · intro early
      rw [show branch.lead = .parens from early] at moving
      cases moving

theorem addVariation_eq_mapTop (line : Line) (moves : MovesDraft) :
    moves.addVariation config line = mapTop (·.addVariation config line) moves := by
  obtain ⟨main, branches⟩ := moves
  cases branches <;> rfl

/-- A token that goes on with the movetext is read for it. -/
theorem MovesTaken.onward (taken : MovesTaken config moves tokens)
    (onward : moves.accept config token = .ok (.onward nextMoves)) :
    MovesTaken config nextMoves (tokens ++ [token]) := by
  have pushed {main : LineDraft} {outer : List Branch} {tokens : List Token}
      (taken : MovesTaken config ⟨main, outer⟩ tokens) (kind : token.kind = .variationBegin)
      (behind : ∃ turns phase move, Behind phase ∧ top ⟨main, outer⟩ = ⟨turns, phase move⟩) :
      MovesTaken config ⟨main, .start :: outer⟩ (tokens ++ [token]) := by
    obtain ⟨turns, phase, move, behind, shown⟩ := behind
    exact .branch taken behind shown ⟨[token], [], [], [], rfl, opened_start kind⟩
  unfold MovesDraft.accept at onward
  cases taken with
  | main taken =>
    dsimp only at onward
    split at onward
    · cases onward
    · next accepted =>
      cases onward
      exact .main (taken.onward accepted)
    · next accepted =>
      cases onward
      obtain ⟨kind, behind⟩ := behind_of_branch accepted
      exact pushed (.main taken) kind behind
    · split at onward <;> cases onward
  | @branch main outer branch before inner _ _ _ beforeTaken behind shown taken =>
    dsimp only at onward
    split at onward
    · cases onward
    · next accepted =>
      cases onward
      rw [List.append_assoc]
      exact .branch beforeTaken behind shown (taken.onward accepted)
    · next accepted =>
      cases onward
      obtain ⟨kind, behindInner⟩ := behind_of_branch_branch accepted
      exact pushed (.branch beforeTaken behind shown taken) kind behindInner
    · next line accepted =>
      cases onward
      rw [List.append_assoc, addVariation_eq_mapTop]
      exact beforeTaken.grow behind shown fun text items before =>
        .aside before (taken.closed accepted)

/-- A token that ends the movetext is a marker behind a complete sequence. -/
theorem MovesTaken.ended {line : Line} (taken : MovesTaken config moves tokens)
    (ended : moves.accept config token = .ok (.ended line)) :
    token.kind = .termination ∧ Derives config (.sequence line) tokens := by
  unfold MovesDraft.accept at ended
  cases taken with
  | main taken =>
    dsimp only at ended
    split at ended
    · cases ended
    · cases ended
    · cases ended
    · next turns accepted =>
      obtain ⟨whole, rfl, derived⟩ := taken.ended accepted
      split at ended
      · next kind =>
        cases ended
        rw [List.append_nil, List.reverse_reverse]
        exact ⟨kind, derived⟩
      · cases ended
  | branch beforeTaken behind shown taken =>
    dsimp only at ended
    split at ended <;> cases ended

/-! ### Comments in the movetext -/

theorem behind_of_isBehindMove (shown : line.isBehindMove = true) :
    ∃ turns phase move, Behind phase ∧ line = ⟨turns, phase move⟩ := by
  obtain ⟨turns, phase⟩ := line
  cases phase with
  | white number digits move => exact ⟨turns, _, move, .white number digits, rfl⟩
  | black number white move => exact ⟨turns, _, move, .black number white, rfl⟩
  | _ => cases shown

/-- A comment in front of the first move of a variation. -/
theorem BranchTaken.remark {remark : List Token} {text : Bytes}
    (taken : BranchTaken config branch tokens) (early : branch.lead ≠ .moves)
    (read : Remark remark text) :
    BranchTaken config (branch.addComment config text) (tokens ++ remark) := by
  obtain ⟨opening, leading, bodies, current, rfl, opens, depth, inner, fresh, bare⟩ := taken
  obtain ⟨texts, count, line, comments, lead, closed, length, running⟩ := inner
  obtain ⟨rfl, rfl, start⟩ := fresh early
  have added : branch.addComment config text = { branch with
      lead := .comments, leading := Comment.add config branch.leading text } := by
    unfold Branch.addComment
    split
    · next moving => exact absurd moving early
    · rfl
  rw [added]
  refine ⟨opening, leading ++ remark, [], [], by simp, opens, depth, ?_,
    fun _ => ⟨rfl, rfl, start⟩, fun parens => by cases parens⟩
  refine ⟨texts ++ [text], count, line, .more comments read, ?_, closed, length, running⟩
  show Comment.add config branch.leading text = _
  rw [lead, Comment.add_joined]

/-- Where the movetext takes comments, one is read for it. -/
theorem MovesTaken.remark {remark : List Token} {text : Bytes}
    (taken : MovesTaken config moves tokens) (takes : moves.takesComments = true)
    (read : Remark remark text) :
    MovesTaken config (moves.addComment config text) (tokens ++ remark) := by
  obtain ⟨main, branches⟩ := moves
  have behind (line : LineDraft) (same : top ⟨main, branches⟩ = line)
      (shown : line.isBehindMove = true) :
      MovesTaken config (mapTop (·.addComment config text) ⟨main, branches⟩)
        (tokens ++ remark) := by
    obtain ⟨turns, phase, move, behind, rfl⟩ := behind_of_isBehindMove shown
    exact taken.grow behind same fun text items before => before.remark read
  cases branches with
  | nil => exact behind main rfl takes
  | cons branch outer =>
    by_cases moving : branch.lead = .moves
    · have shown : branch.line.isBehindMove = true := by
        simpa [MovesDraft.takesComments, Branch.takesComments, moving] using takes
      have added : MovesDraft.addComment config text ⟨main, branch :: outer⟩ =
          mapTop (·.addComment config text) ⟨main, branch :: outer⟩ := by
        simp [MovesDraft.addComment, Branch.addComment, mapTop, moving]
      rw [added]
      exact behind branch.line rfl shown
    · cases taken with
      | branch beforeTaken behindOuter shownOuter taken =>
        rw [List.append_assoc]
        exact .branch beforeTaken behindOuter shownOuter (taken.remark moving read)

end Scoresheet.Grammar
