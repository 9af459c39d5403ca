/-
This file shows that a reader parses the grammar of games, and nothing else. What stands in front of
the movetext is read as comments and header pairs; then the movetext decides.
-/

import Scoresheet.Cache.PairHash
import Scoresheet.Proofs.Derivation
import Scoresheet.Proofs.Segments

namespace Scoresheet.Grammar

variable {config : Config} {front : Front} {draft : Draft} {token : Token} {tokens : List Token}

/-! ### In front of the movetext -/

/-- The stages in front of the movetext, outside header pairs. -/
inductive InFront : Stage → Prop where
  | start : InFront .start
  | preface : InFront .preface
  | header : InFront (.header .complete)
  | opening : InFront .opening

/-- Where a header section can begin or go on. -/
inductive Headable : Draft → Prop where
  | start (comment : Option Bytes) : Headable ⟨none, comment, .idle, .start⟩
  | preface (comment : Option Bytes) : Headable ⟨none, comment, .idle, .preface⟩
  | complete (headers : Option (List HeaderPair)) (comment : Option Bytes) :
      Headable ⟨headers, comment, .idle, .header .complete⟩

theorem judge_comments {texts : List Bytes} (comments : Many Remark tokens texts)
    (headers : Option (List HeaderPair)) (comment : Option Bytes) {stage : Stage}
    (inFront : InFront stage) :
    ∃ later, InFront later ∧ ((stage = .start ∨ stage = .preface) →
        later = .start ∨ later = .preface) ∧
      Draft.judge config ⟨headers, comment, .idle, stage⟩ tokens =
        .unfinished ⟨headers, texts.foldl (Comment.add config) comment, .idle, later⟩ := by
  induction comments with
  | none => exact ⟨stage, inFront, id, rfl⟩
  | @more tokens last texts text before next inductionHypothesis =>
    obtain ⟨middle, inFrontMiddle, early, read⟩ := inductionHypothesis
    rw [Draft.judge_append_of_unfinished read, List.foldl_append]
    have takes : Draft.takesComments
        ⟨headers, texts.foldl (Comment.add config) comment, .idle, middle⟩ = true := by
      cases inFrontMiddle <;> rfl
    rw [judge_remark next rfl takes]
    cases inFrontMiddle with
    | start => exact ⟨.preface, .preface, fun _ => .inr rfl, rfl⟩
    | preface => exact ⟨.preface, .preface, fun _ => .inr rfl, rfl⟩
    | header => exact ⟨.opening, .opening, fun start => by simpa using early start, rfl⟩
    | opening => exact ⟨.opening, .opening, fun start => by simpa using early start, rfl⟩

/-- A token inside a header pair. -/
theorem accept_inside {phase next : HeaderPhase} {headers : Option (List HeaderPair)}
    {comment : Option Bytes} (inside : phase ≠ .complete)
    (accepted : phase.accept config token = .ok next) :
    Draft.accept config ⟨headers, comment, .idle, .header phase⟩ token =
      .ok (.onward ⟨some ((phase.recorded? token).toList ++ headers.getD []), comment, .idle,
        .header next⟩) := by
  simp [Draft.accept, Draft.takesComments, inside, Draft.acceptStage, Draft.acceptHeader, accepted]

/-- The bracket that opens a header pair. -/
theorem Headable.accept_bracket (kept : config.skip.headers = false) (headable : Headable draft)
    (kind : token.kind = .headerBegin) :
    draft.accept config token =
      .ok (.onward ⟨some (draft.headers.getD []), draft.comment, .idle, .header .begun⟩) := by
  cases headable with
  | start comment =>
    simp [Draft.accept, Draft.acceptStage, Draft.acceptPreface, Draft.gameStart, kind, kept]
  | preface comment =>
    simp [Draft.accept, Draft.acceptStage, Draft.acceptPreface, kind, kept]
  | complete headers comment =>
    simp [Draft.accept, Draft.acceptStage, Draft.acceptHeader, HeaderPhase.accept,
      HeaderPhase.recorded?, kind]

/-- The value of a header pair, from behind its opening quote. -/
theorem judge_value {name text : Bytes} {headers : List HeaderPair} {comment : Option Bytes}
    {value : List Token} {endQuote endBracket : Token} (valued : Optional .value value text)
    (closes : endQuote.kind = .valueEnd) (ends : endBracket.kind = .headerEnd) :
    Draft.judge config ⟨some headers, comment, .idle, .header (.opened name)⟩
        (value ++ [endQuote, endBracket]) =
      .unfinished ⟨some (⟨name, text⟩ :: headers), comment, .idle, .header .complete⟩ := by
  cases valued with
  | absent =>
    have emptied : HeaderPhase.accept config (.opened name) endQuote = .ok (.emptied name) := by
      simp [HeaderPhase.accept, closes]
    have complete : HeaderPhase.accept config (.emptied name) endBracket = .ok .complete := by
      simp [HeaderPhase.accept, ends]
    rw [List.nil_append, Draft.judge_cons_of_onward (accept_inside (by simp) emptied),
      Draft.judge_cons_of_onward (accept_inside (by simp) complete)]
    simp [HeaderPhase.recorded?, closes, Draft.judge]
  | @present token same =>
    have valued : HeaderPhase.accept config (.opened name) token = .ok .valued := by
      simp [HeaderPhase.accept, same]
    have closed : HeaderPhase.accept config .valued endQuote = .ok .closed := by
      simp [HeaderPhase.accept, closes]
    have complete : HeaderPhase.accept config .closed endBracket = .ok .complete := by
      simp [HeaderPhase.accept, ends]
    rw [List.singleton_append, Draft.judge_cons_of_onward (accept_inside (by simp) valued),
      Draft.judge_cons_of_onward (accept_inside (by simp) closed),
      Draft.judge_cons_of_onward (accept_inside (by simp) complete)]
    simp [HeaderPhase.recorded?, same, Draft.judge]

/-- A header pair with blanks behind its name. -/
def Spaced (tokens : List Token) (pair : HeaderPair) : Prop :=
  Header tokens pair ∧ ∃ token ∈ tokens, token.kind = .separator

/-- A header pair that the settings allow for: unless they are strict the blanks may be missing. -/
def Allowed (config : Config) (tokens : List Token) (pair : HeaderPair) : Prop :=
  Header tokens pair ∧ (config.strict = true → ∃ token ∈ tokens, token.kind = .separator)

theorem judge_header (kept : config.skip.headers = false) {pair : HeaderPair}
    (allowed : Allowed config tokens pair) (headable : Headable draft) :
    draft.judge config tokens =
      .unfinished ⟨some (pair :: draft.headers.getD []), draft.comment, .idle,
        .header .complete⟩ := by
  obtain ⟨⟨begins, named, separated, opens, valued, closes, ends⟩, spaced⟩ := allowed
  rename_i bracket name quote endQuote endBracket separator value blanks text
  have nameRead : HeaderPhase.accept config .begun name = .ok (.named name.text) := by
    simp [HeaderPhase.accept, named]
  rw [List.append_assoc, List.cons_append, List.cons_append,
    Draft.judge_cons_of_onward (headable.accept_bracket kept begins),
    Draft.judge_cons_of_onward (accept_inside (by simp) nameRead)]
  cases separated with
  | absent =>
    have tolerant : config.strict = false := by
      refine Bool.eq_false_iff.mpr fun strict => ?_
      cases valued <;> simp_all
    have opened : HeaderPhase.accept config (.named name.text) quote =
        .ok (.opened name.text) := by
      simp [HeaderPhase.accept, opens, tolerant]
    rw [List.nil_append, List.cons_append,
      Draft.judge_cons_of_onward (accept_inside (by simp) opened)]
    exact judge_value valued closes ends
  | @present blank same =>
    have separated : HeaderPhase.accept config (.named name.text) blank =
        .ok (.separated name.text) := by
      simp [HeaderPhase.accept, same]
    have opened : HeaderPhase.accept config (.separated name.text) quote =
        .ok (.opened name.text) := by
      simp [HeaderPhase.accept, opens]
    rw [List.singleton_append, List.cons_append,
      Draft.judge_cons_of_onward (accept_inside (by simp) separated),
      Draft.judge_cons_of_onward (accept_inside (by simp) opened)]
    exact judge_value valued closes ends

theorem map_reverse_kept (pairs : List HeaderPair) :
    (kept pairs.reverse).map List.reverse = kept pairs := by
  unfold kept
  by_cases none : pairs = []
  · simp [none]
  · simp [none]

theorem Many.imp {Value : Type} {phrase other : List Token → Value → Prop} {values : List Value}
    (many : Many phrase tokens values)
    (implies : ∀ tokens value, phrase tokens value → other tokens value) :
    Many other tokens values := by
  induction many with
  | none => exact .none
  | more before next inductionHypothesis => exact .more inductionHypothesis (implies _ _ next)

/-- A header section, of any number of pairs. -/
theorem judge_headers (keeps : config.skip.headers = false) {pairs : List HeaderPair}
    (headers : Many (Allowed config) tokens pairs) {comment : Option Bytes} {stage : Stage}
    (early : stage = .start ∨ stage = .preface) :
    ∃ later, InFront later ∧ Headable ⟨kept pairs.reverse, comment, .idle, later⟩ ∧
      Draft.judge config ⟨none, comment, .idle, stage⟩ tokens =
        .unfinished ⟨kept pairs.reverse, comment, .idle, later⟩ := by
  induction headers with
  | none =>
    rcases early with rfl | rfl
    · exact ⟨.start, .start, .start comment, rfl⟩
    · exact ⟨.preface, .preface, .preface comment, rfl⟩
  | @more tokens last pairs pair before next inductionHypothesis =>
    obtain ⟨middle, _, headable, read⟩ := inductionHypothesis
    have grown : some (pair :: (kept pairs.reverse).getD []) = kept (pairs ++ [pair]).reverse := by
      unfold kept
      by_cases none : pairs = []
      · simp [none]
      · simp [none]
    rw [Draft.judge_append_of_unfinished read, judge_header keeps next headable, grown]
    exact ⟨.header .complete, .header, .complete _ comment, rfl⟩

/-- The token that begins the movetext is read as a movetext begins, whatever was in front of it. -/
theorem accept_of_inFront (plays : config.skip.moves = false) {headers : Option (List HeaderPair)}
    {comment : Option Bytes} {stage : Stage} (inFront : InFront stage ∨ stage = .headersLeftOut)
    (kind : token.kind = .moveNumber ∨ token.kind = .termination) :
    Draft.accept config ⟨headers, comment, .idle, stage⟩ token =
      (Front.draft ⟨headers, comment⟩ .start).accept config token := by
  have noBrace : token.kind ≠ .commentBegin := by rcases kind with kind | kind <;> simp [kind]
  have noLine : token.kind ≠ .lineComment := by rcases kind with kind | kind <;> simp [kind]
  have noHeader : token.kind ≠ .headerBegin := by rcases kind with kind | kind <;> simp [kind]
  have fits : token.kind ∈ Draft.gameStart := by
    rcases kind with kind | kind <;> simp [kind, Draft.gameStart]
  have same (stage : Stage) :
      Draft.acceptMoves config ⟨headers, comment, .idle, stage⟩ .start token =
        (Front.draft ⟨headers, comment⟩ .start).acceptMoves config .start token := by
    unfold Draft.acceptMoves
    split <;> rfl
  rw [accept_of_idle rfl noBrace noLine, accept_of_idle rfl noBrace noLine]
  have noSection : token.kind.isHeader = false := by
    rcases kind with kind | kind <;> simp [kind, TokenKind.isHeader]
  refine Eq.trans ?_ (same stage)
  rcases inFront with inFront | rfl
  · cases inFront <;>
      simp [Draft.acceptStage, Draft.acceptPreface, Draft.acceptOpening, fits, noHeader, plays]
  · simp [Draft.acceptStage, Draft.acceptOpening, noSection, plays]

/-- The marker that ends the main line. -/
theorem judge_marker {line : LineDraft} {turns : List Turn} {marker : Token} {outcome : Outcome}
    (settled : Settled config line turns) (ended : marker.kind = .termination)
    (named : outcome.marker = marker.text) :
    (front.draft (Site.main.moves line)).judge config [marker] =
      .finished ⟨front.headers.map List.reverse, front.comment, turns.reverse, outcome⟩ := by
  refine Draft.judge_cons_of_finished ?_
  rw [accept_of_idle rfl (by simp [ended]) (by simp [ended])]
  simp [Front.draft, Draft.acceptStage, Draft.acceptMoves, Site.moves, MovesDraft.accept,
    settled.accept_end (.inl ended), ended, Draft.finish, ← named, Outcome.ofMarker?_marker]

/-- What derives from the grammar of games is read as the game it stands for. -/
theorem judge_of_played (lenient : config.IsLenient) {game : Game}
    (played : Played config tokens game) (written : Written tokens) :
    Draft.start.judge config tokens = .finished game := by
  obtain ⟨before, sectioned, behind, moved, ended, named⟩ := played
  rename_i first headers second moves marker texts more pairs line outcome
  obtain ⟨early, _, isEarly, readFirst⟩ := @judge_comments config _ _ before none none _ .start
  obtain ⟨middle, inFront, _, readHeaders⟩ := @judge_headers config _ lenient.headers _
    (sectioned.imp fun _ _ header =>
      ⟨header, fun strict => by rw [lenient.strict] at strict; cases strict⟩)
    (texts.foldl (Comment.add config) none) early (isEarly (.inl rfl))
  obtain ⟨late, inFrontLate, _, readSecond⟩ := @judge_comments config _ _ behind
    (kept pairs.reverse) (texts.foldl (Comment.add config) none) _ inFront
  rw [← List.foldl_append, Comment.joined_eq config (texts ++ more)] at readSecond
  obtain ⟨final, settled, readMoves⟩ := runs_of_derives lenient moved written.left.right
    ⟨kept pairs.reverse, Comment.joined config (texts ++ more)⟩ .main .start [] (.rest [])
  have begins : Numbered (moves ++ [marker]) ∨ moves = [] := by
    rcases begins_of_derives moved with none | numbered
    · exact .inr none
    · exact .inl (numbered.append _)
  have enters : Draft.judge config
      ⟨kept pairs.reverse, Comment.joined config (texts ++ more), .idle, late⟩ (moves ++ [marker]) =
        (Front.draft ⟨kept pairs.reverse, Comment.joined config (texts ++ more)⟩
          (Site.main.moves .start)).judge config (moves ++ [marker]) := by
    rcases begins with ⟨first, rest, shown, kind⟩ | rfl
    · rw [shown, Draft.judge, Draft.judge, accept_of_inFront lenient.moves (.inl inFrontLate) (.inl kind)]
      rfl
    · rw [List.nil_append, Draft.judge, Draft.judge,
        accept_of_inFront lenient.moves (.inl inFrontLate) (.inr ended)]
      rfl
  rw [List.append_assoc, List.append_assoc, List.append_assoc,
    show Draft.start = ⟨none, none, .idle, .start⟩ from rfl,
    Draft.judge_append_of_unfinished readFirst, Draft.judge_append_of_unfinished readHeaders,
    Draft.judge_append_of_unfinished readSecond]
  refine enters.trans ?_
  rw [Draft.judge_append_of_unfinished readMoves, judge_marker settled ended named,
    List.append_nil, List.reverse_reverse, map_reverse_kept]

/-! ### What was read of a header pair -/

/-- The tokens that were read for a header pair under way, and the pair once it is known. -/
inductive PairTaken : HeaderPhase → List HeaderPair → List Token → Prop where
  | begun {bracket : Token} (begins : bracket.kind = .headerBegin) : PairTaken .begun [] [bracket]
  | named {bracket name : Token} (begins : bracket.kind = .headerBegin)
      (named : name.kind = .headerName) : PairTaken (.named name.text) [] [bracket, name]
  | separated {bracket name blank : Token} (begins : bracket.kind = .headerBegin)
      (named : name.kind = .headerName) (separated : blank.kind = .separator) :
      PairTaken (.separated name.text) [] [bracket, name, blank]
  | opened {bracket name quote : Token} {separator : List Token} {blanks : Bytes}
      (begins : bracket.kind = .headerBegin) (named : name.kind = .headerName)
      (separated : Optional .separator separator blanks) (opens : quote.kind = .valueBegin) :
      PairTaken (.opened name.text) [] (bracket :: name :: separator ++ [quote])
  | valued {bracket name quote value : Token} {separator : List Token} {blanks : Bytes}
      (begins : bracket.kind = .headerBegin) (named : name.kind = .headerName)
      (separated : Optional .separator separator blanks) (opens : quote.kind = .valueBegin)
      (valued : value.kind = .value) :
      PairTaken .valued [⟨name.text, value.text⟩]
        (bracket :: name :: separator ++ [quote, value])
  | emptied {bracket name quote endQuote : Token} {separator : List Token} {blanks : Bytes}
      (begins : bracket.kind = .headerBegin) (named : name.kind = .headerName)
      (separated : Optional .separator separator blanks) (opens : quote.kind = .valueBegin)
      (closes : endQuote.kind = .valueEnd) :
      PairTaken (.emptied name.text) [] (bracket :: name :: separator ++ [quote, endQuote])
  | closed {bracket name quote value endQuote : Token} {separator : List Token} {blanks : Bytes}
      (begins : bracket.kind = .headerBegin) (named : name.kind = .headerName)
      (separated : Optional .separator separator blanks) (opens : quote.kind = .valueBegin)
      (valued : value.kind = .value) (closes : endQuote.kind = .valueEnd) :
      PairTaken .closed [⟨name.text, value.text⟩]
        (bracket :: name :: separator ++ [quote, value, endQuote])

/-- A token inside a header pair is read for it, and the last one completes it. -/
theorem PairTaken.step {phase next : HeaderPhase} {known : List HeaderPair}
    (taken : PairTaken phase known tokens) (accepted : phase.accept config token = .ok next) :
    PairTaken next ((phase.recorded? token).toList ++ known) (tokens ++ [token]) ∨
      next = .complete ∧ ∃ pair, (phase.recorded? token).toList ++ known = [pair] ∧
        Header (tokens ++ [token]) pair := by
  cases taken with
  | begun begins =>
    cases kind : token.kind <;> simp [HeaderPhase.accept, kind] at accepted
    subst accepted
    exact .inl (.named begins kind)
  | named begins named =>
    cases kind : token.kind <;> simp [HeaderPhase.accept, kind] at accepted
    · subst accepted
      exact .inl (.separated begins named kind)
    · split at accepted
      · cases accepted
      · cases accepted
        exact .inl (.opened begins named .absent kind)
  | separated begins named separated =>
    cases kind : token.kind <;> simp [HeaderPhase.accept, kind] at accepted
    subst accepted
    exact .inl (.opened begins named (.present separated) kind)
  | opened begins named separated opens =>
    cases kind : token.kind <;> simp [HeaderPhase.accept, kind] at accepted
    · subst accepted
      have grown := PairTaken.valued begins named separated opens kind
      exact .inl (by simpa [HeaderPhase.recorded?, kind] using grown)
    · subst accepted
      have grown := PairTaken.emptied begins named separated opens kind
      exact .inl (by simpa [HeaderPhase.recorded?, kind] using grown)
  | valued begins named separated opens valued =>
    cases kind : token.kind <;> simp [HeaderPhase.accept, kind] at accepted
    subst accepted
    have grown := PairTaken.closed begins named separated opens valued kind
    exact .inl (by simpa [HeaderPhase.recorded?] using grown)
  | emptied begins named separated opens closes =>
    cases kind : token.kind <;> simp [HeaderPhase.accept, kind] at accepted
    subst accepted
    have complete := Header.pair begins named separated opens .absent closes kind
    exact .inr ⟨rfl, _, rfl, by simpa using complete⟩
  | closed begins named separated opens valued closes =>
    cases kind : token.kind <;> simp [HeaderPhase.accept, kind] at accepted
    subst accepted
    have complete := Header.pair begins named separated opens (.present valued) closes kind
    exact .inr ⟨rfl, _, rfl, by simpa using complete⟩

/-! ### What was read of a game -/

/-- The tokens that were read in front of a movetext, with the headers and the comment they leave. -/
def FrontTaken (config : Config) (headers : Option (List HeaderPair)) (text : Option Bytes)
    (tokens : List Token) : Prop :=
  ∃ first headed second texts more pairs, tokens = first ++ headed ++ second ∧
    Many Remark first texts ∧ Many Header headed pairs ∧ Many Remark second more ∧
    headers = kept pairs.reverse ∧ text = Comment.joined config (texts ++ more)

/-- The tokens that were read for a game outside its comments. -/
inductive Reached (config : Config) : Draft → List Token → Prop where
  | early {first : List Token} {texts : List Bytes} {stage : Stage}
      (before : Many Remark first texts) (isEarly : stage = .start ∨ stage = .preface) :
      Reached config ⟨none, Comment.joined config texts, .idle, stage⟩ first
  | pair {first headers tokens : List Token} {texts : List Bytes} {pairs known : List HeaderPair}
      {phase : HeaderPhase} (before : Many Remark first texts)
      (sectioned : Many Header headers pairs) (taken : PairTaken phase known tokens) :
      Reached config
        ⟨some (known ++ pairs.reverse), Comment.joined config texts, .idle, .header phase⟩
        (first ++ headers ++ tokens)
  | complete {first headers : List Token} {texts : List Bytes} {pairs : List HeaderPair}
      (before : Many Remark first texts) (sectioned : Many Header headers pairs)
      (some : pairs ≠ []) :
      Reached config
        ⟨Option.some pairs.reverse, Comment.joined config texts, .idle, .header .complete⟩
        (first ++ headers)
  | opening {headers : Option (List HeaderPair)} {text : Option Bytes} {tokens : List Token}
      (taken : FrontTaken config headers text tokens) :
      Reached config ⟨headers, text, .idle, .opening⟩ tokens
  | moves {headers : Option (List HeaderPair)} {text : Option Bytes} {moves : MovesDraft}
      {tokens inner : List Token} (before : FrontTaken config headers text tokens)
      (taken : MovesTaken config moves inner) :
      Reached config ⟨headers, text, .idle, .moves moves⟩ (tokens ++ inner)

theorem Reached.idle (reached : Reached config draft tokens) : draft.commentPhase = .idle := by
  cases reached <;> rfl

theorem frontTaken_of_complete {first headers : List Token} {texts : List Bytes}
    {pairs : List HeaderPair} (before : Many Remark first texts)
    (sectioned : Many Header headers pairs) (some : pairs ≠ []) :
    FrontTaken config (Option.some pairs.reverse) (Comment.joined config texts)
      (first ++ headers) := by
  refine ⟨first, headers, [], texts, [], pairs, by simp, before, sectioned, .none, ?_, by simp⟩
  rw [kept, if_neg (by simpa using some)]

theorem FrontTaken.remark {headers : Option (List HeaderPair)} {text : Option Bytes}
    {remark : List Token} {added : Bytes} (taken : FrontTaken config headers text tokens)
    (read : Remark remark added) :
    FrontTaken config headers (Comment.add config text added) (tokens ++ remark) := by
  obtain ⟨first, headers, second, texts, more, pairs, rfl, before, sectioned, behind, rfl, rfl⟩ :=
    taken
  refine ⟨first, headers, second ++ remark, texts, more ++ [added], pairs, by simp, before,
    sectioned, .more behind read, rfl, ?_⟩
  rw [Comment.add_joined, List.append_assoc]

/-- Where a game takes comments, one is read for it. -/
theorem Reached.remark {remark : List Token} {text : Bytes} (reached : Reached config draft tokens)
    (takes : draft.takesComments = true) (read : Remark remark text) :
    Reached config (draft.addComment config text) (tokens ++ remark) := by
  cases reached with
  | @early _ texts stage before isEarly =>
    have later :
        Reached config ⟨none, Comment.joined config (texts ++ [text]), .idle, .preface⟩ _ :=
      .early (.more before read) (.inr rfl)
    rw [← Comment.add_joined] at later
    rcases isEarly with rfl | rfl <;> exact later
  | pair before sectioned taken =>
    cases taken <;> cases takes
  | complete before sectioned some =>
    exact .opening ((frontTaken_of_complete before sectioned some).remark read)
  | opening taken => exact .opening (taken.remark read)
  | moves before taken =>
    rw [List.append_assoc]
    exact .moves before (taken.remark takes read)

variable {step : Draft.Step} {headers : Option (List HeaderPair)} {text : Option Bytes}
  {stage : Stage}

end Scoresheet.Grammar

namespace Scoresheet

/-- A game with a variation inside a variation, behind which the number is repeated for the move of
black. -/
def Lexer.answered : Lexer :=
  .ofSource (.ofBytes (Bytes.ofString "1. e4 (1. d4 d5 (1... Nf6)) 1... e5 2. Nf3 *"))

/-- The game as it is read: each variation belongs to the move it stands behind. -/
def Game.answered : Game where
  headers := none
  comment := none
  moves :=
    [.both 1
      ⟨[0x65, 0x34], some ⟨none, [],
        [[.both 1 ⟨[0x64, 0x34], none⟩
          ⟨[0x64, 0x35], some ⟨none, [], [[.blackOnly 1 ⟨[0x4E, 0x66, 0x36], none⟩]]⟩⟩]]⟩⟩
      ⟨[0x65, 0x35], none⟩,
    .whiteOnly 2 ⟨[0x4E, 0x66, 0x33], none⟩]
  outcome := .unknown

namespace Grammar

end Grammar

open scoped PairHash

end Scoresheet
