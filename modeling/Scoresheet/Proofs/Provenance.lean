/-
This file traces what a game holds to the tokens it was read from, whatever the settings refuse or
leave out. The names of its header pairs are the texts of header names, and a header section that is
kept has pairs. Its comment is made of those in front of the header section and of those behind it.
Its main line derives from the tokens between these and the marker; if the movetext is left out,
there is none.

Of the header section nothing is asked but the kinds of its tokens, so the same invariant serves
header sections that are assembled and those that are read over.
-/

import Scoresheet.Proofs.Admission
import Scoresheet.Proofs.Derivation
import Scoresheet.Proofs.ReadOver

namespace Scoresheet.Grammar

variable {config : Config} {token : Token} {tokens read : List Token}

/-! ### Headers -/

/-- The text of a header name among the tokens. -/
def Names (tokens : List Token) (name : Bytes) : Prop :=
  ∃ token ∈ tokens, token.kind = .headerName ∧ token.text = name

/-- The names of the pairs were read. -/
def NamesAll (tokens : List Token) (pairs : List HeaderPair) : Prop :=
  ∀ pair ∈ pairs, Names tokens pair.name

/-- The names of the pairs were read, and if there is a header section it has pairs. -/
structure Titled (tokens : List Token) (headers : Option (List HeaderPair)) : Prop where
  present : headers ≠ some []
  names : NamesAll tokens (headers.getD [])

theorem Names.more {name : Bytes} (names : Names read name) : Names (read ++ [token]) name := by
  obtain ⟨first, member, named⟩ := names
  exact ⟨first, List.mem_append_left [token] member, named⟩

theorem NamesAll.more {pairs : List HeaderPair} (names : NamesAll read pairs) :
    NamesAll (read ++ tokens) pairs := fun pair member => by
  obtain ⟨first, among, named⟩ := names pair member
  exact ⟨first, List.mem_append_left tokens among, named⟩

theorem Titled.more {headers : Option (List HeaderPair)} (titled : Titled read headers) :
    Titled (read ++ tokens) headers := ⟨titled.present, titled.names.more⟩

theorem Titled.reverse {headers : Option (List HeaderPair)} (titled : Titled tokens headers) :
    Titled tokens (headers.map List.reverse) := by
  cases headers with
  | none => exact titled
  | some pairs =>
    exact ⟨fun none => titled.present (by simpa using none),
      fun pair member => titled.names pair (List.mem_reverse.mp member)⟩

/-- The name of the pair under way. -/
def nameOf : HeaderPhase → Option Bytes
  | .named name => some name
  | .separated name => some name
  | .opened name => some name
  | .emptied name => some name
  | _ => none

/-- Whether the pair under way is not known yet. -/
def isOpen : HeaderPhase → Bool
  | .valued => false
  | .closed => false
  | .complete => false
  | _ => true

/-- What was read of a header section: the pairs that are known, of which only the first pair can be
missing while it is under way. -/
structure Section (phase : HeaderPhase) (tokens : List Token) (pairs : List HeaderPair) : Prop where
  underWay : ∀ name ∈ nameOf phase, Names tokens name
  known : NamesAll tokens pairs
  present : isOpen phase = true ∨ pairs ≠ []

theorem section_begun {pairs : List HeaderPair} (known : NamesAll tokens pairs) :
    Section .begun tokens pairs := ⟨nofun, known, .inl rfl⟩

/-- A token of a header section leaves one. -/
theorem Section.accept {phase next : HeaderPhase} {pairs : List HeaderPair}
    (before : Section phase read pairs) (accepted : phase.accept config token = .ok next) :
    Section next (read ++ [token]) ((phase.recorded? token).toList ++ pairs) := by
  have known : NamesAll (read ++ [token]) pairs := before.known.more
  have going {next : HeaderPhase} (same : nameOf next = nameOf phase) (going : isOpen next = true) :
      Section next (read ++ [token]) pairs :=
    ⟨fun name member => (before.underWay name (same ▸ member)).more, known, .inl going⟩
  have nothing {next : HeaderPhase} (none : nameOf next = none) :
      ∀ name ∈ nameOf next, Names (read ++ [token]) name := by
    rw [none]
    exact nofun
  have recorded {name value : Bytes} {next : HeaderPhase} (same : nameOf phase = some name)
      (none : nameOf next = none) :
      Section next (read ++ [token]) (⟨name, value⟩ :: pairs) :=
    ⟨nothing none, List.forall_mem_cons.mpr ⟨(before.underWay name (Option.mem_def.mpr same)).more,
      known⟩, .inr (List.cons_ne_nil _ _)⟩
  have settled {next : HeaderPhase} (none : nameOf next = none) (shut : isOpen phase = false) :
      Section next (read ++ [token]) pairs := by
    have some := before.present.resolve_left (by rw [shut]; exact Bool.false_ne_true)
    exact ⟨nothing none, known, .inr some⟩
  cases phase <;> cases kind : token.kind <;>
    simp only [HeaderPhase.accept, kind, reduceCtorEq] at accepted
  case begun.headerName =>
    cases accepted
    refine ⟨fun name member => ?_, known, .inl rfl⟩
    cases member
    exact ⟨token, List.mem_append_right read List.mem_cons_self, kind, rfl⟩
  case named.separator name =>
    cases accepted
    exact going rfl rfl
  case named.valueBegin name =>
    split at accepted
    · cases accepted
    · cases accepted
      exact going rfl rfl
  case separated.valueBegin name =>
    cases accepted
    exact going rfl rfl
  case opened.value name =>
    cases accepted
    simp only [HeaderPhase.recorded?, kind, if_true]
    exact recorded rfl rfl
  case opened.valueEnd name =>
    cases accepted
    simp only [HeaderPhase.recorded?, kind, reduceCtorEq, if_false]
    exact going rfl rfl
  case valued.valueEnd =>
    cases accepted
    exact settled rfl rfl
  case emptied.headerEnd name =>
    cases accepted
    exact recorded rfl rfl
  case closed.headerEnd =>
    cases accepted
    exact settled rfl rfl
  case complete.headerBegin =>
    cases accepted
    exact section_begun known

/-- Behind a complete pair the section can end. -/
theorem Section.titled {headers : Option (List HeaderPair)}
    (complete : Section .complete tokens (headers.getD [])) : Titled tokens headers := by
  refine ⟨fun none => ?_, complete.known⟩
  rw [none] at complete
  exact complete.present.elim nofun fun present => present rfl

/-! ### The front of a game -/

/-- What stands in front of the movetext: comments, the tokens of a header section, and comments
again. The texts are those of the comments. -/
inductive Preamble : List Token → List Bytes → Prop where
  | parts {first headers second : List Token} {texts more : List Bytes}
      (before : Many Remark first texts) (sectioned : ∀ token ∈ headers, token.kind.isHeader = true)
      (behind : Many Remark second more) : Preamble (first ++ headers ++ second) (texts ++ more)

/-- The tokens are comments only, and the game has these. -/
def Prefaces (config : Config) (tokens : List Token) (remarks : Option Bytes) : Prop :=
  ∃ texts, Many Remark tokens texts ∧ remarks = Comment.joined config texts

/-- The tokens go on with those of a header section. -/
def Heads (config : Config) (tokens : List Token) (remarks : Option Bytes) : Prop :=
  ∃ first headers, tokens = first ++ headers ∧ Prefaces config first remarks ∧
    ∀ token ∈ headers, token.kind.isHeader = true

/-- The tokens are those in front of a movetext, and the game has their comments. -/
def Fronts (config : Config) (tokens : List Token) (remarks : Option Bytes) : Prop :=
  ∃ texts, Preamble tokens texts ∧ remarks = Comment.joined config texts

/-- Behind the front of a game there may be more tokens, of which something holds. -/
def Parts (config : Config) (tokens : List Token) (remarks : Option Bytes)
    (behind : List Token → Prop) : Prop :=
  ∃ front rest, tokens = front ++ rest ∧ Fronts config front remarks ∧ behind rest

variable {remarks : Option Bytes}

theorem prefaces_nil (config : Config) : Prefaces config [] none :=
  ⟨[], .none, Comment.joined_nil.symm⟩

theorem Prefaces.remark {remark : List Token} {text : Bytes}
    (prefaces : Prefaces config tokens remarks) (next : Remark remark text) :
    Prefaces config (tokens ++ remark) (Comment.add config remarks text) := by
  obtain ⟨texts, before, rfl⟩ := prefaces
  exact ⟨_, .more before next, Comment.add_joined config texts text⟩

theorem Prefaces.heads (prefaces : Prefaces config tokens remarks) :
    Heads config tokens remarks :=
  ⟨tokens, [], (List.append_nil tokens).symm, prefaces, List.forall_mem_nil _⟩

/-- One more token of the header section. -/
theorem Heads.more (heads : Heads config tokens remarks) (kind : token.kind.isHeader = true) :
    Heads config (tokens ++ [token]) remarks := by
  obtain ⟨first, headers, rfl, prefaces, all⟩ := heads
  exact ⟨first, headers ++ [token], List.append_assoc .., prefaces,
    List.forall_mem_append.mpr ⟨all, List.forall_mem_singleton.mpr kind⟩⟩

theorem Heads.fronts (heads : Heads config tokens remarks) : Fronts config tokens remarks := by
  obtain ⟨first, headers, rfl, ⟨texts, before, rfl⟩, all⟩ := heads
  refine ⟨texts, ?_, rfl⟩
  have parts := Preamble.parts before all .none
  rwa [List.append_nil, List.append_nil] at parts

/-- One more comment behind the header section. -/
theorem Fronts.remark {remark : List Token} {text : Bytes}
    (fronts : Fronts config tokens remarks) (next : Remark remark text) :
    Fronts config (tokens ++ remark) (Comment.add config remarks text) := by
  obtain ⟨_, @⟨first, headers, second, texts, more, before, all, behind⟩, rfl⟩ := fronts
  refine ⟨texts ++ (more ++ [text]), ?_, ?_⟩
  · rw [List.append_assoc _ second]
    exact .parts before all (.more behind next)
  · rw [Comment.add_joined, List.append_assoc]

/-- Nothing stands behind the front yet. -/
theorem Fronts.parts {behind : List Token → Prop} (fronts : Fronts config tokens remarks)
    (nothing : behind []) : Parts config tokens remarks behind :=
  ⟨tokens, [], (List.append_nil tokens).symm, fronts, nothing⟩

theorem Parts.more {behind later : List Token → Prop} {last : List Token}
    (parts : Parts config tokens remarks behind)
    (grows : ∀ rest, behind rest → later (rest ++ last)) :
    Parts config (tokens ++ last) remarks later := by
  obtain ⟨front, rest, rfl, fronts, holds⟩ := parts
  exact ⟨front, rest ++ last, List.append_assoc .., fronts, grows rest holds⟩

/-! ### Games under way -/

/-- What was read for the part of a game that a draft is in. -/
def Drawn (config : Config) (tokens : List Token) (headers : Option (List HeaderPair))
    (remarks : Option Bytes) : Stage → Prop
  | .start => Titled tokens headers ∧ Prefaces config tokens remarks
  | .preface => Titled tokens headers ∧ Prefaces config tokens remarks
  | .header phase => Section phase tokens (headers.getD []) ∧ Heads config tokens remarks
  | .headersLeftOut => Titled tokens headers ∧ Heads config tokens remarks
  | .opening => Titled tokens headers ∧ Fronts config tokens remarks
  | .moves moves => Titled tokens headers ∧ config.skip.moves = false ∧
      Parts config tokens remarks (MovesTaken config moves)
  | .movesLeftOut => Titled tokens headers ∧ config.skip.moves = true ∧
      Parts config tokens remarks fun _ => True

/-- The tokens of a comment under way. -/
inductive CommentTaken : CommentPhase → List Token → Prop where
  | idle : CommentTaken .idle []
  | opened {opening : Token} (opens : opening.kind = .commentBegin) :
      CommentTaken .opened [opening]
  | filled {opening text : Token} (opens : opening.kind = .commentBegin)
      (inside : text.kind = .comment) : CommentTaken (.filled text.text) [opening, text]

/-- The tokens that were read for a draft, those of a comment under way behind the others. -/
structure Stems (config : Config) (draft : Draft) (tokens : List Token) : Prop where
  drawn : ∃ read begun, tokens = read ++ begun ∧ CommentTaken draft.commentPhase begun ∧
    Drawn config read draft.headers draft.comment draft.stage
  takes : draft.commentPhase ≠ .idle → draft.takesComments = true

/-- The game holds what was read in front of the marker. -/
structure Yields (config : Config) (inner : List Token) (marker : Token) (game : Game) : Prop where
  titled : Titled (inner ++ [marker]) game.headers
  ended : marker.kind = .termination
  leftOut : config.skip.moves = true → game.moves = []
  parts : Parts config inner game.comment fun moves =>
    config.skip.moves = false → Derives config (.sequence game.moves) moves

/-- A movetext that is kept derives from the last tokens in front of the marker. -/
theorem Yields.moved {inner : List Token} {marker : Token} {game : Game}
    (yields : Yields config inner marker game) (kept : config.skip.moves = false) :
    ∃ front moves, inner = front ++ moves ∧ Derives config (.sequence game.moves) moves := by
  obtain ⟨front, moves, whole, _, derived⟩ := yields.parts
  exact ⟨front, moves, whole, derived kept⟩

/-- What a token leads to behind those that were read. -/
def Leads (config : Config) (read : List Token) (token : Token) : Draft.Step → Prop
  | .onward draft => Stems config draft (read ++ [token])
  | .finished game => Yields config read token game

variable {draft : Draft} {step : Draft.Step}

theorem stems_start (config : Config) : Stems config .start [] :=
  ⟨⟨[], [], rfl, .idle, ⟨nofun, List.forall_mem_nil _⟩, prefaces_nil config⟩,
    fun inside => absurd rfl inside⟩

/-- Outside comments. -/
theorem stems_of_idle (idle : draft.commentPhase = .idle)
    (drawn : Drawn config tokens draft.headers draft.comment draft.stage) :
    Stems config draft tokens :=
  ⟨⟨tokens, [], (List.append_nil tokens).symm, idle ▸ .idle, drawn⟩,
    fun inside => absurd idle inside⟩

/-- A comment adds nothing but itself. -/
theorem Drawn.remark {remark : List Token} {text : Bytes} (takes : draft.takesComments = true)
    (drawn : Drawn config tokens draft.headers draft.comment draft.stage)
    (read : Remark remark text) :
    Drawn config (tokens ++ remark) (draft.addComment config text).headers
      (draft.addComment config text).comment (draft.addComment config text).stage := by
  obtain ⟨headers, comment, phase, stage⟩ := draft
  cases stage with
  | start => exact ⟨drawn.1.more, drawn.2.remark read⟩
  | preface => exact ⟨drawn.1.more, drawn.2.remark read⟩
  | header phase =>
    obtain rfl : phase = .complete := of_decide_eq_true takes
    exact ⟨(Section.titled drawn.1).more, drawn.2.fronts.remark read⟩
  | headersLeftOut => exact ⟨drawn.1.more, drawn.2.fronts.remark read⟩
  | opening => exact ⟨drawn.1.more, drawn.2.remark read⟩
  | moves moves =>
    obtain ⟨titled, kept, parts⟩ := drawn
    exact ⟨titled.more, kept, parts.more fun _ taken => taken.remark takes read⟩
  | movesLeftOut => cases takes

/-! ### One token -/

theorem leads_of_finish {line : Line} (titled : Titled read draft.headers)
    (ended : token.kind = .termination) (leftOut : config.skip.moves = true → line = [])
    (parts : Parts config read draft.comment fun moves =>
      config.skip.moves = false → Derives config (.sequence line) moves)
    (accepted : draft.finish line token = .ok step) : Leads config read token step := by
  unfold Draft.finish at accepted
  split at accepted
  · cases accepted
    exact ⟨titled.reverse.more, ended, leftOut, parts⟩
  · cases accepted

theorem leads_of_acceptMoves {moves : MovesDraft} (idle : draft.commentPhase = .idle)
    (titled : Titled read draft.headers) (kept : config.skip.moves = false)
    (parts : Parts config read draft.comment (MovesTaken config moves))
    (accepted : draft.acceptMoves config moves token = .ok step) :
    Leads config read token step := by
  unfold Draft.acceptMoves at accepted
  split at accepted
  · cases accepted
  · next onward =>
    cases accepted
    exact stems_of_idle idle
      ⟨titled.more, kept, parts.more fun _ taken => taken.onward onward⟩
  · next line ended =>
    obtain ⟨front, inner, rfl, fronts, taken⟩ := parts
    obtain ⟨marker, derived⟩ := taken.ended ended
    exact leads_of_finish titled marker (fun skips => by rw [kept] at skips; cases skips)
      ⟨front, inner, rfl, fronts, fun _ => derived⟩ accepted

theorem leads_of_acceptLeftOut (idle : draft.commentPhase = .idle)
    (titled : Titled read draft.headers) (skips : config.skip.moves = true)
    (parts : Parts config read draft.comment fun _ => True)
    (accepted : draft.acceptLeftOut token = .ok step) : Leads config read token step := by
  unfold Draft.acceptLeftOut at accepted
  split at accepted
  · next marker =>
    obtain ⟨front, rest, whole, fronts, _⟩ := parts
    exact leads_of_finish titled marker (fun _ => rfl)
      ⟨front, rest, whole, fronts, fun kept => by rw [skips] at kept; cases kept⟩ accepted
  · cases accepted
    exact stems_of_idle idle ⟨titled.more, skips, parts.more fun _ _ => trivial⟩

theorem leads_of_acceptOpening (idle : draft.commentPhase = .idle)
    (titled : Titled read draft.headers) (fronts : Fronts config read draft.comment)
    (accepted : draft.acceptOpening config token = .ok step) : Leads config read token step := by
  unfold Draft.acceptOpening at accepted
  split at accepted
  · next skips =>
    exact leads_of_acceptLeftOut idle titled skips (fronts.parts trivial) accepted
  · next keeps =>
    have fresh : MovesTaken config .start [] := .main (.rest (@Derives.noTurns config))
    exact leads_of_acceptMoves idle titled (Bool.eq_false_iff.mpr keeps) (fronts.parts fresh)
      accepted

theorem leads_of_acceptPreface (idle : draft.commentPhase = .idle)
    (titled : Titled read draft.headers) (prefaces : Prefaces config read draft.comment)
    (accepted : draft.acceptPreface config token = .ok step) : Leads config read token step := by
  unfold Draft.acceptPreface at accepted
  split at accepted
  · next begins =>
    have kind : token.kind.isHeader = true := by rw [begins]; rfl
    have heads := prefaces.heads.more kind
    split at accepted
    · cases accepted
      exact stems_of_idle idle ⟨titled.more, heads⟩
    · cases accepted
      exact stems_of_idle idle ⟨section_begun (List.forall_mem_nil _), heads⟩
  · exact leads_of_acceptOpening idle titled prefaces.heads.fronts accepted

theorem leads_of_acceptStage (idle : draft.commentPhase = .idle)
    (drawn : Drawn config read draft.headers draft.comment draft.stage)
    (accepted : draft.acceptStage config token = .ok step) : Leads config read token step := by
  unfold Draft.acceptStage at accepted
  split at accepted
  · next stage =>
    rw [stage] at drawn
    split at accepted
    · exact leads_of_acceptPreface idle drawn.1 drawn.2 accepted
    · cases accepted
  · next stage =>
    rw [stage] at drawn
    exact leads_of_acceptPreface idle drawn.1 drawn.2 accepted
  · next phase stage =>
    rw [stage] at drawn
    split at accepted
    · next complete =>
      rw [complete.1] at drawn
      exact leads_of_acceptOpening idle drawn.1.titled drawn.2.fronts accepted
    · unfold Draft.acceptHeader at accepted
      split at accepted
      · cases accepted
      · next next stepped =>
        cases accepted
        exact stems_of_idle idle ⟨Section.accept drawn.1 stepped,
          drawn.2.more (HeaderPhase.isHeader_of_accept stepped)⟩
  · next stage =>
    rw [stage] at drawn
    split at accepted
    · next header =>
      cases accepted
      refine stems_of_idle idle ?_
      rw [stage]
      exact ⟨drawn.1.more, drawn.2.more header⟩
    · exact leads_of_acceptOpening idle drawn.1 drawn.2.fronts accepted
  · next stage =>
    rw [stage] at drawn
    exact leads_of_acceptOpening idle drawn.1 drawn.2 accepted
  · next moves stage =>
    rw [stage] at drawn
    obtain ⟨titled, kept, parts⟩ := drawn
    exact leads_of_acceptMoves idle titled kept parts accepted
  · next stage =>
    rw [stage] at drawn
    obtain ⟨titled, skips, parts⟩ := drawn
    exact leads_of_acceptLeftOut idle titled skips parts accepted

/-- A comment that is closed was read for the draft. -/
theorem stems_of_remark {remark : List Token} {text : Bytes} (takes : draft.takesComments = true)
    (drawn : Drawn config read draft.headers draft.comment draft.stage)
    (remarked : Remark remark text) :
    Stems config { draft.addComment config text with commentPhase := .idle } (read ++ remark) :=
  stems_of_idle rfl (drawn.remark takes remarked)

/-- A token goes on with what was read or finishes the game. -/
theorem Stems.leads (stems : Stems config draft tokens)
    (accepted : draft.accept config token = .ok step) : Leads config tokens token step := by
  obtain ⟨⟨read, begun, rfl, taken, drawn⟩, takes⟩ := stems
  obtain ⟨headers, comment, phase, stage⟩ := draft
  unfold Draft.accept at accepted
  dsimp only at accepted taken
  cases taken with
  | idle =>
    rw [List.append_nil]
    dsimp only at accepted
    split at accepted
    · next comment =>
      cases accepted
      exact ⟨⟨read, [token], rfl, .opened comment.1, drawn⟩, fun _ => comment.2⟩
    · split at accepted
      · next comment =>
        cases accepted
        have added := stems_of_remark comment.2 drawn (.line comment.1)
        cases stage <;> exact added
      · exact leads_of_acceptStage rfl drawn accepted
  | @opened opening opens =>
    have opened := takes nofun
    dsimp only at accepted
    split at accepted
    · next closes =>
      cases accepted
      show Stems _ _ _
      rw [List.append_assoc]
      exact stems_of_remark opened drawn (.empty opens closes)
    · split at accepted
      · next inside =>
        cases accepted
        exact ⟨⟨read, [opening, token], List.append_assoc _ _ _, .filled opens inside, drawn⟩,
          fun _ => opened⟩
      · cases accepted
  | @filled opening text opens inside =>
    have opened := takes nofun
    dsimp only at accepted
    split at accepted
    · next closes =>
      cases accepted
      show Stems _ _ _
      rw [List.append_assoc]
      exact stems_of_remark opened drawn (.braced opens inside closes)
    · cases accepted

/-! ### Rows of tokens -/

/-- The last token that is looked at finishes a game, and the game holds what was read up to it. -/
theorem yields_of_judge {rest : List Token} {game : Game} (stems : Stems config draft tokens)
    (finished : draft.judge config rest = .finished game) :
    ∃ inner marker unread, rest = inner ++ marker :: unread ∧
      Yields config (tokens ++ inner) marker game := by
  induction rest generalizing draft tokens with
  | nil => cases finished
  | cons token rest inductionHypothesis =>
    rw [Draft.judge] at finished
    split at finished
    · cases finished
    · next accepted =>
      cases finished
      refine ⟨[], token, rest, rfl, ?_⟩
      rw [List.append_nil]
      exact stems.leads accepted
    · next accepted =>
      obtain ⟨inner, marker, unread, rfl, yields⟩ :=
        inductionHypothesis (stems.leads accepted) finished
      exact ⟨token :: inner, marker, unread, rfl, by simpa using yields⟩

end Scoresheet.Grammar

namespace Scoresheet

namespace Draft

/-- A game that is read holds what was read of the tokens up to its marker. -/
theorem yields_of_read [Hashable HeaderPair] {config : Config} {interner : Interner} {lexer : Lexer}
    {entry : Entry} (found : (Draft.read config interner lexer).1 = .ok (some entry)) :
    ∃ inner marker, lexer.segment.1 = inner ++ [marker] ∧
      Grammar.Yields config inner marker entry.game := by
  have judged : Draft.start.judge config lexer.segment.1 = .finished entry.game := by
    rcases readOn_of_hasMarker (hasMarker_of_readOn found) config .start [] interner with
      ⟨other, again, judged, _⟩ | ⟨error, refused, _⟩
    · cases found.symm.trans again
      exact judged
    · cases found.symm.trans refused
  obtain ⟨inner, marker, unread, split, yields⟩ :=
    Grammar.yields_of_judge (Grammar.stems_start config) judged
  refine ⟨inner, marker, ?_, yields⟩
  rcases List.eq_nil_or_concat unread with rfl | ⟨early, final, rfl⟩
  · exact split
  · -- Only the last token of a segment is a marker.
    refine absurd yields.ended (lexer.tokens_of_segment.2 marker ?_)
    rw [split, List.concat_eq_append, ← List.cons_append, ← List.append_assoc, List.dropLast_concat]
    exact List.mem_append_right inner List.mem_cons_self

end Draft

namespace Reader

/-- The game that is returned, if there is one. -/
def Reply.game? : Reply → Option Game
  | .game (some (.ok entry)) => some entry.game
  | _ => none

variable {config : Config} {origin : Lexer} {reader : Reader} {entry : Entry} {game : Game}

variable [Hashable HeaderPair]

/-- A game that a pass returns was read where the lexer can be. -/
theorem Abides.game_of_pass (abides : reader.Abides config origin)
    (running : reader.isDone = false) (found : reader.pass.1 = some (some (.ok entry))) :
    ∃ interner count, (Draft.read config interner (origin.ahead count)).1 = .ok (some entry) := by
  obtain ⟨rfl, ahead, errors⟩ := abides
  obtain ⟨count, there⟩ := ahead.resolve_left (by rw [running]; exact Bool.false_ne_true)
  refine ⟨reader.interner, count, ?_⟩
  rw [← there]
  unfold Reader.pass settle at found
  dsimp only at found
  split at found
  · next answered =>
    cases found
    exact answered
  · cases found
  · repeat' split at found
    all_goals cases found

theorem Abides.game_of_next (abides : reader.Abides config origin)
    (found : reader.next.1 = some (.ok entry)) :
    ∃ interner count, (Draft.read config interner (origin.ahead count)).1 = .ok (some entry) := by
  induction reader using next_induction with
  | done reader done =>
    rw [next_of_isDone done] at found
    cases found
  | limit reader running limit =>
    rw [next_of_atLimit running limit] at found
    cases found
  | answered reader result after running room passed =>
    rw [next_of_answered running room passed] at found
    refine abides.game_of_pass running ?_
    rw [passed]
    exact congrArg some found
  | again reader after running room passed inductionHypothesis =>
    have later := (abides.pass running).1
    rw [passed] at later
    rw [next_of_again running room passed] at found
    exact inductionHypothesis later found

/-- Every game that a reader returns was read where its lexer can be. -/
theorem Abides.game_of_answers {requests : List Request} (abides : reader.Abides config origin)
    {answer : Reply × List ReadError × Nat} (member : answer ∈ reader.answers requests)
    (found : game ∈ answer.1.game?) :
    ∃ interner count entry, (Draft.read config interner (origin.ahead count)).1 =
      .ok (some entry) ∧ entry.game = game := by
  induction requests generalizing reader with
  | nil => cases member
  | cons request rest inductionHypothesis =>
    rcases List.mem_cons.mp member with rfl | later
    · unfold Reply.game? at found
      split at found
      · next entry returned =>
        cases found
        cases request with
        | next =>
          obtain ⟨interner, count, read⟩ := abides.game_of_next (Reply.game.inj returned)
          exact ⟨interner, count, entry, read, rfl⟩
        | skipGame => cases returned
        | close => cases returned
      · cases found
    · exact inductionHypothesis (abides.answer request).1 later

theorem abides_start (config : Config) (lexer : Lexer) : (start config lexer).Abides config lexer :=
  ⟨rfl, .inr ⟨0, rfl⟩, List.forall_mem_nil _⟩

/-- Every game that a reader returns holds what was read of the tokens up to a marker. -/
theorem yields_of_answers {requests : List Request} {answer : Reply × List ReadError × Nat}
    (member : answer ∈ (start config origin).answers requests) (found : game ∈ answer.1.game?) :
    ∃ count inner marker, (origin.ahead count).segment.1 = inner ++ [marker] ∧
      Grammar.Yields config inner marker game := by
  obtain ⟨interner, count, entry, read, rfl⟩ :=
    (abides_start config origin).game_of_answers member found
  exact ⟨count, Draft.yields_of_read read⟩

end Reader

end Scoresheet
