/-
This file draws the consequences of what the tokens are. Every token that a lexer comes to, however
it is asked, covers what its kind admits. So whatever a reader reads, it never meets a termination
marker that names no outcome, and it refuses a move number for its digits only if they are all
zeros and strictness does not allow that. The numbers of the games it yields are the values of the
digits, cut to the largest number there is room for.

That a marker is a marker and that a number consists of digits holds over every source, since the
lexer looks at the bytes themselves. Only what a token cannot contain or begin with depends on the
source being honest.
-/

import Scoresheet.Cache.PairHash
import Scoresheet.Proofs.Complaints
import Scoresheet.Proofs.Exhaustion
import Scoresheet.Proofs.Requests
import Scoresheet.Proofs.Searching

namespace Scoresheet

/-! ### Every token a lexer comes to -/

namespace Lexer

/-- The tokens that are passed over until one is of the given kind, each as the lexers before and
behind it. -/
def skips (kind : TokenKind) (lexer : Lexer) : List (Lexer × Lexer) :=
  if lexer.kind = kind ∨ lexer.isExhausted then []
  else
    match _ : Scan.advance.run lexer with
    | (.error _, _) => []
    | (.ok (), after) => (lexer, after) :: if _ : after.isExhausted then [] else skips kind after
termination_by lexer.source.content.length
decreasing_by
  rename_i success more
  exact content_lt_of_advance success (Bool.eq_false_iff.mpr more)

/-- The steps a request takes, each as the lexers before and behind it. -/
def steps (request : Request) (lexer : Lexer) : List (Lexer × Lexer) :=
  match request with
  | .advance =>
    match Scan.advance.run lexer with
    | (.error _, _) => []
    | (.ok (), after) => [(lexer, after)]
  | .skipUntil kind => lexer.skips kind
  | .close => [(lexer, lexer.close)]

/-- The steps of requests made one after the other, until the source fails. -/
def course : List Request → Lexer → List (Lexer × Lexer)
  | [], _ => []
  | request :: rest, lexer =>
    match lexer.answer request with
    | (.error _, _) => lexer.steps request
    | (.ok (), after) => lexer.steps request ++ course rest after

/-- What holds of the lexers before and behind a step. -/
structure Settled (before after : Lexer) : Prop where
  /-- The token covers what its kind admits. -/
  admits : after.kind.Admits before.kind after.span
  last : after.isExhausted = true → after.kind = .undefined

variable {lexer after : Lexer}

/-- Nothing is required of a token that is none. -/
theorem admits_of_undefined {kind previous : TokenKind} {span : Bytes} (none : kind = .undefined) :
    kind.Admits previous span := by
  rw [none]
  trivial

theorem settled_advance (honest : lexer.source.IsHonest)
    (success : Scan.advance.run lexer = (.ok (), after)) :
    Settled lexer after ∧ after.source.IsHonest := by
  rcases advance_finds honest success with ended | found
  · exact ⟨⟨admits_of_undefined ended.kind, fun _ => ended.kind⟩, ended.honest⟩
  · obtain ⟨_, _, _, _, _, _, written, kept, rest, _, wrote, _, admits⟩ := found
    refine ⟨⟨wrote.span ▸ admits, fun last => ?_⟩, wrote.honest⟩
    have outside := (Bool.and_eq_true_iff.mp last).1
    exact absurd (beq_iff_eq.mp outside) wrote.inside

/-- The steps of discarding tokens lead to where the discarding ends. -/
theorem settled_skips (kind : TokenKind) (honest : lexer.source.IsHonest) :
    (∀ step ∈ lexer.skips kind, Settled step.1 step.2) ∧
      ∀ after, lexer.skipUntil kind = (.ok (), after) →
        after.source.IsHonest ∧ after ∈ lexer :: (lexer.skips kind).map Prod.snd := by
  fun_induction skips kind lexer with
  | case1 lexer stopped =>
    refine ⟨List.forall_mem_nil _, fun after found => ?_⟩
    rw [skipUntil_of_stopped stopped] at found
    cases found
    exact ⟨honest, List.mem_cons_self⟩
  | case2 lexer onward failure after failed =>
    refine ⟨List.forall_mem_nil _, fun last found => ?_⟩
    rw [skipUntil, if_neg onward] at found
    split at found
    · cases found
    · next success =>
      rw [failed] at success
      cases success
  | case3 lexer onward after success inductionHypothesis =>
    obtain ⟨settled, honestAfter⟩ := settled_advance honest success
    rw [skipUntil_of_advance onward success]
    split
    · next last =>
      rw [skipUntil_of_stopped (.inr last)]
      refine ⟨List.forall_mem_singleton.mpr settled, fun final found => ?_⟩
      cases found
      exact ⟨honestAfter, List.mem_cons_of_mem _ List.mem_cons_self⟩
    · next more =>
      obtain ⟨later, ends⟩ := inductionHypothesis more honestAfter
      refine ⟨List.forall_mem_cons.mpr ⟨settled, later⟩, fun final found => ?_⟩
      obtain ⟨honestFinal, member⟩ := ends final found
      exact ⟨honestFinal, List.mem_cons_of_mem _ member⟩

theorem settled_steps (request : Request) (honest : lexer.source.IsHonest) :
    (∀ step ∈ lexer.steps request, Settled step.1 step.2) ∧
      ∀ after, lexer.answer request = (.ok (), after) →
        after.source.IsHonest ∧ after ∈ lexer :: (lexer.steps request).map Prod.snd := by
  cases request with
  | advance =>
    unfold steps answer
    dsimp only
    split
    · next failed =>
      refine ⟨List.forall_mem_nil _, fun after found => ?_⟩
      rw [failed] at found
      cases found
    · next reached success =>
      obtain ⟨settled, honestAfter⟩ := settled_advance honest success
      refine ⟨List.forall_mem_singleton.mpr settled, fun after found => ?_⟩
      rw [success] at found
      cases found
      exact ⟨honestAfter, List.mem_cons_of_mem _ List.mem_cons_self⟩
  | skipUntil kind => exact settled_skips kind honest
  | close =>
    refine ⟨List.forall_mem_singleton.mpr ⟨trivial, fun _ => rfl⟩, fun after found => ?_⟩
    cases found
    exact ⟨.close _, List.mem_cons_of_mem _ List.mem_cons_self⟩

/-- Every token of a run covers what its kind admits, and what is answered is seen of a lexer that
the run led to. -/
theorem settled_course (requests : List Request) (honest : lexer.source.IsHonest) :
    (∀ step ∈ lexer.course requests, Settled step.1 step.2) ∧
      ((∀ answer ∈ lexer.answers requests, answer.1 = .ok ()) →
        ∀ answer ∈ lexer.answers requests,
          ∃ reached ∈ lexer :: (lexer.course requests).map Prod.snd, answer.2 = reached.view) := by
  induction requests generalizing lexer with
  | nil => exact ⟨List.forall_mem_nil _, fun _ => List.forall_mem_nil _⟩
  | cons request rest inductionHypothesis =>
    obtain ⟨settled, ends⟩ := settled_steps request honest
    unfold course answers
    cases answered : lexer.answer request with
    | mk result after =>
      cases result with
      | error failure => exact ⟨settled, fun all => nomatch all _ List.mem_cons_self⟩
      | ok =>
        obtain ⟨honestAfter, reached⟩ := ends after answered
        obtain ⟨later, seen⟩ := inductionHypothesis honestAfter
        refine ⟨List.forall_mem_append.mpr ⟨settled, later⟩, fun all => ?_⟩
        obtain ⟨_, others⟩ := List.forall_mem_cons.mp all
        dsimp only
        rw [List.map_append]
        refine List.forall_mem_cons.mpr ⟨⟨after, ?_, rfl⟩, fun answer member => ?_⟩
        · exact List.mem_append_left _ reached
        · obtain ⟨last, inside, same⟩ := seen others answer member
          refine ⟨last, ?_, same⟩
          rcases List.mem_cons.mp inside with rfl | onward
          · exact List.mem_append_left _ reached
          · exact List.mem_append_right (lexer :: _) onward

/-! ### Tokens to come -/

/-- The token is among those that the lexer tells if it is asked often enough. -/
def Brings (token : Token) (lexer : Lexer) : Prop :=
  ∃ count after, Scan.advance.run (lexer.ahead count) = (.ok (), after) ∧ after.token = token

/-- The number is the value of the digits of a token to come, cut to the largest number. -/
def BringsNumber (lexer : Lexer) (number : UInt32) : Prop :=
  ∃ digits position, lexer.Brings ⟨.moveNumber, digits, position⟩ ∧ digits ≠ [] ∧
    (∀ byte ∈ digits, Ascii.isDigit byte = true) ∧
    number.toNat = min digits.decimalValue 4294967295

variable {token : Token}

theorem Brings.outcome (brings : lexer.Brings token) (kind : token.kind = .termination) :
    ∃ outcome, Outcome.ofMarker? token.text = some outcome := by
  obtain ⟨count, after, success, rfl⟩ := brings
  have fits := fits_of_advance success
  rw [show after.kind = .termination from kind] at fits
  obtain ⟨outcome, marker, _⟩ := fits.taken
  refine ⟨outcome, ?_⟩
  rw [show (token after).text = _ from marker.symm]
  exact outcome.ofMarker?_marker

theorem Brings.number (brings : lexer.Brings token) (kind : token.kind = .moveNumber) :
    token.text ≠ [] ∧ token.text.all Ascii.isDigit = true := by
  obtain ⟨count, after, success, rfl⟩ := brings
  have fits := fits_of_advance success
  rw [show after.kind = .moveNumber from kind] at fits
  exact fits

/-- The number of a turn that begins with a token to come. -/
theorem Brings.counted (brings : lexer.Brings token) (kind : token.kind = .moveNumber) :
    lexer.BringsNumber (Grammar.number token.text) := by
  obtain ⟨some, digits⟩ := brings.number kind
  have same : token = ⟨.moveNumber, token.text, token.position⟩ := by rw [← kind]
  refine ⟨token.text, token.position, same ▸ brings, some, List.all_eq_true.mp digits, ?_⟩
  rw [Grammar.number, UInt32.toNat_ofNat']
  exact Nat.mod_eq_of_lt (Nat.lt_succ_of_le (Nat.min_le_right _ _))

end Lexer

/-! ### What a reader complains about -/

/-- What an error of a reader is due to in what the lexer brings. No termination marker is ever
refused, and a move number where one could follow only as a zero that strictness does not allow. -/
def ReadError.IsDue (config : Config) (lexer : Lexer) : ReadError → Prop
  | .unexpectedToken found expected position =>
    found ∈ expected → config.strict = true ∧ found = .moveNumber ∧
      ∃ digits, lexer.Brings ⟨.moveNumber, digits, position⟩ ∧ digits.decimalValue = 0
  | .invalidOutcome _ _ => False
  | _ => True

theorem ReadError.IsAbout.isDue {config : Config} {lexer : Lexer} {token : Token}
    {error : ReadError} (about : error.IsAbout config token) (brings : lexer.Brings token) :
    error.IsDue config lexer := by
  cases about with
  | kind other => exact fun member => absurd member other
  | number kind refused =>
    intro _
    obtain ⟨some, digits⟩ := brings.number kind
    have read : Bytes.number? LineDraft.largestNumber token.text = _ := if_pos ⟨some, digits⟩
    rw [read, Bytes.boundedNumber_eq] at refused
    rcases refused with none | ⟨strict, zero⟩
    · cases none
    · have same : token = ⟨.moveNumber, token.text, token.position⟩ := by rw [← kind]
      refine ⟨strict, kind, token.text, same ▸ brings, ?_⟩
      have least := Option.some.inj zero
      unfold LineDraft.largestNumber at least
      omega
  | nag => trivial
  | outcome kind unknown =>
    obtain ⟨outcome, known⟩ := brings.outcome kind
    rw [unknown] at known
    cases known

/-- What reading a game leads to is due to what the lexer brings. -/
def Reading.IsDue (config : Config) (lexer : Lexer) : Reading → Prop
  | .ok (some entry) => ∀ number ∈ entry.game.numbers, lexer.BringsNumber number
  | .ok none => True
  | .error error => error.IsDue config lexer

theorem Draft.readOn_isDue [Hashable HeaderPair] {config : Config} {draft : Draft}
    {allocations : List Nat} {interner : Interner} {origin lexer : Lexer}
    (there : ∃ count, lexer = origin.ahead count)
    (only : draft.HasOnly origin.BringsNumber) :
    Reading.IsDue config origin (draft.readOn config allocations interner lexer).1 := by
  fun_induction readOn config draft allocations interner lexer with
  | case1 => trivial
  | case2 draft allocations interner lexer after success noted last =>
    rcases draft.conclude_eq config after.start with nothing | ended
    · rw [nothing]
      trivial
    · rw [ended]
      trivial
  | case3 draft allocations interner lexer after success noted more error refused =>
    obtain ⟨count, rfl⟩ := there
    have brings : origin.Brings after.token := ⟨count, after, success, rfl⟩
    have sound := @Draft.accept_sound config after.token _ draft brings.counted only
    rw [refused] at sound
    exact sound.isDue brings
  | case4 draft allocations interner lexer after success noted more game finished =>
    obtain ⟨count, rfl⟩ := there
    have brings : origin.Brings after.token := ⟨count, after, success, rfl⟩
    have sound := @Draft.accept_sound config after.token _ draft brings.counted only
    rw [finished] at sound
    exact sound
  | case5 draft allocations interner lexer after success noted more next onward inductionHypothesis =>
    obtain ⟨count, rfl⟩ := there
    have brings : origin.Brings after.token := ⟨count, after, success, rfl⟩
    have sound := @Draft.accept_sound config after.token _ draft brings.counted only
    rw [onward] at sound
    refine inductionHypothesis ⟨count + 1, ?_⟩ sound
    rw [Lexer.ahead_add, Lexer.ahead, success]
    rfl

namespace Reader

/-- What is returned is due to what the lexer brings. -/
def Reply.IsDue (config : Config) (lexer : Lexer) : Reply → Prop
  | .game (some (.ok entry)) => ∀ number ∈ entry.game.numbers, lexer.BringsNumber number
  | .game (some (.error error)) => error.IsDue config lexer
  | .skipped (.error error) => error.IsDue config lexer
  | _ => True

/-- The reader has gone on from the lexer, and what it has recorded is due to that. -/
structure Abides (config : Config) (origin : Lexer) (reader : Reader) : Prop where
  settings : reader.config = config
  ahead : reader.isDone = true ∨ ∃ count, reader.lexer = origin.ahead count
  errors : ∀ error ∈ reader.errors, error.IsDue config origin

variable {config : Config} {origin : Lexer} {reader : Reader}

/-- A lexer that is reached from one ahead is ahead. -/
theorem exists_ahead {spare : Nat} {lexer after : Lexer}
    (there : ∃ count, lexer = origin.ahead count) (reaches : lexer.Reaches spare after) :
    ∃ count, after = origin.ahead count := by
  obtain ⟨count, rfl⟩ := there
  obtain ⟨more, rfl, _⟩ := reaches
  exact ⟨count + more, (Lexer.ahead_add count more origin).symm⟩

theorem Abides.skipGame (abides : reader.Abides config origin) :
    reader.skipGame.2.Abides config origin ∧
      (Reply.skipped reader.skipGame.1).IsDue config origin := by
  have there : reader.skipGame.2.isDone = true ∨
      ∃ count, reader.skipGame.2.lexer = origin.ahead count := by
    rcases abides.ahead with done | there
    · left
      rw [Reader.skipGame, if_pos done]
      exact done
    · exact .inr (exists_ahead there (skipGame_reaches reader))
  have kept : reader.skipGame.2.errors = reader.errors := by
    unfold Reader.skipGame
    repeat' split
    all_goals rfl
  refine ⟨⟨(config_skipGame reader).trans abides.settings, there, kept ▸ abides.errors⟩, ?_⟩
  unfold Reader.skipGame
  repeat' split
  all_goals trivial

variable [Hashable HeaderPair]

theorem Abides.pass (abides : reader.Abides config origin) (running : reader.isDone = false) :
    reader.pass.2.Abides config origin ∧
      ∀ result, reader.pass.1 = some result → (Reply.game result).IsDue config origin := by
  obtain ⟨rfl, ahead, errors⟩ := abides
  have there := ahead.resolve_left (by rw [running]; exact Bool.false_ne_true)
  have due : Reading.IsDue reader.config origin
      (Draft.read reader.config reader.interner reader.lexer).1 := Draft.readOn_isDue there trivial
  have reached := exists_ahead there
    (Draft.readOn_reaches reader.config .start [] reader.interner reader.lexer).1
  unfold Reader.pass settle
  dsimp only
  split
  · next entry found =>
    rw [found] at due
    refine ⟨⟨rfl, .inr reached, errors⟩, fun result answered => ?_⟩
    cases answered
    exact due
  · refine ⟨⟨rfl, .inl rfl, errors⟩, fun result answered => ?_⟩
    cases answered
    trivial
  · next error refused =>
    rw [refused] at due
    have recorded : ∀ each ∈ reader.errors ++ [error], each.IsDue reader.config origin :=
      List.forall_mem_append.mpr ⟨errors, List.forall_mem_singleton.mpr due⟩
    split
    · refine ⟨⟨rfl, .inl rfl, errors⟩, fun result answered => ?_⟩
      cases answered
      exact due
    · split
      · refine ⟨⟨rfl, .inl rfl, recorded⟩, fun result answered => ?_⟩
        cases answered
        trivial
      · have behind := exists_ahead reached (Lexer.skipUntil_reaches .termination
          (Draft.start.readOn reader.config [] reader.interner reader.lexer).2.2).1
        split
        · refine ⟨⟨rfl, .inl rfl, recorded⟩, fun result answered => ?_⟩
          cases answered
          trivial
        · next lexer skipped =>
          have skipping : ((Draft.start.readOn reader.config [] reader.interner
            reader.lexer).2.2).skipUntil .termination = (.ok (), lexer) := skipped
          rw [skipping] at behind
          exact ⟨⟨rfl, .inr behind, recorded⟩, nofun⟩

theorem Abides.next (abides : reader.Abides config origin) :
    reader.next.2.Abides config origin ∧ (Reply.game reader.next.1).IsDue config origin := by
  induction reader using next_induction with
  | done reader done =>
    rw [next_of_isDone done]
    exact ⟨abides, trivial⟩
  | limit reader running limit =>
    rw [next_of_atLimit running limit]
    exact ⟨⟨abides.settings, .inl rfl, abides.errors⟩, trivial⟩
  | answered reader result after running room passed =>
    obtain ⟨later, due⟩ := abides.pass running
    rw [passed] at later due
    rw [next_of_answered running room passed]
    exact ⟨later, due result rfl⟩
  | again reader after running room passed inductionHypothesis =>
    obtain ⟨later, _⟩ := abides.pass running
    rw [passed] at later
    rw [next_of_again running room passed]
    exact inductionHypothesis later

theorem Abides.answer (abides : reader.Abides config origin) (request : Request) :
    (reader.answer request).2.Abides config origin ∧
      (reader.answer request).1.IsDue config origin := by
  cases request with
  | next => exact abides.next
  | skipGame => exact abides.skipGame
  | close => exact ⟨⟨abides.settings, .inl rfl, abides.errors⟩, trivial⟩

theorem Abides.answers (abides : reader.Abides config origin) (requests : List Request) :
    ∀ answer ∈ reader.answers requests, answer.1.IsDue config origin ∧
      ∀ error ∈ answer.2.1, error.IsDue config origin := by
  induction requests generalizing reader with
  | nil => exact List.forall_mem_nil _
  | cons request rest inductionHypothesis =>
    obtain ⟨later, due⟩ := abides.answer request
    exact List.forall_mem_cons.mpr ⟨⟨due, later.errors⟩, inductionHypothesis later⟩

end Reader

/-- Every token that a lexer comes to covers what its kind admits. The text of each move number is
read as the value of its digits, cut to the largest number. What a reader returns and records is due
to such tokens: it refuses none for its text but zeros that strictness does not allow, and the
numbers of its games are numbers read. -/
theorem tokens_admit_and_errors_are_due [Hashable HeaderPair] :
    (∀ source : Source, source.IsHonest → ∀ requests : List Lexer.Request,
      (∀ step ∈ (Lexer.ofSource source).course requests, step.1.Settled step.2) ∧
      ((∀ answer ∈ (Lexer.ofSource source).answers requests, answer.1 = .ok ()) →
        ∀ answer ∈ (Lexer.ofSource source).answers requests,
          ∃ reached ∈ Lexer.ofSource source ::
            ((Lexer.ofSource source).course requests).map Prod.snd,
            answer.2 = reached.view)) ∧
    (∀ (lexer : Lexer) (token : Token), lexer.Brings token → token.kind = .moveNumber →
      Bytes.number? LineDraft.largestNumber token.text =
        some (min token.text.decimalValue 4294967295)) ∧
    ∀ (config : Config) (lexer : Lexer) (requests : List Reader.Request),
      ∀ answer ∈ (Reader.start config lexer).answers requests, answer.1.IsDue config lexer ∧
        ∀ error ∈ answer.2.1, error.IsDue config lexer := by
  refine ⟨fun source honest requests => Lexer.settled_course requests honest,
    fun lexer token brings kind => ?_, fun config lexer requests => ?_⟩
  · rw [Bytes.number?, if_pos (brings.number kind), Bytes.boundedNumber_eq]
    rfl
  · have begun : (Reader.start config lexer).Abides config lexer :=
      ⟨rfl, .inr ⟨0, rfl⟩, List.forall_mem_nil _⟩
    exact begun.answers requests

/-- A game whose only move has the number zero. -/
def Source.zeroth : Source := .ofBytes [0x30, Ascii.dot, 0x65, 0x34, Ascii.star]

/-- Settings that refuse that number and go on. -/
def Config.zeroless : Config := { Config.standard with strict := true, stopOnError := false }

open scoped PairHash

theorem zeroth_admits_and_errors_are_due :
    Source.zeroth.IsHonest ∧
    (∀ answer ∈ (Lexer.ofSource .zeroth).answers [.advance, .skipUntil .termination],
      answer.1 = .ok ()) ∧
    (∀ step ∈ (Lexer.ofSource .zeroth).course [.advance, .skipUntil .termination],
      step.1.Settled step.2) ∧
    (∀ answer ∈ (Lexer.ofSource .zeroth).answers [.advance, .skipUntil .termination],
      ∃ reached ∈ Lexer.ofSource .zeroth ::
        ((Lexer.ofSource .zeroth).course [.advance, .skipUntil .termination]).map Prod.snd,
        answer.2 = reached.view) ∧
    (Lexer.ofSource .zeroth).Brings ⟨.moveNumber, [0x30], ⟨1, 0, 0⟩⟩ ∧
    Bytes.number? LineDraft.largestNumber [0x30] =
      some (min (Bytes.decimalValue [0x30]) 4294967295) ∧
    ((Reader.start .zeroless (.ofSource .zeroth)).answers [.next]).map (·.2.1) =
      [[.unexpectedToken .moveNumber [.moveNumber] ⟨1, 0, 0⟩]] ∧
    ∀ answer ∈ (Reader.start .zeroless (.ofSource .zeroth)).answers [.next],
      answer.1.IsDue .zeroless (.ofSource .zeroth) ∧
        ∀ error ∈ answer.2.1, error.IsDue .zeroless (.ofSource .zeroth) := by
  obtain ⟨tokens, numbers, due⟩ := tokens_admit_and_errors_are_due
  have honest : Source.zeroth.IsHonest := trivial
  have succeed : ∀ answer ∈ (Lexer.ofSource .zeroth).answers [.advance, .skipUntil .termination],
      answer.1 = .ok () := by decide +kernel
  obtain ⟨settled, seen⟩ := tokens .zeroth honest [.advance, .skipUntil .termination]
  have brings : (Lexer.ofSource .zeroth).Brings ⟨.moveNumber, [0x30], ⟨1, 0, 0⟩⟩ :=
    ⟨0, (Scan.advance.run (.ofSource .zeroth)).2, by decide +kernel, by decide +kernel⟩
  exact ⟨honest, succeed, settled, seen succeed, brings, numbers _ _ brings rfl,
    by decide +kernel, due _ _ [.next]⟩

end Scoresheet
