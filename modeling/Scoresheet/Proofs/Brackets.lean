/-
This file says what can follow a header pair. Behind a closing bracket the scope is looked for anew,
and the header section goes on only with another bracket; the movetext has no tokens of a header
section. So in the tokens of a segment, directly behind a closing bracket, a token of a header
section opens the next pair. This holds over every source.
-/

import Scoresheet.Proofs.Segments

namespace Scoresheet

namespace Scan

open Lexer Ascii

/-! ### The movetext -/

/-- The scan tells no tokens of a header section. -/
abbrev IsHeaderless (scan : Scan TokenKind) : Prop := scan.Gives fun kind => kind.isHeader = false

theorem isHeader_delimiterKind? {byte : UInt8} {kind : TokenKind}
    (found : delimiterKind? byte = some kind) : kind.isHeader = false := by
  unfold delimiterKind? at found
  repeat' split at found
  all_goals
    cases found
    try rfl

theorem IsHeaderless.behindDigits (next : Option UInt8) : (behindDigits next).IsHeaderless := by
  unfold Scan.behindDigits
  split
  · split
    · exact .bind fun _ => .moveKind rfl rfl rfl
    · exact .pure rfl
  · exact .pure rfl

theorem IsHeaderless.digitToken : digitToken.IsHeaderless := by
  refine .bind fun buffer => ?_
  split
  · exact .bind fun _ => .bind fun _ => .pure rfl
  · exact .bind fun _ => .bind fun next => behindDigits next

theorem IsHeaderless.movetextTokenAt (byte : UInt8) : (movetextTokenAt byte).IsHeaderless := by
  unfold Scan.movetextTokenAt
  split
  · next found => exact .delimiter (isHeader_delimiterKind? found)
  · repeat' split
    · exact .bind fun _ => .bind fun _ => .pure rfl
    · exact .bind fun _ => .bind fun _ => .pure rfl
    · exact .bind fun _ => .pure rfl
    · exact .bind fun _ => .bind fun _ => .pure rfl
    · refine .bind fun _ => .bind fun _ => .pure ?_
      split <;> rfl
    · exact digitToken
    · exact .bind fun _ => .pure rfl
    · exact .moveToken rfl rfl rfl rfl

theorem IsHeaderless.movetextToken : movetextToken.IsHeaderless := by
  refine .bind fun kind => ?_
  split
  · exact .quotedToken rfl rfl rfl
  · exact .spacedToken rfl movetextTokenAt

/-! ### Closing brackets -/

/-- The scan tells a closing bracket only where the scope is to be found anew. -/
abbrev ClosesHeaders (scan : Scan TokenKind) : Prop :=
  scan.Leads (fun _ => True) fun kind lexer => kind = .headerEnd → lexer.unsettled = true

theorem ClosesHeaders.of_gives {scan : Scan TokenKind} (other : scan.Gives (· ≠ .headerEnd)) :
    scan.ClosesHeaders :=
  fun lexer later kind start success ends => absurd ends (other lexer later kind start success)

theorem ClosesHeaders.bind {Value : Type} {first : Scan Value} {second : Value → Scan TokenKind}
    (right : ∀ value, (second value).ClosesHeaders) : (first >>= second).ClosesHeaders :=
  Leads.bind (.any first) right

theorem ClosesHeaders.headerTokenAt (byte : UInt8) : (headerTokenAt byte).ClosesHeaders := by
  refine .bind fun previous => ?_
  split
  · exact .of_gives (.delimiter (by decide))
  · split
    · have marked : (Scan.change ({ · with unsettled := true })).Leads (fun _ => True)
          fun _ lexer => lexer.unsettled = true := .change fun _ _ => rfl
      exact .bind fun _ => Leads.bind marked fun _ => .pure fun _ unsettled _ => unsettled
    · refine .of_gives ?_
      split
      · refine .delimiter ?_
        split <;> decide
      · refine .bind fun _ => .pure ?_
        split <;> decide

theorem ClosesHeaders.headerToken : headerToken.ClosesHeaders := by
  have spaced : (spacedToken Scan.headerTokenAt).ClosesHeaders := by
    refine .bind fun next => ?_
    split
    · exact .of_gives (.finish (by decide))
    · exact .bind fun _ => headerTokenAt _
  refine .bind fun kind => ?_
  split
  · exact .of_gives (.quotedToken (by decide) (by decide) (by decide))
  · refine .bind fun next => ?_
    split
    · split
      · exact .of_gives (.bind fun _ => .bind fun _ => .pure (by decide))
      · exact spaced
    · exact spaced
  · exact spaced

/-- The scan of the movetext in `scopedToken`. -/
theorem leads_movetext : (do
    let kind ← movetextToken
    change (closeOpening kind)
    return kind : Scan TokenKind).IsHeaderless := by
  have kept : ∀ kind : TokenKind, (do
      change (closeOpening kind)
      return kind : Scan TokenKind).Leads (fun _ => kind.isHeader = false)
        fun kind _ => kind.isHeader = false := fun kind =>
    Leads.bind (.change (fun _ holds => holds) : (Scan.change (closeOpening kind)).Leads
      (fun _ => kind.isHeader = false) fun _ _ => kind.isHeader = false) fun _ =>
        .pure fun _ holds => holds
  exact Leads.bind IsHeaderless.movetextToken kept

theorem ClosesHeaders.scopedToken : scopedToken.ClosesHeaders := by
  have movetext : (do
      let kind ← movetextToken
      change (closeOpening kind)
      return kind : Scan TokenKind).ClosesHeaders := by
    refine .of_gives fun lexer later kind start success ends => ?_
    have headerless := leads_movetext lexer later kind start success
    rw [ends] at headerless
    cases headerless
  refine .bind fun scope => ?_
  split
  · exact .of_gives (.finish (by decide))
  · exact headerToken
  · exact movetext
  · exact movetext

theorem ClosesHeaders.nextToken : nextToken.ClosesHeaders := by
  refine .bind fun unsettled => ?_
  split
  · exact .bind fun _ => .bind fun _ => scopedToken
  · exact scopedToken

/-! ### Behind a closing bracket -/

/-- A bracket in sight is behind no white space. -/
theorem passSpace_of_facing {lexer later : Lexer} {next : Option UInt8}
    (facing : Facing openBracket lexer) (success : Scan.passSpace.run lexer = (.ok next, later)) :
    next = some openBracket := by
  obtain ⟨rest, inSight⟩ := List.head?_eq_some_iff.mp (head_fill facing)
  have run : Lexer.passSpace lexer = (.ok next, later) := success
  rw [Lexer.passSpace] at run
  split at run
  · cases run
  · split at run
    · next empty =>
      rw [empty] at inSight
      cases inSight
    · next byte others shown =>
      rw [shown] at inSight
      obtain ⟨rfl, _⟩ := List.cons.inj inSight
      rw [dif_neg (by decide), if_neg (fun escape => by cases escape.1)] at run
      cases run
      rfl

theorem leads_passByteOrderMark_behind_pair :
    Scan.passByteOrderMark.Leads (·.kind = .headerEnd) fun _ lexer => lexer.kind = .headerEnd := by
  refine .bind_look fun offset => ?_
  split
  · have filled : Scan.fill.Leads (·.kind = .headerEnd) fun _ lexer => lexer.kind = .headerEnd :=
      .fill fun _ _ holds => holds
    refine filled.bind fun _ => .change fun lexer holds => ?_
    unfold Lexer.passMark
    split
    · exact holds
    · exact holds
  · exact .pure fun _ holds => holds

theorem leads_findScope_behind_pair :
    Scan.findScope.Leads (·.kind = .headerEnd) fun _ lexer =>
      lexer.scope = .header → lexer.kind = .headerEnd ∧ Facing openBracket lexer := by
  have started : (Scan.change ({ · with unsettled := false })).Leads (·.kind = .headerEnd)
      fun _ lexer => lexer.kind = .headerEnd := .change fun _ holds => holds
  have space : Scan.passSpace.Leads (·.kind = .headerEnd) fun next lexer =>
      lexer.kind = .headerEnd ∧ ∀ byte, next = some byte → Facing byte lexer := by
    intro lexer later next kind success
    have skims := skims_passSpace lexer
    rw [show Lexer.passSpace lexer = _ from success] at skims
    refine ⟨skims.kind.trans kind, fun byte found => ?_⟩
    rw [found] at success
    exact passSpace_head success
  refine started.bind fun _ => space.bind fun next => .change fun lexer holds => ?_
  unfold Lexer.settle
  split
  · nofun
  · next byte =>
    split
    · next bracket => exact fun _ => ⟨holds.1, bracket ▸ holds.2 byte rfl⟩
    · split <;> nofun

theorem leads_headerToken_behind_pair :
    Scan.headerToken.Leads (fun lexer => lexer.kind = .headerEnd ∧ Facing openBracket lexer)
      fun kind _ => kind = .headerBegin := by
  intro lexer later kind ⟨ended, facing⟩ success
  unfold Scan.headerToken at success
  rw [run_bind, run_look, ended] at success
  obtain ⟨next, middle, passed, told⟩ := run_bind_ok success
  rw [passSpace_of_facing facing passed] at told
  cases told
  rfl

theorem leads_scopedToken_behind_pair :
    Scan.scopedToken.Leads
      (fun lexer => lexer.scope = .header → lexer.kind = .headerEnd ∧ Facing openBracket lexer)
      fun kind _ => kind.isHeader = true → kind = .headerBegin := by
  intro lexer later kind pair success header
  have never {scan : Scan TokenKind} (headerless : scan.IsHeaderless)
      (success : scan.run lexer = (.ok kind, later)) : kind = .headerBegin := by
    have inside := headerless lexer later kind trivial success
    dsimp only at inside
    rw [header] at inside
    cases inside
  unfold Scan.scopedToken at success
  rw [run_bind, run_look] at success
  dsimp only at success
  split at success
  · exact never (.finish rfl) success
  · next scope => exact leads_headerToken_behind_pair lexer later kind (pair scope) success
  · exact never leads_movetext success
  · exact never leads_movetext success

end Scan

namespace Lexer

variable {lexer after : Lexer}

/-- Behind a closing bracket the scope is to be found anew. -/
theorem unsettled_of_advance (success : Scan.advance.run lexer = (.ok (), after))
    (closing : after.kind = .headerEnd) : after.unsettled = true := by
  obtain ⟨kind, told, found, rfl⟩ := nextToken_of_advance success
  exact Scan.ClosesHeaders.nextToken _ told kind trivial found closing

/-- Where the scope is to be found anew behind a closing bracket, a token of a header section opens
the next pair. -/
theorem headerBegin_of_advance (closed : lexer.kind = .headerEnd)
    (unsettled : lexer.unsettled = true) (success : Scan.advance.run lexer = (.ok (), after))
    (header : after.kind.isHeader = true) :
    after.kind = .headerBegin := by
  obtain ⟨kind, told, found, rfl⟩ := nextToken_of_advance success
  unfold Scan.nextToken at found
  rw [Scan.run_bind, Scan.run_look] at found
  dsimp only at found
  rw [if_pos unsettled] at found
  have within := Scan.leads_passByteOrderMark_behind_pair.bind fun _ =>
    Scan.leads_findScope_behind_pair.bind fun _ => Scan.leads_scopedToken_behind_pair
  exact within { lexer with captured := [] } told kind closed found header

end Lexer

/-! ### The tokens of a segment -/

/-- Behind a closing bracket, a token of a header section opens a pair, in a row of tokens that
follow a token of the given kind. -/
def OpenPairs : TokenKind → List Token → Prop
  | _, [] => True
  | previous, token :: rest =>
    (previous = .headerEnd → token.kind.isHeader = true → token.kind = .headerBegin) ∧
      OpenPairs token.kind rest

namespace Lexer

theorem openPairs_of_unsettled (lexer : Lexer)
    (unsettled : lexer.kind = .headerEnd → lexer.unsettled = true) :
    OpenPairs lexer.kind lexer.segment.1 := by
  induction lexer using segment_induction with
  | failed lexer after failure failed =>
    rw [segment_of_failed failed]
    trivial
  | last lexer after advanced last =>
    rw [segment_of_last advanced last]
    trivial
  | marker lexer after advanced more marker =>
    rw [segment_of_marker advanced more marker]
    exact ⟨fun closed => headerBegin_of_advance closed (unsettled closed) advanced, trivial⟩
  | inside lexer after advanced more within inductionHypothesis =>
    rw [segment_of_inside advanced more within]
    exact ⟨fun closed => headerBegin_of_advance closed (unsettled closed) advanced,
      inductionHypothesis (unsettled_of_advance advanced)⟩

/-- The tokens of a segment, from whatever lexer and over whatever source. -/
theorem openPairs_segment (lexer : Lexer) : OpenPairs .undefined lexer.segment.1 := by
  cases advanced : Scan.advance.run lexer with
  | mk result after =>
    cases result with
    | error failure =>
      rw [segment_of_failed advanced]
      trivial
    | ok _ =>
      rw [segment_of_advance advanced]
      split
      · trivial
      · split
        · exact ⟨nofun, trivial⟩
        · exact ⟨nofun, openPairs_of_unsettled after (unsettled_of_advance advanced)⟩

end Lexer

end Scoresheet
