/-
This file shows that the lexer makes progress. Whatever a scan does, it passes a first part of the
content and nothing else, and a token that is not the last one covers at least one byte. So
discarding tokens up to one of a certain kind comes to an end, at that token or at the end of the
input.
-/

import Scoresheet.Lexer.Tokens

namespace Scoresheet

namespace Lexer

/-- From the first state the second is reached by giving up a first part of the content. -/
def Consumes (before after : Lexer) : Prop :=
  ∃ eaten, before.source.content = eaten ++ after.source.content ∧
    after.place.offset = before.place.offset + eaten.length ∧
    after.place.line = before.place.line + eaten.count Ascii.lineFeed

theorem Consumes.refl (lexer : Lexer) : lexer.Consumes lexer := ⟨[], rfl, rfl, rfl⟩

theorem Consumes.trans {first second third : Lexer} (left : first.Consumes second)
    (right : second.Consumes third) : first.Consumes third := by
  obtain ⟨early, earlyContent, earlyOffset, earlyLine⟩ := left
  obtain ⟨late, lateContent, lateOffset, lateLine⟩ := right
  refine ⟨early ++ late, by rw [earlyContent, lateContent, List.append_assoc], ?_, ?_⟩
  · rw [lateOffset, earlyOffset, List.length_append, Nat.add_assoc]
  · rw [lateLine, earlyLine, List.count_append, Nat.add_assoc]

/-- Steps that touch neither the content nor the offset and the line. -/
theorem Consumes.of_eq {before after : Lexer}
    (content : after.source.content = before.source.content)
    (offset : after.place.offset = before.place.offset)
    (line : after.place.line = before.place.line) : before.Consumes after :=
  ⟨[], by rw [content, List.nil_append], by rw [offset, List.length_nil, Nat.add_zero],
    by rw [line, List.count_nil, Nat.add_zero]⟩

theorem Reads.consumes {before after : Lexer} (reads : before.Reads after) :
    before.Consumes after := by
  obtain ⟨eaten, content, place⟩ := reads
  exact ⟨eaten, content, by rw [place, Place.offset_pass], by rw [place, Place.line_pass]⟩

theorem Consumes.offset_le {before after : Lexer} (consumes : before.Consumes after) :
    before.place.offset ≤ after.place.offset := by
  obtain ⟨eaten, _, offset, _⟩ := consumes
  omega

theorem Consumes.content_le {before after : Lexer} (consumes : before.Consumes after) :
    after.source.content.length ≤ before.source.content.length := by
  obtain ⟨eaten, content, _⟩ := consumes
  rw [content, List.length_append]
  omega

/-- What moves forward leaves less to read. -/
theorem Consumes.content_lt {before after : Lexer} (consumes : before.Consumes after)
    (forward : before.place.offset < after.place.offset) :
    after.source.content.length < before.source.content.length := by
  obtain ⟨eaten, content, offset, _⟩ := consumes
  rw [content, List.length_append]
  omega

theorem Consumes.passMark (lexer : Lexer) : lexer.Consumes lexer.passMark := by
  unfold Lexer.passMark
  split
  · exact (Reads.pass byteOrderMark.length lexer).consumes.trans (.of_eq rfl rfl rfl)
  · exact .refl lexer

theorem Consumes.settle (next : Option UInt8) (lexer : Lexer) :
    lexer.Consumes (lexer.settle next) := by
  unfold Lexer.settle
  split
  · exact .of_eq rfl rfl rfl
  · split
    · exact .of_eq rfl rfl rfl
    · split <;> exact .of_eq rfl rfl rfl

theorem Consumes.closeOpening (kind : TokenKind) (lexer : Lexer) :
    lexer.Consumes (lexer.closeOpening kind) := by
  unfold Lexer.closeOpening
  split
  · split <;> exact .of_eq rfl rfl rfl
  · exact .refl lexer

end Lexer

namespace Scan

open Lexer Ascii

/-! ### Every scan consumes -/

/-- Whatever the scan does, it gives up a first part of the content. -/
def Consuming {Value : Type} (scan : Scan Value) : Prop :=
  ∀ lexer : Lexer, lexer.Consumes (scan.run lexer).2

variable {Value Result : Type}

theorem Consuming.bind {first : Scan Value} {second : Value → Scan Result}
    (left : first.Consuming) (right : ∀ value, (second value).Consuming) :
    (first >>= second).Consuming := by
  intro lexer
  have early := left lexer
  rw [run_bind]
  split
  · next value after equation =>
    rw [equation] at early
    exact early.trans (right value after)
  · next failure after equation =>
    rw [equation] at early
    exact early

theorem Consuming.pure (value : Value) : (Pure.pure value : Scan Value).Consuming :=
  fun lexer => .refl lexer

theorem Consuming.look (view : Lexer → Value) : (look view).Consuming := fun lexer => .refl lexer

theorem Consuming.change {update : Lexer → Lexer}
    (consumes : ∀ lexer : Lexer, lexer.Consumes (update lexer)) : (change update).Consuming :=
  consumes

theorem Consuming.fill : fill.Consuming := fun lexer => (Reads.fill lexer).consumes

theorem Consuming.peek : peek.Consuming := .bind .fill fun _ => .look _

theorem Consuming.pass (count : Nat) : (pass count).Consuming :=
  fun lexer => (Reads.pass count lexer).consumes

theorem Consuming.capture (count : Nat) : (capture count).Consuming :=
  fun lexer => (Reads.capture count lexer).consumes

theorem Consuming.markStart : markStart.Consuming := fun _ => .of_eq rfl rfl rfl

theorem Consuming.captureUntil (stop : UInt8 → Bool) : (captureUntil stop).Consuming :=
  fun lexer => (runUntil_reads true stop lexer).consumes

theorem Consuming.captureLine : captureLine.Consuming :=
  .bind (.captureUntil _) fun _ => fun lexer => (Reads.dropReturn lexer).consumes

theorem Consuming.captureQuoted (closing : UInt8) : (captureQuoted closing).Consuming :=
  fun lexer => (captureQuoted_reads closing lexer).consumes

theorem Consuming.passSpace : passSpace.Consuming :=
  fun lexer => (passSpace_reads lexer).consumes

theorem Consuming.finish : finish.Consuming :=
  .bind (fun _ => .of_eq rfl rfl rfl) fun _ => .pure _

theorem Consuming.passByteOrderMark : passByteOrderMark.Consuming := by
  refine .bind (.look _) fun offset => ?_
  split
  · exact .bind .fill fun _ => fun lexer => .passMark lexer
  · exact .pure _

theorem Consuming.findScope : findScope.Consuming :=
  .bind (fun _ => .of_eq rfl rfl rfl) fun _ => .bind .passSpace fun next => fun lexer =>
    .settle next lexer

theorem Consuming.delimiter (kind : TokenKind) : (delimiter kind).Consuming :=
  .bind (.pass 1) fun _ => .pure _

theorem Consuming.terminate : terminate.Consuming :=
  .bind (fun _ => .of_eq rfl rfl rfl) fun _ => .pure _

theorem Consuming.quotedToken (closing : UInt8) (text close : TokenKind) :
    (quotedToken closing text close).Consuming := by
  refine .bind .markStart fun _ => .bind .peek fun next => ?_
  split
  · exact .finish
  · split
    · exact .delimiter _
    · exact .bind (.captureQuoted _) fun _ => .pure _

theorem Consuming.headerTokenAt (byte : UInt8) : (headerTokenAt byte).Consuming := by
  refine .bind (.look _) fun previous => ?_
  split
  · exact .delimiter _
  · split
    · exact .bind (.pass 1) fun _ => .bind (fun _ => .of_eq rfl rfl rfl) fun _ => .pure _
    · split
      · exact .delimiter _
      · exact .bind (.captureUntil _) fun _ => .pure _

theorem Consuming.spacedToken {token : UInt8 → Scan TokenKind}
    (each : ∀ byte, (token byte).Consuming) : (spacedToken token).Consuming := by
  refine .bind .passSpace fun next => ?_
  split
  · exact .finish
  · exact .bind .markStart fun _ => each _

theorem Consuming.separatorToken : separatorToken.Consuming :=
  .bind .markStart fun _ => .bind (.captureUntil _) fun _ => .pure _

theorem Consuming.headerToken : headerToken.Consuming := by
  refine .bind (.look _) fun kind => ?_
  split
  · exact .quotedToken _ _ _
  · refine .bind .peek fun next => ?_
    split
    · split
      · exact .separatorToken
      · exact .spacedToken .headerTokenAt
    · exact .spacedToken .headerTokenAt
  · exact .spacedToken .headerTokenAt

theorem Consuming.behindDigits (next : Option UInt8) : (behindDigits next).Consuming := by
  unfold Scan.behindDigits
  split
  · split
    · exact .bind (.captureUntil _) fun _ => .look _
    · exact .pure _
  · exact .pure _

theorem Consuming.numberToken : numberToken.Consuming :=
  .bind (.captureUntil _) fun _ => .bind .peek .behindDigits

theorem Consuming.digitToken : digitToken.Consuming := by
  refine .bind (.look _) fun buffer => ?_
  split
  · exact .bind (.capture _) fun _ => .terminate
  · exact .numberToken

theorem Consuming.moveToken : moveToken.Consuming := by
  refine .bind (.captureUntil _) fun _ => .bind (.look _) fun span => ?_
  split
  · exact .pure _
  · exact .look _

theorem Consuming.movetextTokenAt (byte : UInt8) : (movetextTokenAt byte).Consuming := by
  unfold Scan.movetextTokenAt
  repeat' split
  · exact .delimiter _
  · exact .bind (.pass 1) fun _ => .bind .captureLine fun _ => .pure _
  · exact .bind (.capture 1) fun _ => .bind (.captureUntil _) fun _ => .pure _
  · exact .bind (.captureUntil _) fun _ => .pure _
  · exact .bind (.capture 1) fun _ => .terminate
  · exact .bind (.captureUntil _) fun _ => .bind (.look _) fun _ => .pure _
  · exact .digitToken
  · exact .bind (.capture 1) fun _ => .pure _
  · exact .moveToken

theorem Consuming.movetextToken : movetextToken.Consuming := by
  refine .bind (.look _) fun kind => ?_
  split
  · exact .quotedToken _ _ _
  · exact .spacedToken .movetextTokenAt

theorem Consuming.scopedToken : scopedToken.Consuming := by
  refine .bind (.look _) fun scope => ?_
  split
  · exact .finish
  · exact .headerToken
  · exact .bind .movetextToken fun kind => .bind (fun lexer => .closeOpening kind lexer) fun _ =>
      .pure _
  · exact .bind .movetextToken fun kind => .bind (fun lexer => .closeOpening kind lexer) fun _ =>
      .pure _

theorem Consuming.nextToken : nextToken.Consuming := by
  refine .bind (.look _) fun unsettled => ?_
  split
  · exact .bind .passByteOrderMark fun _ => .bind .findScope fun _ => .scopedToken
  · exact .scopedToken

theorem Consuming.advance : advance.Consuming :=
  .bind (fun _ => .of_eq rfl rfl rfl) fun _ => .bind .nextToken fun _ => fun _ => .of_eq rfl rfl rfl

/-! ### Tokens move forward -/

/-- From the states described, the scan passes at least one byte if it succeeds. -/
def MovesOn (scan : Scan Value) (ready : Lexer → Prop) : Prop :=
  ∀ (lexer after : Lexer) (value : Value), ready lexer → scan.run lexer = (.ok value, after) →
    lexer.place.offset < after.place.offset

/-- The given byte is the next one. -/
def Facing (byte : UInt8) (lexer : Lexer) : Prop := lexer.source.buffer.head? = some byte

theorem MovesOn.bind_left {ready : Lexer → Prop} {first : Scan Value}
    {second : Value → Scan Result} (left : first.MovesOn ready)
    (right : ∀ value, (second value).Consuming) : (first >>= second).MovesOn ready := by
  intro lexer after value holds success
  obtain ⟨value, middle, found, onward⟩ := run_bind_ok success
  have late := (right value middle).offset_le
  rw [onward] at late
  exact Nat.lt_of_lt_of_le (left lexer middle value holds found) late

theorem MovesOn.bind_look {ready : Lexer → Prop} {view : Lexer → Value}
    {second : Value → Scan Result} (right : ∀ value, (second value).MovesOn ready) :
    (look view >>= second).MovesOn ready := by
  intro lexer after value holds success
  rw [run_bind, run_look] at success
  exact right (view lexer) lexer after value holds success

theorem MovesOn.take (keep : Bool) {count : Nat} {byte : UInt8} (some : 0 < count) :
    (change (·.take keep count)).MovesOn (Facing byte) := by
  intro lexer after value facing success
  rw [← (Prod.mk.inj success).2]
  refine offset_lt_take keep some fun empty => ?_
  rw [Facing, empty] at facing
  cases facing

theorem MovesOn.pass {byte : UInt8} : (Scan.pass 1).MovesOn (Facing byte) :=
  MovesOn.take false Nat.zero_lt_one

theorem MovesOn.capture {count : Nat} {byte : UInt8} (some : 0 < count) :
    (Scan.capture count).MovesOn (Facing byte) :=
  MovesOn.take true some

theorem MovesOn.captureUntil {stop : UInt8 → Bool} {byte : UInt8} (onward : stop byte = false) :
    (Scan.captureUntil stop).MovesOn (Facing byte) :=
  fun _ _ _ facing success => runUntil_forward_of_head facing onward success

theorem MovesOn.delimiter {kind : TokenKind} {byte : UInt8} :
    (delimiter kind).MovesOn (Facing byte) :=
  .bind_left .pass fun _ => .pure _

theorem MovesOn.headerTokenAt {byte : UInt8} (significant : isSpace byte = false) :
    (headerTokenAt byte).MovesOn (Facing byte) := by
  refine .bind_look fun previous => ?_
  split
  · exact .delimiter
  · split
    · exact .bind_left .pass fun _ => .bind (fun _ => .of_eq rfl rfl rfl) fun _ => .pure _
    · split
      · exact .delimiter
      · refine .bind_left (.captureUntil ?_) fun _ => .pure _
        simp_all

theorem MovesOn.digitToken {byte : UInt8} (digit : isDigit byte = true) :
    (digitToken).MovesOn (Facing byte) := by
  refine .bind_look fun buffer => ?_
  split
  · next marker found =>
    refine .bind_left (.capture ?_) fun _ => .terminate
    have member := List.mem_of_find?_eq_some found
    simp only [numericMarkers, List.mem_cons, List.not_mem_nil, or_false] at member
    rcases member with rfl | rfl | rfl <;> exact Nat.succ_pos _
  · exact .bind_left (.captureUntil (by rw [digit]; rfl)) fun _ => .bind .peek .behindDigits

/-- A byte that begins no other token ends no run. -/
theorem isDelimiter_eq_false {byte : UInt8} (significant : isSpace byte = false)
    (delimiter : delimiterKind? byte = none) (semicolon : byte ≠ semicolon)
    (dollar : byte ≠ dollar) (star : byte ≠ star) (dot : byte ≠ dot)
    (stray : ¬(byte = openBracket ∨ byte = closeBracket ∨ byte = quote)) :
    isDelimiter byte = false := by
  grind [isDelimiter, delimiterKind?]

theorem MovesOn.movetextTokenAt {byte : UInt8} (significant : isSpace byte = false) :
    (movetextTokenAt byte).MovesOn (Facing byte) := by
  unfold Scan.movetextTokenAt
  split
  · exact .delimiter
  · next delimiter =>
    split
    · exact .bind_left .pass fun _ => .bind .captureLine fun _ => .pure _
    · next semicolon =>
      split
      · exact .bind_left (.capture Nat.zero_lt_one) fun _ => .bind (.captureUntil _) fun _ =>
          .pure _
      · next dollar =>
        split
        · next mark =>
          refine .bind_left (.captureUntil ?_) fun _ => .pure _
          rcases mark with rfl | rfl <;> rfl
        · split
          · exact .bind_left (.capture Nat.zero_lt_one) fun _ => .terminate
          · next star =>
            split
            · next equal =>
              refine .bind_left (.captureUntil ?_) fun _ => .bind (.look _) fun _ => .pure _
              rw [equal]
              rfl
            · next dot =>
              split
              · next digit => exact .digitToken digit
              · split
                · exact .bind_left (.capture Nat.zero_lt_one) fun _ => .pure _
                · next stray =>
                  refine .bind_left (.captureUntil ?_) fun _ => .bind (.look _) fun span => ?_
                  · exact isDelimiter_eq_false significant delimiter semicolon dollar star dot
                      stray
                  · split
                    · exact .pure _
                    · exact .look _

/-! ### A token that is not the last moves forward -/

/-- The scan passes at least one byte, or finds nothing more to read, if it succeeds. -/
def Ending (scan : Scan TokenKind) : Prop :=
  ∀ (lexer after : Lexer) (kind : TokenKind), scan.run lexer = (.ok kind, after) →
    lexer.place.offset < after.place.offset ∨
      kind = .undefined ∧ after.scope = .outside ∧ after.unsettled = false

theorem Ending.finish : finish.Ending := by
  intro lexer after kind success
  have parts := Prod.mk.inj success
  exact .inr ⟨(Except.ok.inj parts.1).symm, by rw [← parts.2]; exact ⟨rfl, rfl⟩⟩

theorem Ending.bind {first : Scan Value} {second : Value → Scan TokenKind}
    (left : first.Consuming) (right : ∀ value, (second value).Ending) :
    (first >>= second).Ending := by
  intro lexer after kind success
  obtain ⟨value, middle, found, onward⟩ := run_bind_ok success
  have early := (left lexer).offset_le
  rw [found] at early
  exact (right value middle after kind onward).imp_left (Nat.lt_of_le_of_lt early)

/-- A look at the next byte, and then a token that depends on it. -/
theorem Ending.bind_peek {second : Option UInt8 → Scan TokenKind}
    (last : (second none).Ending)
    (each : ∀ byte, (second (some byte)).MovesOn (Facing byte) ∨ (second (some byte)).Ending) :
    (Scan.peek >>= second).Ending := by
  intro lexer after kind success
  have early := (Reads.fill lexer).offset_le
  have moved : (second (Scan.fill.run lexer).2.source.buffer.head?).run (Scan.fill.run lexer).2 =
      (.ok kind, after) := by
    obtain ⟨next, filled, peeked, onward⟩ := run_bind_ok success
    obtain ⟨_, middle, filling, looked⟩ := run_bind_ok peeked
    cases looked
    rw [filling]
    exact onward
  cases facing : (Scan.fill.run lexer).2.source.buffer.head? with
  | none =>
    rw [facing] at moved
    exact (last _ _ _ moved).imp_left (Nat.lt_of_le_of_lt early)
  | some byte =>
    rw [facing] at moved
    rcases each byte with forward | ending
    · exact .inl (Nat.lt_of_le_of_lt early (forward _ _ _ facing moved))
    · exact (ending _ _ _ moved).imp_left (Nat.lt_of_le_of_lt early)

theorem Ending.spacedToken {token : UInt8 → Scan TokenKind}
    (each : ∀ byte, isSpace byte = false → (token byte).MovesOn (Facing byte)) :
    (spacedToken token).Ending := by
  intro lexer after kind success
  have early := (passSpace_reads lexer).offset_le
  obtain ⟨next, middle, passed, token⟩ := run_bind_ok success
  have reading : Lexer.passSpace lexer = (.ok next, middle) := passed
  rw [reading] at early
  cases next with
  | none => exact (Ending.finish _ _ _ token).imp_left (Nat.lt_of_le_of_lt early)
  | some byte =>
    have facing : Facing byte middle := passSpace_head reading
    exact .inl (Nat.lt_of_le_of_lt early (each byte (passSpace_significant reading)
      middle.markStart after kind facing token))

theorem Ending.quotedToken (closing : UInt8) (text close : TokenKind) :
    (quotedToken closing text close).Ending := by
  refine .bind .markStart fun _ => .bind_peek .finish fun byte => .inl ?_
  simp only
  split
  · exact .delimiter
  · next onward =>
    refine .bind_left ?_ fun _ => .pure _
    exact fun lexer after value facing success => captureQuoted_forward facing onward success

theorem Ending.headerToken : headerToken.Ending := by
  have spaced : (Scan.spacedToken headerTokenAt).Ending :=
    .spacedToken fun byte significant => .headerTokenAt significant
  refine .bind (.look _) fun kind => ?_
  split
  · exact .quotedToken _ _ _
  · refine .bind_peek spaced fun byte => ?_
    simp only
    split
    · next blank =>
      have run : (Scan.captureUntil (!isBlank ·)).MovesOn (Facing byte) :=
        .captureUntil (by rw [blank]; rfl)
      exact .inl fun lexer after kind facing success =>
        run.bind_left (fun _ => Consuming.pure TokenKind.separator) lexer.markStart after kind
          facing success
    · exact .inr spaced
  · exact spaced

theorem Ending.movetextToken : movetextToken.Ending := by
  refine .bind (.look _) fun kind => ?_
  split
  · exact .quotedToken _ _ _
  · exact .spacedToken fun byte significant => .movetextTokenAt significant

/-- Closing the opening does not hide that nothing more can be read. -/
theorem Ending.closeOpening {token : Scan TokenKind} (ending : token.Ending) :
    (do
      let kind ← token
      change (Lexer.closeOpening kind)
      return kind : Scan TokenKind).Ending := by
  intro lexer after kind success
  obtain ⟨kind, told, found, closed⟩ := run_bind_ok success
  cases closed
  rcases ending lexer told kind found with forward | ⟨undefined, outside, settled⟩
  · exact .inl (Nat.lt_of_lt_of_le forward (Consumes.closeOpening kind told).offset_le)
  · refine .inr ⟨undefined, ?_⟩
    subst undefined
    unfold Lexer.closeOpening
    split <;> exact ⟨outside, settled⟩

theorem Ending.scopedToken : scopedToken.Ending := by
  refine .bind (.look _) fun scope => ?_
  split
  · exact .finish
  · exact .headerToken
  · exact .closeOpening .movetextToken
  · exact .closeOpening .movetextToken

theorem Ending.nextToken : nextToken.Ending := by
  refine .bind (.look _) fun unsettled => ?_
  split
  · exact .bind .passByteOrderMark fun _ => .bind .findScope fun _ => .scopedToken
  · exact .scopedToken

end Scan

namespace Lexer

/-- The next token becomes the current one. -/
theorem nextToken_of_advance {lexer after : Lexer}
    (success : Scan.advance.run lexer = (.ok (), after)) :
    ∃ kind told, Scan.nextToken.run { lexer with captured := [] } = (.ok kind, told) ∧
      { told with kind } = after := by
  obtain ⟨_, _, emptied, onward⟩ := Scan.run_bind_ok success
  cases emptied
  obtain ⟨kind, told, found, ended⟩ := Scan.run_bind_ok onward
  exact ⟨kind, told, found, (Prod.mk.inj ended).2⟩

/-- A new token covers at least one byte, or is the last: it is undefined, and no more tokens will
be produced. -/
theorem advance_forward {lexer after : Lexer} (success : Scan.advance.run lexer = (.ok (), after)) :
    lexer.place.offset < after.place.offset ∨
      after.kind = .undefined ∧ after.isExhausted = true := by
  obtain ⟨kind, told, found, rfl⟩ := nextToken_of_advance success
  refine (Scan.Ending.nextToken _ _ _ found).imp id fun ended => ⟨ended.1, ?_⟩
  simp only [isExhausted, ended.2.1, ended.2.2]
  rfl

/-- Asking for a token, whatever comes of it. -/
theorem consumes_of_advance {lexer after : Lexer} {result : Except Failure Unit}
    (asked : Scan.advance.run lexer = (result, after)) : lexer.Consumes after := by
  have consumes := Scan.Consuming.advance lexer
  rwa [asked] at consumes

theorem offset_lt_of_advance {lexer after : Lexer}
    (success : Scan.advance.run lexer = (.ok (), after)) (more : after.isExhausted = false) :
    lexer.place.offset < after.place.offset := by
  refine (advance_forward success).resolve_right fun ended => ?_
  rw [ended.2] at more
  cases more

/-- A token that is not the last leaves less to read. -/
theorem content_lt_of_advance {lexer after : Lexer}
    (success : Scan.advance.run lexer = (.ok (), after)) (more : after.isExhausted = false) :
    after.source.content.length < lexer.source.content.length :=
  (consumes_of_advance success).content_lt (offset_lt_of_advance success more)

/-- Discards tokens until the current one is of the given kind or none is left. -/
def skipUntil (kind : TokenKind) (lexer : Lexer) : Except Failure Unit × Lexer :=
  if lexer.kind = kind ∨ lexer.isExhausted then (.ok (), lexer)
  else
    match _ : Scan.advance.run lexer with
    | (.error failure, after) => (.error failure, after)
    | (.ok (), after) => if _ : after.isExhausted then (.ok (), after) else skipUntil kind after
termination_by lexer.source.content.length
decreasing_by
  rename_i success more
  exact content_lt_of_advance success (Bool.eq_false_iff.mpr more)

theorem skipUntil_of_stopped {kind : TokenKind} {lexer : Lexer}
    (stopped : lexer.kind = kind ∨ lexer.isExhausted = true) :
    lexer.skipUntil kind = (.ok (), lexer) := by
  rw [skipUntil, if_pos stopped]

theorem skipUntil_of_advance {kind : TokenKind} {lexer after : Lexer}
    (onward : ¬ (lexer.kind = kind ∨ lexer.isExhausted = true))
    (success : Scan.advance.run lexer = (.ok (), after)) :
    lexer.skipUntil kind = after.skipUntil kind := by
  rw [skipUntil, if_neg onward]
  split
  · next failed =>
    rw [success] at failed
    cases failed
  · next found again =>
    rw [success] at again
    cases again
    split
    · next last => exact (skipUntil_of_stopped (.inr last)).symm
    · rfl

end Lexer

end Scoresheet
