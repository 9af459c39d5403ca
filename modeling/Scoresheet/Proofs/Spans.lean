/-
This file says which bytes a header name and a move are written with. Both are runs that end at the
first byte of a certain class, and begin with a byte that is none of them: a header name ends at
white space, a quote or a bracket, and a move at a delimiter. A move that begins with digits is made
of two runs, of which the first one has digits only.

The lexer looks at the bytes themselves, so this holds over every source, whatever it claims.
-/

import Scoresheet.Proofs.Segments
import Scoresheet.Proofs.Spelling

namespace Scoresheet

/-- The bytes that end a header name. -/
def Ascii.endsName (byte : UInt8) : Bool :=
  isSpace byte || byte == quote || byte == closeBracket || byte == openBracket

/-- The text is a run of bytes none of which ends it. -/
def Bytes.IsRun (stop : UInt8 → Bool) (text : Bytes) : Prop :=
  text ≠ [] ∧ ∀ byte ∈ text, stop byte = false

/-- The span is written as header names and moves are. Nothing is said of other tokens. -/
def TokenKind.IsClean (span : Bytes) : TokenKind → Prop
  | headerName => span.IsRun Ascii.endsName
  | whiteMove => span.IsRun Ascii.isDelimiter
  | blackMove => span.IsRun Ascii.isDelimiter
  | _ => True

namespace Lexer

variable {lexer after : Lexer} {stop : UInt8 → Bool}

/-- What a run adds to the token does not stop it. -/
theorem span_of_captureUntil (success : runUntil true stop lexer = (.ok (), after)) :
    ∃ run, after.span = lexer.span ++ run ∧ ∀ byte ∈ run, stop byte = false := by
  obtain ⟨run, added, onward⟩ := span_captureUntil stop lexer
  rw [success] at added
  exact ⟨run, added, fun byte member => by simpa using List.all_eq_true.mp onward byte member⟩

end Lexer

namespace Scan

open Lexer Ascii

variable {text : Bytes} {byte : UInt8}

/-- The scan tells tokens that are written as their kinds are. -/
def Cleans (scan : Scan TokenKind) (before : Lexer → Prop) : Prop :=
  scan.Leads before fun kind lexer => kind.IsClean lexer.span

/-- The kinds of which nothing is said. -/
abbrev IsOther (scan : Scan TokenKind) : Prop := scan.Gives fun kind => ∀ span, kind.IsClean span

theorem IsOther.cleans {scan : Scan TokenKind} {before : Lexer → Prop} (other : scan.IsOther) :
    scan.Cleans before :=
  fun lexer later kind _ success => other lexer later kind trivial success later.span

/-- At the first byte of the next token. -/
abbrev IsAhead (text : Bytes) (byte : UInt8) (lexer : Lexer) : Prop :=
  lexer.IsFresh text ∧ Facing byte lexer

/-- A run that goes over the byte in sight is the first part of the token. -/
theorem Leads.captureUntil {stop : UInt8 → Bool} (onward : stop byte = false) :
    (Scan.captureUntil stop).Leads (IsAhead text byte) fun _ lexer => lexer.span.IsRun stop := by
  intro lexer later value ahead success
  obtain ⟨run, added, inside⟩ := span_of_captureUntil success
  rw [ahead.1.span, List.nil_append] at added
  exact ⟨span_captureUntil_ne_nil ahead.2 onward success, added ▸ inside⟩

/-- More of a run, and not necessarily something. -/
theorem Leads.captureMore {stop : UInt8 → Bool} :
    (Scan.captureUntil stop).Leads (fun lexer => lexer.span.IsRun stop)
      fun _ lexer => lexer.span.IsRun stop := by
  intro lexer later value begun success
  obtain ⟨run, added, inside⟩ := span_of_captureUntil success
  rw [added]
  exact ⟨fun none => begun.1 (List.append_eq_nil_iff.mp none).1,
    List.forall_mem_append.mpr ⟨begun.2, inside⟩⟩

/-- Whichever side the move is of, the span is that of a move. -/
theorem Cleans.moveKind : moveKind.Cleans fun lexer => lexer.span.IsRun isDelimiter := by
  refine Leads.look fun lexer run => ?_
  cases lexer.kind <;> first | exact run | trivial

theorem Cleans.moveToken (inside : isDelimiter byte = false) :
    moveToken.Cleans (IsAhead text byte) := by
  refine (Leads.captureUntil inside).bind fun _ => .bind_look fun span => ?_
  split
  · exact .pure fun _ _ => trivial
  · exact Cleans.moveKind

/-- Digits end neither a number nor a move. -/
theorem Cleans.numberToken (digit : isDigit byte = true) :
    numberToken.Cleans (IsAhead text byte) := by
  have digits : (Scan.captureUntil (!isDigit ·)).Leads (IsAhead text byte)
      fun _ lexer => lexer.span.IsRun isDelimiter := by
    intro lexer later value ahead success
    obtain ⟨some, all⟩ := Leads.captureUntil (by rw [digit]; rfl) lexer later value ahead success
    exact ⟨some, fun byte member => isDelimiter_of_isDigit (by simpa using all byte member)⟩
  refine digits.bind fun _ => (Leads.peek fun _ _ run => run).bind fun next => ?_
  unfold Scan.behindDigits
  split
  · split
    · exact Leads.captureMore.bind fun _ => Cleans.moveKind
    · exact .pure fun _ _ => trivial
  · exact .pure fun _ _ => trivial

theorem Cleans.digitToken (digit : isDigit byte = true) :
    digitToken.Cleans (IsAhead text byte) := by
  refine .bind_look fun buffer => ?_
  split
  · exact IsOther.cleans (.bind fun _ => .bind fun _ => .pure fun _ => trivial)
  · exact Cleans.numberToken digit

theorem isClean_delimiterKind? {kind : TokenKind} (found : delimiterKind? byte = some kind)
    (span : Bytes) : kind.IsClean span := by
  unfold delimiterKind? at found
  repeat' split at found
  all_goals
    cases found
    try trivial

theorem Cleans.movetextTokenAt (significant : isSpace byte = false) :
    (movetextTokenAt byte).Cleans (IsAhead text byte) := by
  -- A move begins with a digit or with a byte that is none of those that are asked for first.
  unfold Scan.movetextTokenAt
  split
  · next kind found => exact IsOther.cleans (.delimiter (isClean_delimiterKind? found))
  · next delimiter =>
    split
    · exact IsOther.cleans (.bind fun _ => .bind fun _ => .pure fun _ => trivial)
    · next semicolon =>
      split
      · exact IsOther.cleans (.bind fun _ => .bind fun _ => .pure fun _ => trivial)
      · next dollar =>
        split
        · exact IsOther.cleans (.bind fun _ => .pure fun _ => trivial)
        · split
          · exact IsOther.cleans (.bind fun _ => .bind fun _ => .pure fun _ => trivial)
          · next star =>
            split
            · refine IsOther.cleans (.bind fun _ => .bind fun _ => .pure ?_)
              split <;> exact fun _ => trivial
            · next dot =>
              split
              · next digit => exact .digitToken digit
              · split
                · exact IsOther.cleans (.bind fun _ => .pure fun _ => trivial)
                · next stray =>
                  exact .moveToken
                    (isDelimiter_eq_false significant delimiter semicolon dollar star dot stray)

theorem Cleans.headerTokenAt (significant : isSpace byte = false) :
    (headerTokenAt byte).Cleans (IsAhead text byte) := by
  refine .bind_look fun previous => ?_
  split
  · exact IsOther.cleans (.delimiter fun _ => trivial)
  · next opening =>
    split
    · exact IsOther.cleans (.bind fun _ => .bind fun _ => .pure fun _ => trivial)
    · next closing =>
      split
      · refine IsOther.cleans (.delimiter ?_)
        split <;> exact fun _ => trivial
      · next quoted =>
        have onward : endsName byte = false := by
          simp [endsName, significant, opening, closing, quoted]
        have run : (Scan.captureUntil endsName).Leads (IsAhead text byte) _ :=
          .captureUntil onward
        refine run.bind fun _ => .pure fun lexer named => ?_
        split
        · exact named
        · trivial

/-- White space is not kept, and a byte that is none is in sight behind it. -/
theorem Cleans.spacedToken {token : UInt8 → Scan TokenKind}
    (each : ∀ byte, isSpace byte = false → (token byte).Cleans (IsAhead text byte)) :
    (spacedToken token).Cleans (IsFresh text) := by
  have space : Scan.passSpace.Leads (IsFresh text) fun next lexer =>
      ∀ byte, next = some byte → IsAhead text byte lexer ∧ isSpace byte = false := by
    intro lexer later next fresh success byte found
    obtain ⟨still, facing⟩ := Leads.passSpace lexer later next fresh success
    rw [found] at success
    exact ⟨⟨still, facing byte found⟩, passSpace_significant success⟩
  refine space.bind fun next => ?_
  split
  · exact IsOther.cleans (Gives.finish fun _ => trivial)
  · next byte =>
    have marked : Scan.markStart.Leads
        (fun lexer => ∀ other, some byte = some other →
          IsAhead text other lexer ∧ isSpace other = false)
        fun _ lexer => IsAhead text byte lexer ∧ isSpace byte = false :=
      .change fun lexer ahead =>
        ⟨⟨(ahead byte rfl).1.1.reads rfl (.of_eq rfl rfl rfl), (ahead byte rfl).1.2⟩,
          (ahead byte rfl).2⟩
    exact marked.bind fun _ lexer later kind holds success =>
      each byte holds.2 lexer later kind holds.1 success

theorem Cleans.headerToken : headerToken.Cleans (IsFresh text) := by
  have spaced : (Scan.spacedToken Scan.headerTokenAt).Cleans (IsFresh text) :=
    .spacedToken fun _ significant => .headerTokenAt significant
  have filled : Scan.fill.Leads (IsFresh text) fun _ => IsFresh text := .fresh .fill fun _ => rfl
  have peeked : Scan.peek.Leads (IsFresh text) fun _ => IsFresh text :=
    filled.bind fun _ => .look fun _ fresh => fresh
  refine .bind_look fun kind => ?_
  split
  · exact IsOther.cleans (.quotedToken (fun _ => trivial) (fun _ => trivial) fun _ => trivial)
  · refine peeked.bind fun next => ?_
    split
    · split
      · exact IsOther.cleans (.bind fun _ => .bind fun _ => .pure fun _ => trivial)
      · exact spaced
    · exact spaced
  · exact spaced

theorem Cleans.movetextToken : movetextToken.Cleans (IsFresh text) := by
  refine .bind_look fun kind => ?_
  split
  · exact IsOther.cleans (.quotedToken (fun _ => trivial) (fun _ => trivial) fun _ => trivial)
  · exact Cleans.spacedToken fun _ significant => .movetextTokenAt significant

theorem Cleans.scopedToken : scopedToken.Cleans (IsFresh text) := by
  have movetext : (do
      let kind ← Scan.movetextToken
      Scan.change (Lexer.closeOpening kind)
      return kind : Scan TokenKind).Cleans (IsFresh text) := by
    refine Leads.bind Cleans.movetextToken fun kind => ?_
    have closed : (Scan.change (Lexer.closeOpening kind)).Leads (kind.IsClean ·.span)
        fun _ lexer => kind.IsClean lexer.span := by
      refine .change fun lexer clean => ?_
      unfold Lexer.closeOpening
      repeat' split
      all_goals exact clean
    exact closed.bind fun _ => .pure fun _ clean => clean
  refine .bind_look fun scope => ?_
  split
  · exact IsOther.cleans (Gives.finish fun _ => trivial)
  · exact Cleans.headerToken
  · exact movetext
  · exact movetext

theorem Cleans.nextToken : nextToken.Cleans (IsFresh text) := by
  refine .bind_look fun unsettled => ?_
  split
  · exact Leads.passByteOrderMark.bind fun _ => Leads.findScope.bind fun _ => Cleans.scopedToken
  · exact Cleans.scopedToken

end Scan

namespace Lexer

variable {lexer after : Lexer}

/-- The current token is written as tokens of its kind are. -/
theorem isClean_of_advance (success : Scan.advance.run lexer = (.ok (), after)) :
    after.kind.IsClean after.span := by
  obtain ⟨kind, told, found, rfl⟩ := nextToken_of_advance success
  exact Scan.Cleans.nextToken { lexer with captured := [] } told kind ⟨rfl, [], rfl⟩ found

/-- So are all tokens up to the next termination marker. -/
theorem isClean_segment (lexer : Lexer) :
    ∀ token ∈ lexer.segment.1, token.kind.IsClean token.text := by
  induction lexer using segment_induction with
  | failed lexer after failure failed =>
    rw [segment_of_failed failed]
    exact List.forall_mem_nil _
  | last lexer after success last =>
    rw [segment_of_last success last]
    exact List.forall_mem_nil _
  | marker lexer after success more ended =>
    rw [segment_of_marker success more ended]
    exact List.forall_mem_singleton.mpr (isClean_of_advance success)
  | inside lexer after success more other inductionHypothesis =>
    rw [segment_of_inside success more other]
    exact List.forall_mem_cons.mpr ⟨isClean_of_advance success, inductionHypothesis⟩

end Lexer

end Scoresheet
