/-
This file holds the loops of the lexer. Each of them fills the buffer, deals with the bytes in
sight, and goes on only after the last of them was passed, so a run may be longer than any buffer.
There are three: runs that end before a certain byte, white space with escaped lines, and text up
to a closing byte that no backslash takes along.

Every loop only reads on, whether it succeeds or is cut short.
-/

import Scoresheet.Lexer.Basic

namespace Scoresheet

namespace Lexer

/-- Passes bytes of the buffer, and keeps them for the current token if asked to. -/
def take (keep : Bool) (count : Nat) (lexer : Lexer) : Lexer :=
  if keep then lexer.capture count else lexer.pass count

theorem Reads.take (keep : Bool) (count : Nat) (lexer : Lexer) :
    lexer.Reads (lexer.take keep count) := by
  cases keep
  · exact Reads.pass count lexer
  · exact Reads.capture count lexer

theorem buffer_take (keep : Bool) (count : Nat) (lexer : Lexer) :
    (lexer.take keep count).source.buffer = lexer.source.buffer.drop count := by
  cases keep <;> exact Source.buffer_advance count lexer.source

theorem offset_take (keep : Bool) (count : Nat) (lexer : Lexer) :
    (lexer.take keep count).place.offset =
      lexer.place.offset + min count lexer.source.buffer.length := by
  cases keep
  · exact offset_pass count lexer
  · exact offset_capture count lexer

/-- A step that reads on and moves forward leaves less to read. -/
theorem Reads.content_lt {before after : Lexer} (reads : before.Reads after)
    (forward : before.place.offset < after.place.offset) :
    after.source.content.length < before.source.content.length := by
  have balance := reads.length_content
  omega

/-- Passing something of a buffer that is not empty moves forward. -/
theorem offset_lt_take (keep : Bool) {count : Nat} {lexer : Lexer} (some : 0 < count)
    (inSight : lexer.source.buffer ≠ []) :
    lexer.place.offset < (lexer.take keep count).place.offset := by
  have long := List.length_pos_iff.mpr inSight
  rw [offset_take]
  omega

theorem offset_lt_of_drained (keep : Bool) {count : Nat} {lexer : Lexer}
    (inSight : lexer.source.buffer ≠ [])
    (drained : (lexer.take keep count).source.buffer = []) :
    lexer.place.offset < (lexer.take keep count).place.offset := by
  have long := List.length_pos_iff.mpr inSight
  rw [buffer_take, List.drop_eq_nil_iff] at drained
  rw [offset_take]
  omega

/-! ### Runs -/

/-- Passes the bytes before the first one that stops the run. -/
def runUntil (keep : Bool) (stop : UInt8 → Bool) (lexer : Lexer) : Except Failure Unit × Lexer :=
  let answer := Scan.fill.run lexer
  let filled := answer.2
  match answer.1 with
  | .error failure => (.error failure, filled)
  | .ok () =>
    let next := filled.take keep (filled.source.buffer.takeWhile (!stop ·)).length
    if filled.source.buffer = [] then (.ok (), filled)
    else if next.source.buffer = [] then runUntil keep stop next
    else (.ok (), next)
termination_by lexer.source.content.length
decreasing_by
  have filling := Reads.fill lexer
  have forward := offset_lt_of_drained keep ‹_› ‹_›
  exact (filling.trans (Reads.take keep _ _)).content_lt
    (Nat.lt_of_le_of_lt filling.offset_le forward)

theorem runUntil_reads (keep : Bool) (stop : UInt8 → Bool) (lexer : Lexer) :
    lexer.Reads (runUntil keep stop lexer).2 := by
  fun_induction runUntil keep stop lexer with
  | case1 => exact Reads.fill _
  | case2 => exact Reads.fill _
  | case3 lexer answer filled _ next _ _ inductionHypothesis =>
    exact ((Reads.fill lexer).trans (Reads.take _ _ _)).trans inductionHypothesis
  | case4 lexer answer filled _ next => exact (Reads.fill lexer).trans (Reads.take _ _ _)

/-- Filling the buffer keeps what is in sight where it is. -/
theorem head_fill {lexer : Lexer} {byte : UInt8}
    (head : lexer.source.buffer.head? = some byte) :
    (Scan.fill.run lexer).2.source.buffer.head? = some byte := by
  obtain ⟨text, more⟩ := Source.buffer_fill lexer.source
  show lexer.source.fill.2.buffer.head? = some byte
  rw [more, List.head?_append, head]
  rfl

/-- A run over bytes in sight either moves forward or stops with bytes in sight. -/
theorem runUntil_forward {keep : Bool} {stop : UInt8 → Bool} {lexer after : Lexer}
    {byte : UInt8} (head : lexer.source.buffer.head? = some byte)
    (success : runUntil keep stop lexer = (.ok (), after)) :
    lexer.place.offset < after.place.offset ∨ after.source.buffer ≠ [] := by
  fun_induction runUntil keep stop lexer with
  | case1 => cases success
  | case2 lexer answer filled _ empty =>
    have inSight : filled.source.buffer.head? = some byte := head_fill head
    rw [empty] at inSight
    cases inSight
  | case3 lexer answer filled _ next inSight drained _ =>
    have rest := (runUntil_reads keep stop next).offset_le
    rw [success] at rest
    exact .inl (Nat.lt_of_le_of_lt (Reads.fill lexer).offset_le
      (Nat.lt_of_lt_of_le (offset_lt_of_drained keep inSight drained) rest))
  | case4 lexer answer filled _ next inSight stopped =>
    rw [← (Prod.mk.inj success).2]
    exact .inr stopped

/-- A run that does not stop at the byte in sight moves forward. -/
theorem runUntil_forward_of_head {keep : Bool} {stop : UInt8 → Bool} {lexer after : Lexer}
    {byte : UInt8} (head : lexer.source.buffer.head? = some byte) (onward : stop byte = false)
    (success : runUntil keep stop lexer = (.ok (), after)) :
    lexer.place.offset < after.place.offset := by
  obtain ⟨rest, filledBuffer⟩ := List.head?_eq_some_iff.mp (head_fill head)
  have started := (Reads.fill lexer).offset_le
  have run : 0 < ((Scan.fill.run lexer).2.source.buffer.takeWhile (!stop ·)).length := by
    rw [filledBuffer, List.takeWhile_cons, if_pos (by rw [onward]; rfl)]
    exact Nat.succ_pos _
  fun_induction runUntil keep stop lexer with
  | case1 => cases success
  | case2 lexer answer filled _ empty =>
    rw [show filled.source.buffer = byte :: rest from filledBuffer] at empty
    cases empty
  | case3 lexer answer filled _ next inSight drained _ =>
    have late := (runUntil_reads keep stop next).offset_le
    rw [success] at late
    exact Nat.lt_of_le_of_lt started (Nat.lt_of_lt_of_le (offset_lt_take keep run inSight) late)
  | case4 lexer answer filled _ next inSight stopped =>
    rw [← (Prod.mk.inj success).2]
    exact Nat.lt_of_le_of_lt started (offset_lt_take keep run inSight)

/-- Takes a carriage return off the end of the current token. -/
def dropReturn (lexer : Lexer) : Lexer :=
  match lexer.captured with
  | Ascii.carriageReturn :: rest => { lexer with captured := rest }
  | _ => lexer

theorem Reads.dropReturn (lexer : Lexer) : lexer.Reads lexer.dropReturn := by
  unfold Lexer.dropReturn
  split <;> exact .of_eq rfl rfl

end Lexer

namespace Scan

/-- Keeps the bytes before the first one that stops the run. -/
def captureUntil (stop : UInt8 → Bool) : Scan Unit := ⟨Lexer.runUntil true stop⟩

/-- Passes the bytes before the first one that stops the run. -/
def passUntil (stop : UInt8 → Bool) : Scan Unit := ⟨Lexer.runUntil false stop⟩

/-- Passes the rest of the line and its line feed. -/
def passLine : Scan Unit := do
  passUntil (· == Ascii.lineFeed)
  pass 1

/-- Keeps the rest of the line without its line break, which is not passed. -/
def captureLine : Scan Unit := do
  captureUntil (· == Ascii.lineFeed)
  change Lexer.dropReturn

end Scan

namespace Lexer

theorem passLine_reads (lexer : Lexer) : lexer.Reads (Scan.passLine.run lexer).2 := by
  have run := runUntil_reads false (· == Ascii.lineFeed) lexer
  unfold Scan.passLine
  rw [Scan.run_bind]
  split
  · next after equation =>
    rw [show runUntil false (· == Ascii.lineFeed) lexer = _ from equation] at run
    exact run.trans (Reads.pass 1 after)
  · next after equation =>
    rw [show runUntil false (· == Ascii.lineFeed) lexer = _ from equation] at run
    exact run

/-- Passing a line moves forward. -/
theorem passLine_forward {lexer after : Lexer} {byte : UInt8}
    (head : lexer.source.buffer.head? = some byte)
    (success : Scan.passLine.run lexer = (.ok (), after)) :
    lexer.place.offset < after.place.offset := by
  obtain ⟨_, middle, found, passed⟩ := Scan.run_bind_ok success
  have reading : runUntil false (· == Ascii.lineFeed) lexer = (.ok (), middle) := found
  have run := (runUntil_reads false (· == Ascii.lineFeed) lexer).offset_le
  rw [reading] at run
  rw [← (Prod.mk.inj passed).2]
  show _ < (middle.pass 1).place.offset
  rw [offset_pass]
  rcases runUntil_forward head reading with forward | stopped
  · omega
  · have long := List.length_pos_iff.mpr stopped
    simp only at run
    omega

/-! ### White space -/

/-- Passes white space and escaped lines, which start with a percent sign. Gives the next byte,
which is not passed. -/
def passSpace (lexer : Lexer) : Except Failure (Option UInt8) × Lexer :=
  let answer := Scan.fill.run lexer
  let filled := answer.2
  match answer.1 with
  | .error failure => (.error failure, filled)
  | .ok () =>
    match _ : filled.source.buffer with
    | [] => (.ok none, filled)
    | byte :: _ =>
      if _ : Ascii.isSpace byte then
        passSpace (filled.pass (filled.source.buffer.takeWhile Ascii.isSpace).length)
      else if byte = Ascii.percent ∧ filled.place.atLineStart then
        match _ : Scan.passLine.run filled with
        | (.error failure, after) => (.error failure, after)
        | (.ok (), after) => passSpace after
      else (.ok (some byte), filled)
termination_by lexer.source.content.length
decreasing_by
  · rename_i inSight blank
    have filling := Reads.fill lexer
    have forward : filled.place.offset <
        (filled.take false (filled.source.buffer.takeWhile Ascii.isSpace).length).place.offset := by
      refine offset_lt_take false ?_ (by rw [inSight]; exact List.cons_ne_nil _ _)
      rw [inSight, List.takeWhile_cons, if_pos blank]
      exact Nat.succ_pos _
    exact (filling.trans (Reads.take false _ _)).content_lt
      (Nat.lt_of_le_of_lt filling.offset_le forward)
  · rename_i inSight _ _ line
    have filling := Reads.fill lexer
    have reading := passLine_reads filled
    rw [line] at reading
    exact (filling.trans reading).content_lt
      (Nat.lt_of_le_of_lt filling.offset_le
        (passLine_forward (by rw [inSight]; rfl) line))

theorem passSpace_reads (lexer : Lexer) : lexer.Reads (passSpace lexer).2 := by
  fun_induction passSpace lexer with
  | case1 => exact Reads.fill _
  | case2 => exact Reads.fill _
  | case3 lexer answer filled _ byte rest inSight blank inductionHypothesis =>
    exact ((Reads.fill lexer).trans (Reads.pass _ _)).trans inductionHypothesis
  | case4 lexer answer filled _ byte rest inSight blank escaped failure after line =>
    have reading := passLine_reads filled
    rw [line] at reading
    exact (Reads.fill lexer).trans reading
  | case5 lexer answer filled _ byte rest inSight blank escaped after line inductionHypothesis =>
    have reading := passLine_reads filled
    rw [line] at reading
    exact ((Reads.fill lexer).trans reading).trans inductionHypothesis
  | case6 => exact Reads.fill _

/-- The byte that is given is in sight. -/
theorem passSpace_head {lexer after : Lexer} {byte : UInt8}
    (success : passSpace lexer = (.ok (some byte), after)) :
    after.source.buffer.head? = some byte := by
  fun_induction passSpace lexer with
  | case1 => cases success
  | case2 => cases success
  | case3 lexer answer filled _ head rest inSight blank inductionHypothesis =>
    exact inductionHypothesis success
  | case4 => cases success
  | case5 lexer answer filled _ head rest inSight blank escaped next line inductionHypothesis =>
    exact inductionHypothesis success
  | case6 lexer answer filled _ head rest inSight =>
    have parts := Prod.mk.inj success
    rw [← parts.2, inSight]
    exact Except.ok.inj parts.1

/-- The byte that is given is no white space. -/
theorem passSpace_significant {lexer after : Lexer} {byte : UInt8}
    (success : passSpace lexer = (.ok (some byte), after)) : Ascii.isSpace byte = false := by
  fun_induction passSpace lexer with
  | case1 => cases success
  | case2 => cases success
  | case3 lexer answer filled _ head rest inSight blank inductionHypothesis =>
    exact inductionHypothesis success
  | case4 => cases success
  | case5 lexer answer filled _ head rest inSight blank escaped next line inductionHypothesis =>
    exact inductionHypothesis success
  | case6 lexer answer filled _ head rest inSight blank =>
    rw [← Option.some.inj (Except.ok.inj (Prod.mk.inj success).1)]
    exact Bool.eq_false_iff.mpr blank

/-! ### Quoted text -/

/-- Keeps the bytes before the first closing one that is not behind a backslash. A backslash takes
the byte behind it along, whatever that is. The closing byte is not passed. -/
def captureQuoted (closing : UInt8) (lexer : Lexer) : Except Failure Unit × Lexer :=
  let answer := Scan.fill.run lexer
  let filled := answer.2
  match answer.1 with
  | .error failure => (.error failure, filled)
  | .ok () =>
    let run := filled.source.buffer.takeWhile fun byte =>
      !(byte == Ascii.backslash || byte == closing)
    let next := filled.capture run.length
    if filled.source.buffer = [] then (.ok (), filled)
    else
      match _ : next.source.buffer with
      | [] => captureQuoted closing next
      | byte :: _ =>
        if byte = closing then (.ok (), next)
        else
          let escape := Scan.fill.run (next.capture 1)
          match escape.1 with
          | .error failure => (.error failure, escape.2)
          | .ok () => captureQuoted closing (escape.2.capture 1)
termination_by lexer.source.content.length
decreasing_by
  · rename_i inSight drained
    have filling := Reads.fill lexer
    exact (filling.trans (Reads.take true run.length filled)).content_lt
      (Nat.lt_of_le_of_lt filling.offset_le (offset_lt_of_drained true inSight drained))
  · rename_i shown _
    have inSight : next.source.buffer ≠ [] := by
      rw [shown]
      exact List.cons_ne_nil _ _
    have early := (Reads.fill lexer).trans (Reads.capture run.length filled)
    have late := (Reads.fill (next.capture 1)).trans (Reads.capture 1 escape.2)
    have forward : next.place.offset < (next.take true 1).place.offset :=
      offset_lt_take true Nat.zero_lt_one inSight
    refine ((early.trans (Reads.capture 1 next)).trans late).content_lt ?_
    exact Nat.lt_of_le_of_lt early.offset_le (Nat.lt_of_lt_of_le forward late.offset_le)

theorem captureQuoted_reads (closing : UInt8) (lexer : Lexer) :
    lexer.Reads (captureQuoted closing lexer).2 := by
  fun_induction captureQuoted closing lexer with
  | case1 => exact Reads.fill _
  | case2 => exact Reads.fill _
  | case3 lexer answer filled _ run next _ _ inductionHypothesis =>
    exact ((Reads.fill lexer).trans (Reads.capture _ _)).trans inductionHypothesis
  | case4 lexer answer filled _ run next => exact (Reads.fill lexer).trans (Reads.capture _ _)
  | case5 lexer answer filled _ run next _ byte rest _ _ escape failure _ =>
    exact (((Reads.fill lexer).trans (Reads.capture _ _)).trans (Reads.capture 1 next)).trans
      (Reads.fill _)
  | case6 lexer answer filled _ run next _ byte rest _ _ escape _ inductionHypothesis =>
    exact ((((Reads.fill lexer).trans (Reads.capture _ _)).trans (Reads.capture 1 next)).trans
      (Reads.fill _)).trans ((Reads.capture 1 _).trans inductionHypothesis)

/-- Quoted text that does not end at once moves forward. -/
theorem captureQuoted_forward {closing : UInt8} {lexer after : Lexer} {byte : UInt8}
    (head : lexer.source.buffer.head? = some byte) (onward : byte ≠ closing)
    (success : captureQuoted closing lexer = (.ok (), after)) :
    lexer.place.offset < after.place.offset := by
  obtain ⟨rest, filledBuffer⟩ := List.head?_eq_some_iff.mp (head_fill head)
  have started := (Reads.fill lexer).offset_le
  fun_induction captureQuoted closing lexer with
  | case1 => cases success
  | case2 lexer answer filled _ empty =>
    rw [show filled.source.buffer = byte :: rest from filledBuffer] at empty
    cases empty
  | case3 lexer answer filled _ run next inSight drained _ =>
    have late := (captureQuoted_reads closing next).offset_le
    rw [success] at late
    exact Nat.lt_of_le_of_lt started (Nat.lt_of_lt_of_le
      (offset_lt_of_drained true inSight drained) late)
  | case4 lexer answer filled _ run next inSight others shown =>
    rw [← (Prod.mk.inj success).2]
    refine Nat.lt_of_le_of_lt started (offset_lt_take true ?_ inSight)
    refine Nat.pos_of_ne_zero fun none => onward ?_
    rw [show next.source.buffer = filled.source.buffer.drop run.length from
      buffer_take true run.length filled, none, List.drop_zero,
      show filled.source.buffer = byte :: rest from filledBuffer] at shown
    exact (List.cons.inj shown).1
  | case5 => cases success
  | case6 lexer answer filled _ run next inSight second others shown _ escape _ _ =>
    have early := (Reads.capture run.length filled).offset_le
    have nextInSight : next.source.buffer ≠ [] := by
      rw [shown]
      exact List.cons_ne_nil _ _
    have forward := offset_lt_take true Nat.zero_lt_one nextInSight
    have late := ((Reads.fill (next.capture 1)).trans
      ((Reads.capture 1 escape.2).trans (captureQuoted_reads closing _))).offset_le
    rw [success] at late
    exact Nat.lt_of_le_of_lt started (Nat.lt_of_le_of_lt early (Nat.lt_of_lt_of_le forward late))

end Lexer

namespace Scan

/-- Passes white space and escaped lines and gives the next byte, which is not passed. -/
def passSpace : Scan (Option UInt8) := ⟨Lexer.passSpace⟩

/-- Keeps the bytes before the first closing one that is not behind a backslash. -/
def captureQuoted (closing : UInt8) : Scan Unit := ⟨Lexer.captureQuoted closing⟩

end Scan

end Scoresheet
