/-
This file defines the reader, which yields the games of an input one after the other. It can stop
at the first error, or record errors and go on behind the next termination marker. After a failure
of the source, an early end of the input, the last game or the set number of games it yields
nothing more.
-/

import Scoresheet.Reader.Reading

namespace Scoresheet

structure Reader where
  lexer : Lexer
  config : Config
  interner : Interner
  /-- The errors that were recovered from, in order. -/
  errors : List ReadError
  /-- The number of games yielded so far. -/
  gamesRead : Nat
  /-- Whether no more games will be yielded. -/
  isDone : Bool

namespace Reader

variable [Hashable HeaderPair]

/-- A reader with a cache of its own, if its settings ask for one. -/
def start (config : Config) (lexer : Lexer) : Reader where
  lexer := lexer
  config := config
  interner := .ofConfig config
  errors := []
  gamesRead := 0
  isDone := false

/-- A reader of a text in memory, with the standard settings. -/
def ofBytes (text : Bytes) : Reader := start .standard (.ofSource (.ofBytes text))

/-- Whether the set number of games has been reached. -/
def atLimit (reader : Reader) : Bool :=
  match reader.config.gameLimit with
  | none => false
  | some limit => limit ≤ reader.gamesRead

/-- Releases the source. No more games will be yielded. -/
def close (reader : Reader) : Reader := { reader with lexer := reader.lexer.close, isDone := true }

/-- The recovered errors, which are forgotten. -/
def takeErrors (reader : Reader) : List ReadError × Reader :=
  (reader.errors, { reader with errors := [] })

/-- Yields the next game or the error that ends the reading, or nothing at the end. -/
def next (reader : Reader) : Option (Except ReadError Entry) × Reader :=
  if reader.isDone then (none, reader)
  else if reader.atLimit then (none, { reader with isDone := true })
  else
    let answer := Draft.read reader.config reader.interner reader.lexer
    let read := { reader with interner := answer.2.1, lexer := answer.2.2 }
    match _ : answer.1 with
    | .ok (some entry) => (some (.ok entry), { read with gamesRead := reader.gamesRead + 1 })
    | .ok none => (none, { read with isDone := true })
    | .error error =>
      if reader.config.stopOnError || error.cause?.isSome then
        (some (.error error), { read with isDone := true })
      else
        let recorded := { read with errors := reader.errors ++ [error] }
        if _ : error.isFatal then (none, { recorded with isDone := true })
        else
          match _ : read.lexer.skipUntil .termination with
          | (.error failure, lexer) =>
            (some (.error (.sourceFailed failure)), { recorded with lexer, isDone := true })
          | (.ok (), lexer) => next { recorded with lexer }
termination_by reader.lexer.source.content.length
decreasing_by
  rename_i refused _ recoverable skipped
  have rest := Lexer.content_skipUntil_le .termination read.lexer
  rw [skipped] at rest
  exact Nat.lt_of_le_of_lt rest
    (Draft.content_lt_of_readOn refused (Bool.eq_false_iff.mpr recoverable))

/-- Passes the next game without assembling it, and tells whether there was one. -/
def skipGame (reader : Reader) : Except ReadError Bool × Reader :=
  if reader.isDone then (.ok false, reader)
  else
    match Scan.advance.run reader.lexer with
    | (.error failure, lexer) => (.error (.sourceFailed failure), { reader with lexer })
    | (.ok (), lexer) =>
      if lexer.isExhausted then (.ok false, { reader with lexer, isDone := true })
      else
        match lexer.skipUntil .termination with
        | (.error failure, lexer) => (.error (.sourceFailed failure), { reader with lexer })
        | (.ok (), lexer) => (.ok (lexer.kind = .termination), { reader with lexer })

/-- Yields the next game with a cache that is shared with other readers, in place of the reader's
own. -/
def nextSharing (cache : Cache) (reader : Reader) :
    Option (Except ReadError Entry) × Cache × Reader :=
  let (result, after) := next { reader with interner := .cached cache }
  match after.interner with
  | .cached cache => (result, cache, after)
  | .uncached _ => (result, cache, after)

end Reader

end Scoresheet
