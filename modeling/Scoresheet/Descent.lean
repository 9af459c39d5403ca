/-
This file reads a game by recursive descent, with one function for each phrase. A function begins at
the current token of the lexer and leaves the first token that it does not take as the current one.

Behind a move, annotations, variations and comments are looked for in a fixed order, again and again
until a round takes nothing. A variation is a sequence of turns whose moves may have variations; the
functions in between are told how a variation is read. A loop is a function that calls itself. Such
a function would never return if it called itself where it is, and has no value then.
-/

import Scoresheet.Reader.Reading

namespace Scoresheet

/-- What the functions share. -/
structure Descent.Context where
  lexer : Lexer
  interner : Interner
  /-- The number of tokens taken so far. -/
  consumed : Nat

/-- A function that reads on. -/
abbrev Descent := ExceptT ReadError (StateT Descent.Context Option)

namespace Descent

/-- How much there is to take: the bytes to come, and the current token unless it is the last. -/
def Context.weight (context : Context) : Nat :=
  context.lexer.source.content.length + if context.lexer.isExhausted then 0 else 1

variable {Argument Value : Type}

/-- A function that calls itself, with less to take each time. -/
def recur (body : (Argument → Descent Value) → Argument → Descent Value) (argument : Argument) :
    Descent Value := fun context =>
  body (fun next later =>
    if later.weight < context.weight then recur body next later else none) argument context
termination_by context => context.weight

/-! ### Tokens -/

/-- The current token. -/
def token : Descent Token := fun context => some (.ok context.lexer.token, context)

/-- Whether there is no token any more. -/
def isExhausted : Descent Bool := fun context => some (.ok context.lexer.isExhausted, context)

/-- How many tokens were taken. -/
def consumed : Descent Nat := fun context => some (.ok context.consumed, context)

/-- Goes on to the next token. -/
def advance : Descent Unit := fun context =>
  let (result, lexer) := Scan.advance.run context.lexer
  some (result.mapError .sourceFailed, { context with lexer, consumed := context.consumed + 1 })

/-- Discards tokens until one is of the given kind. They do not count as taken. -/
def skipUntil (kind : TokenKind) : Descent Unit := fun context =>
  let (result, lexer) := context.lexer.skipUntil kind
  some (result.mapError .sourceFailed, { context with lexer })

/-- Complains about the current token, which is of none of the kinds. -/
def unexpected (kinds : List TokenKind) : Descent Value := do
  let token ← token
  if ← isExhausted then throw (.unexpectedEnd kinds token.position)
  else throw (token.unexpected kinds)

/-- Requires the current token to be of one of the kinds. -/
def expect (kinds : List TokenKind) : Descent Unit := do
  let token ← token
  if token.kind ∈ kinds ∧ !(← isExhausted) then pure () else unexpected kinds

/-- Requires the current token to be of one of the kinds, and goes on to the next. -/
def consume (kinds : List TokenKind) : Descent Unit := do
  expect kinds
  advance

/-! ### Annotations and comments -/

/-- The code of an annotation. -/
def code (config : Config) (token : Token) : Descent Nag :=
  match Nag.ofText? token.text with
  | some nag => pure nag
  | none =>
    if config.nullOnInvalidNag then pure .null
    else throw (.invalidNag token.text token.position)

/-- Adds annotations that follow each other to the codes. Those beyond the limit are passed. -/
def annotations (config : Config) : List Nag → Descent (List Nag) :=
  recur fun annotations nags => do
    let token ← token
    if token.kind = .nag then
      if nags.length < config.annotationLimit then
        let nag ← code config token
        advance
        annotations
          (if config.allowDuplicateAnnotations || !nags.contains nag then nags ++ [nag] else nags)
      else
        advance
        annotations nags
    else pure nags

/-- The text of a comment as it is written. -/
def commentText : Descent Bytes := do
  let opening ← token
  if opening.kind = .lineComment then
    advance
    pure opening.text
  else
    consume [.commentBegin, .lineComment]
    let inside ← token
    if inside.kind = .commentEnd then
      advance
      pure []
    else
      expect [.comment, .commentEnd]
      advance
      consume [.commentEnd]
      pure inside.text

/-- Comments that follow each other, behind those that were merged before. -/
def moreComments (config : Config) : Option Bytes → Descent (Option Bytes) :=
  recur fun moreComments merged => do
    let token ← token
    if token.kind = .commentBegin ∨ token.kind = .lineComment then
      let text ← commentText
      moreComments (some (merged.getD [] ++ Comment.tidy config text))
    else pure merged

/-- Comments that follow each other, merged, unless comments are left out. -/
def comments (config : Config) : Descent (Option Bytes) := do
  let merged ← moreComments config none
  pure (if config.skip.comments then none else merged)

/-- The comment with another one behind it. -/
def extended (comment added : Option Bytes) : Option Bytes :=
  match added with
  | none => comment
  | some text => some (comment.getD [] ++ text)

/-! ### Headers -/

section Headers

variable [Hashable HeaderPair]

def intern (pair : HeaderPair) : Descent SharedPair := fun context =>
  let (shared, interner) := context.interner.intern pair
  some (.ok shared, { context with interner })

/-- What stands between the name and the value of a header pair. -/
def separator (config : Config) : Descent Unit := do
  let between ← token
  if between.kind = .separator then advance
  else if between.kind = .valueBegin ∧ !config.strict then pure ()
  else unexpected [.separator]

/-- The value behind its opening quote, of a header pair with the given name. -/
def headerValue (name : Bytes) : Descent SharedPair := do
  let value ← token
  if value.kind = .value then
    let shared ← intern ⟨name, value.text⟩
    advance
    consume [.valueEnd]
    pure shared
  else
    consume [.value, .valueEnd]
    intern ⟨name, []⟩

def headerPair (config : Config) : Descent SharedPair := do
  consume [.headerBegin]
  expect [.headerName]
  let name ← token
  advance
  separator config
  consume [.valueBegin]
  let shared ← headerValue name.text
  consume [.headerEnd]
  pure shared

/-- The pairs of a header section, behind those read before. -/
def headerPairs (config : Config) : List SharedPair → Descent (List SharedPair) :=
  recur fun headerPairs pairs => do
    let opening ← token
    if opening.kind = .headerBegin then
      let shared ← headerPair config
      headerPairs (pairs ++ [shared])
    else pure pairs

/-- Passes a header section. -/
def passHeaders : Unit → Descent Unit := recur fun passHeaders _ => do
  let token ← token
  if token.kind.isHeader ∧ !(← isExhausted) then
    advance
    passHeaders ()
  else pure ()

/-- The header section, if there is one and it is not left out. -/
def headerSection (config : Config) : Descent (Option (List SharedPair)) := do
  let opening ← token
  if opening.kind = .headerBegin then
    if config.skip.headers then
      passHeaders ()
      pure none
    else
      let pairs ← headerPairs config []
      pure (some pairs)
  else pure none

end Headers

/-! ### Moves -/

/-- The comment of a move with the descriptions of its codes, if a separator for them is set. -/
def described (config : Config) (nags : List Nag) (comment : Option Bytes) : Option Bytes :=
  match config.annotationTemplate with
  | none => comment
  | some separator =>
    match Nag.rendered (Bytes.ofString separator) nags with
    | none => comment
    | some descriptions =>
      let own := comment.getD []
      if own.isEmpty then some descriptions
      else some (own ++ Bytes.ofString separator ++ descriptions)

/-- The number that the current token writes. -/
def number (config : Config) : Descent UInt32 := do
  let digits ← token
  match Bytes.number? LineDraft.largestNumber digits.text with
  | none => unexpected [.moveNumber]
  | some number =>
    if number = 0 ∧ config.strict then unexpected [.moveNumber] else pure (UInt32.ofNat number)

/-- The kind of the move behind a move number that was repeated, as the sign between them has it. -/
def repetition (config : Config) (same : Bool) : Descent TokenKind := do
  let sign ← token
  if sign.kind = .ellipsis then
    advance
    pure .blackMove
  else if sign.kind = .dot ∧ same ∧ !config.strict then
    advance
    pure .whiteMove
  else unexpected [.ellipsis]

/-- The kind that the move of black has to be of, if there has to be one: behind a repeated move
number there has to, and otherwise nothing changes. -/
def deferral (config : Config) (digits : Bytes) (white : Option Move) (owed : Option TokenKind) :
    Descent (Option TokenKind) := do
  let again ← token
  if white.isSome ∧ again.kind = .moveNumber then
    if again.text ≠ digits ∧ config.strict then unexpected [.ellipsis]
    else
      advance
      let kind ← repetition config (again.text = digits)
      pure (some kind)
  else pure owed

/-- Opening parentheses that follow each other, counted on. -/
def openings : Nat → Descent Nat := recur fun openings depth => do
  let token ← token
  if token.kind = .variationBegin then
    advance
    openings (depth + 1)
  else pure depth

section Turns

variable (config : Config) (variation : Descent Line)

/-- Variations that follow each other, behind those found before, and whether there were any. -/
def variations : Bool × List Line → Descent (Bool × List Line) := recur fun variations found => do
  let opening ← token
  if opening.kind = .variationBegin then
    let line ← variation
    variations
      (true, if config.skip.variations || line.isEmpty then found.2 else found.2 ++ [line])
  else pure found

/-- What follows a move is looked for once, behind what was found before. -/
def probes (found : MoveDetails) : Descent MoveDetails := do
  let nags ← annotations config found.nags
  let (present, lines) ← variations config variation (false, found.variations)
  let nags ← annotations config nags
  let added ← comments config
  let nags ← annotations config nags
  let comment := extended found.comment added
  if present then pure ⟨comment, nags, lines⟩
  else
    let (_, lines) ← variations config variation (false, lines)
    let nags ← annotations config nags
    pure ⟨comment, nags, lines⟩

/-- What follows a move is looked for until nothing more is taken. -/
def details : MoveDetails → Descent MoveDetails := recur fun details found => do
  let before ← consumed
  let found ← probes config variation found
  if (← consumed) = before then pure found else details found

/-- A move of the given kind, with what follows it. -/
def move (kind : TokenKind) : Descent Move := do
  expect [kind]
  let told ← token
  let (text, nags) :=
    if config.extractInlineAnnotations then Nag.splitInline told.text else (told.text, [])
  advance
  let details ← details config variation ⟨none, nags, []⟩
  pure (.of text (described config details.nags details.comment) details.nags details.variations)

/-- The move of white behind a move number, or the kind that the move of black has to be of. -/
def whiteMove : Descent (Option Move × Option TokenKind) := do
  let sign ← token
  if sign.kind = .dot then
    advance
    let next ← token
    if next.kind = .ellipsis ∧ !config.strict then
      advance
      pure (none, some .blackMove)
    else
      let white ← move config variation .whiteMove
      pure (some white, none)
  else if sign.kind = .ellipsis then
    advance
    pure (none, some .blackMove)
  else unexpected [.dot, .ellipsis]

/-- The move of black, if there is one or has to be one. -/
def blackMove (owed : Option TokenKind) : Descent (Option Move) := do
  match owed with
  | some kind =>
    let black ← move config variation kind
    pure (some black)
  | none =>
    let next ← token
    if next.kind = .blackMove then
      let black ← move config variation .blackMove
      pure (some black)
    else pure none

def turn : Descent Turn := do
  expect [.moveNumber]
  let first ← token
  let number ← number config
  advance
  let (white, owed) ← whiteMove config variation
  let owed ← deferral config first.text white owed
  let black ← blackMove config variation owed
  match Turn.ofSides? number white black with
  | none => unexpected [.blackMove]
  | some turn => pure turn

/-- The turns in front of a token of the given kind, behind those read before. -/
def turns (last : TokenKind) : Line → Descent Line := recur fun turns line => do
  let next ← token
  if next.kind = last then pure line
  else
    let turn ← turn config variation
    turns (line ++ [turn])

/-- The turns in front of a token of the given kind. -/
def sequence (last : TokenKind) : Descent Line := do
  if last = .termination ∧ config.skip.moves then
    skipUntil .termination
    pure []
  else turns config variation last []

/-- The turns in front of a closing parenthesis, if there are any. -/
def body : Descent Line := do
  let closing ← token
  if closing.kind = .variationEnd then pure [] else sequence config variation .variationEnd

/-- The turns in front of as many closing parentheses as are open, behind those read before. -/
def bodies : Nat → Line → Descent Line
  | 0, line => pure line
  | depth + 1, line => do
    let more ← body config variation
    consume [.variationEnd]
    bodies depth (line ++ more)

end Turns

/-- A variation. A comment in front of its first move belongs to that move. -/
def variation (config : Config) : Unit → Descent Line := recur fun variation _ => do
  consume [.variationBegin]
  let depth ← openings 1
  let leading ← comments config
  let line ← bodies config (variation ()) depth []
  match leading with
  | none => pure line
  | some comment => pure (Line.prependComment comment line)

/-! ### Games -/

/-- The outcome that the current token names. -/
def outcome : Descent Outcome := do
  expect [.termination]
  let marker ← token
  match Outcome.ofMarker? marker.text with
  | some outcome => pure outcome
  | none => throw (.invalidOutcome marker.text marker.position)

/-- The next game, if there is one. -/
def game [Hashable HeaderPair] (config : Config) : Descent (Option Entry) := do
  advance
  if ← isExhausted then pure none
  else
    expect Draft.gameStart
    let early ← comments config
    let headers ← headerSection config
    let late ← comments config
    let moves ← sequence config (variation config ()) .termination
    let outcome ← outcome
    pure (some {
      game := {
        headers := headers.map (List.map SharedPair.pair)
        comment := extended early late
        moves
        outcome }
      allocations := (headers.getD []).map SharedPair.allocation })

/-- Reads the next game. -/
def read [Hashable HeaderPair] (config : Config) (interner : Interner) (lexer : Lexer) :
    Option (Reading × Interner × Lexer) :=
  (game config ⟨lexer, interner, 0⟩).map fun (reading, context) =>
    (reading, context.interner, context.lexer)

end Descent

end Scoresheet
