import BasicToSharp.Rule.Condition
import BasicToSharp.Rule.Jump

/-!
# Branches

`If` opens a block when nothing follows `Then`, and otherwise stays on one line with its
branches. `ElseIf`, also written `Else If`, and `Else` close one branch and open the next.
-/

namespace BasicToSharp

/-- A statement in a branch of a single-line `If`. -/
def branchStatement (tokens : List Token) : Reading String :=
  match tokenAt tokens 0 with
  | "" => Reading.refuse .ifStatement .emptyBranch
  | "Return" => returnStatement tokens
  | "Exit" => exitStatement tokens
  | _ => .ok (Expression.render tokens ++ ";")

/-- What an `If` line becomes: the header of a block, or a whole statement. -/
inductive IfLine
  | block (header : String)
  | statement (line : String)
  deriving DecidableEq, Repr

/-- The branches of a single-line `If`, from the tokens behind `Then`. -/
def branchesText (tokens : List Token) : Reading String := do
  match Token.findKeyword tokens "Else" with
  | some index =>
    let first ← branchStatement (← Reading.sliceUpTo tokens index)
    let second ← branchStatement (← Reading.sliceFrom tokens (index + 1))
    return first ++ " else " ++ second
  | none => branchStatement tokens

/-- Read an `If` line. -/
def IfLine.read (tokens : List Token) : Reading IfLine := do
  match Token.findKeyword tokens "Then" with
  | none =>
    let condition ← conditionText .ifStatement (← Reading.sliceFrom tokens 1)
    return .block (blockHeader "if" condition)
  | some index =>
    let condition ← conditionText .ifStatement (← Reading.slice tokens 1 index)
    let rest ← Reading.sliceFrom tokens (index + 1)
    if rest.isEmpty then return .block (blockHeader "if" condition)
    else return .statement (blockHeader "if" condition ++ " " ++ (← branchesText rest))

/-- The header of an `ElseIf` branch. -/
def elseIfHeader (tokens : List Token) : Reading String := do
  let skip := if (← Reading.token tokens 0) = "Else" then 2 else 1
  let stop := (Token.findKeyword tokens "Then").getD tokens.length
  let condition ← conditionText .elseIfStatement
    (← Reading.slice tokens (min skip stop) stop)
  return blockHeader "else if" condition

namespace Rule

/-- `If` lines. -/
def ifBranch (tokens : List Token) : Rule Unit := do
  match ← read (IfLine.read tokens) with
  | .block header =>
    renest fun nesting => { nesting with blocks := .ifBlock :: nesting.blocks }
    openBrace header
  | .statement line => emit line

/-- `ElseIf` lines. -/
def elseIfBranch (tokens : List Token) : Rule Unit := do
  let header ← read (elseIfHeader tokens)
  emit "\x7d"
  openBrace header

/-- `Else` lines. -/
def elseBranch (tokens : List Token) : Rule Unit := do
  if tokenAt tokens 1 = "If" then elseIfBranch tokens
  else
    emit "\x7d"
    openBrace "else"

end Rule

end BasicToSharp
