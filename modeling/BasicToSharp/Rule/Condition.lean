import BasicToSharp.Expression
import BasicToSharp.Rule.Basic

/-!
# Conditions of blocks

The condition of a branch or loop loses one pair of parentheses around the whole of it
and is written in parentheses behind the keyword of its block.
-/

namespace BasicToSharp

/-- A condition without the parentheses around the whole of it. -/
def stripParentheses (tokens : List Token) : Reading (List Token) :=
  if tokenAt tokens 0 = "(" ∧ Token.closing tokens 0 = some (tokens.length - 1) then
    Reading.slice tokens 1 (tokens.length - 1)
  else .ok tokens

/-- The tokens of a condition, which must not be empty. -/
def readCondition (construct : Construct) (tokens : List Token) : Reading (List Token) := do
  let inner ← stripParentheses tokens
  if inner.isEmpty then Reading.refuse construct .missingCondition else return inner

/-- What `write` makes of a condition. -/
def conditionBy (write : List Token → String) (construct : Construct) (tokens : List Token) :
    Reading String := do
  return write (← readCondition construct tokens)

/-- The text of a condition. -/
def conditionText : Construct → List Token → Reading String :=
  conditionBy Expression.renderCondition

/-- The text of the negation of a condition. -/
def negationText : Construct → List Token → Reading String :=
  conditionBy Expression.renderNegation

/-- A keyword with something in parentheses behind it. -/
def blockPhrase (keyword content : String) : Phrase where
  tokens := [keyword, "(", content, ")"]
  spacing := { tightBefore := [")"], tightAfter := ["("] }

/-- The header of a block. -/
def blockHeader (keyword content : String) : String := (blockPhrase keyword content).render

/-- The line that ends a loop which tests its condition last. -/
def loopFooter (condition : String) : String :=
  { blockPhrase "while" condition with lead := "\x7d", ending := ";" : Phrase }.render

end BasicToSharp
