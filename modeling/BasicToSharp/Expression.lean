import BasicToSharp.Spacing
import BasicToSharp.Token.Quoted
import BasicToSharp.Vocabulary

/-!
# Expressions and conditions

An expression is written by replacing its words and operators outside literals and
spacing the result. In a condition `=` compares and the logical words count. The
negation of a condition with exactly one relation and no logical word turns that
relation around; every other condition is wrapped.
-/

namespace BasicToSharp.Expression

/-- The C# form of one token of an expression. -/
def expressionToken (token : Token) : Token := (Vocabulary.expression? token).getD token

/-- The C# form of one token of a condition. -/
def conditionToken (token : Token) : Token :=
  match Text.lookupForm token with
  | "=" => "=="
  | "is" => "=="
  | "isnot" => "!="
  | "and" => "&&"
  | "or" => "||"
  | _ => expressionToken token

/-- The C# tokens of an expression. -/
def expressionTokens (tokens : List Token) : List Token :=
  Token.mapUnquoted expressionToken tokens

/-- The C# tokens of a condition. -/
def conditionTokens (tokens : List Token) : List Token :=
  Token.mapUnquoted conditionToken tokens

/-- The C# text of an expression. -/
def render (tokens : List Token) : String := formatTokens (expressionTokens tokens)

/-- The C# text of a condition. -/
def renderCondition (tokens : List Token) : String := formatTokens (conditionTokens tokens)

/-- The relation that holds exactly when the given one does not, in C#. Nothing for a
token that is no relation. -/
def complement? : Token → Option Token
  | "<" => some ">="
  | ">" => some "<="
  | "<=" => some ">"
  | ">=" => some "<"
  | "=" => some "!="
  | "<>" => some "=="
  | _ => none

/-- Words that combine conditions. -/
def logicalWords : List String := ["and", "or", "andalso", "orelse", "not", "xor"]

/-- True of a word that combines conditions. -/
def isLogical (token : Token) : Bool := logicalWords.contains (Text.lookupForm token)

/-- Whether two neighbouring tokens are one relation written apart. -/
def joinsRelation (left right : Token) : Bool :=
  (left == "<" && (right == "=" || right == ">")) || (left == ">" && right == "=")

/-- Write relations together that stand apart, as in `< =`. -/
def mergeRelations : List Token.Marked → List Token
  | [] => []
  | [last] => [last.token]
  | left :: right :: rest =>
    if !right.quoted && joinsRelation left.token right.token then
      (left.token ++ right.token) :: mergeRelations rest
    else left.token :: mergeRelations (right :: rest)

/-- The unquoted tokens of a list. -/
def unquoted (tokens : List Token) : List Token :=
  ((Token.mark tokens).filter (!·.quoted)).map Token.Marked.token

/-- Whether a condition is a single relation, combined with nothing. -/
def isSingleRelation (tokens : List Token) : Bool :=
  ((unquoted tokens).filter fun token => (complement? token).isSome).length == 1 &&
    !(unquoted tokens).any isLogical

/-- The C# text of the negation of a condition. -/
def renderNegation (tokens : List Token) : String :=
  let merged := mergeRelations (Token.mark tokens)
  if isSingleRelation merged then
    formatTokens (Token.mapUnquoted (fun token =>
      (complement? token).getD (expressionToken token)) merged)
  else "!(" ++ renderCondition merged ++ ")"

example : renderCondition ["x", "=", "1", "And", "Not", "done"] = "x == 1 && !done" := by decide
example : renderNegation ["x", "<", "=", "y"] = "x > y" := by decide
example : renderNegation ["a", "Or", "b"] = "!(a || b)" := by decide

end BasicToSharp.Expression
