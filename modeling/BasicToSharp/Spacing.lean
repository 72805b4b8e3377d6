import BasicToSharp.Token.Basic

/-!
# Spacing

Tokens are written as one line with a single space between neighbours, except where a
rule leaves it out: inside literals, beside tokens that are set tight, before the
parenthesis of a call, and behind the sign of a signed operand.
-/

namespace BasicToSharp

/-- Where neighbouring tokens are written without a space between them. -/
structure Spacing where
  /-- Tokens with no space before them. -/
  tightBefore : List Token := []
  /-- Tokens with no space behind them. -/
  tightAfter : List Token := []
  /-- Whether the `(` of an argument list follows its identifier directly. -/
  tightCalls : Bool := false
  deriving DecidableEq, Repr

namespace Spacing

/-- The spacing of expressions and statements. -/
def expression : Spacing where
  tightBefore := [".", ",", ")"]
  tightAfter := [".", "(", "!"]
  tightCalls := true

/-- No space inside or before parentheses. -/
def closeParentheses : Spacing where
  tightBefore := ["(", ")"]
  tightAfter := ["("]

/-- True of a token that can end an operand, so that a sign behind it is an operator
between two operands. -/
def endsOperand (token : Token) : Bool :=
  Token.isIdentifier token || Token.isNumeric token || token == ")" || token == "]" ||
    token == Token.quote

/-- Whether the rules ask for a space between two neighbours. -/
def separates (spacing : Spacing) (left right : Token) (insideLiteral : Bool) : Bool :=
  !insideLiteral && !spacing.tightAfter.contains left && !spacing.tightBefore.contains right &&
    !(spacing.tightCalls && right == "(" && Token.isIdentifier left)

/-- Whether a token is the sign of the operand that follows it, given the token before. -/
def isSign (before : Option Token) (token : Token) : Bool :=
  (token == "-" || token == "+") && !before.any endsOperand

/-- The text of the tokens behind `previous`, which stands behind `before`. -/
def joinBehind (spacing : Spacing) (before : Option Token) (previous : Token)
    (insideLiteral : Bool) : List Token → String
  | [] => ""
  | token :: rest =>
    let space :=
      if !isSign before previous && spacing.separates previous token insideLiteral then " "
      else ""
    let insideNext := if token = Token.quote then !insideLiteral else insideLiteral
    space ++ token ++ spacing.joinBehind (some previous) token insideNext rest

/-- The tokens written as one line, without blanks at its ends. -/
def join (spacing : Spacing) : List Token → String
  | [] => ""
  | first :: rest =>
    Text.trim (first ++ spacing.joinBehind none first (first == Token.quote) rest)

end Spacing

/-- Tokens to be written as one line, with a text in front of them and one behind. The
text in front is spaced like a token; the text behind is added as it is. -/
structure Phrase where
  tokens : List Token
  spacing : Spacing := {}
  lead : String := ""
  ending : String := ""
  deriving DecidableEq, Repr

namespace Phrase

/-- The leading text as a token, unless it is empty. -/
def leadTokens (phrase : Phrase) : List Token :=
  if phrase.lead.isEmpty then [] else [phrase.lead]

/-- The line of a phrase. -/
def render (phrase : Phrase) : String :=
  phrase.spacing.join (phrase.leadTokens ++ phrase.tokens) ++ phrase.ending

/-- The line of a phrase with the leading text in place of the first token. -/
def renderReplacingFirst (phrase : Phrase) : String :=
  phrase.spacing.join (phrase.leadTokens ++ phrase.tokens.drop 1) ++ phrase.ending

end Phrase

/-- The tokens of a statement or expression as one line. -/
def formatTokens (tokens : List Token) : String := Spacing.expression.join tokens

example : formatTokens ["f", "(", "-", "x", ",", "a", "-", "1", ")"] = "f(-x, a - 1)" := by
  decide

end BasicToSharp
