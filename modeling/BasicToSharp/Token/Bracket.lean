import BasicToSharp.Token.Quoted

/-!
# Brackets

Depth counts the brackets open before a token, never below zero. A closing
parenthesis matches the one that brings the depth back to zero, and a list is
split at the commas of depth zero. Brackets and commas in literals do not count.
-/

namespace BasicToSharp.Token

/-- The position, relative to the first marked token, of the `)` that brings the count
of open parentheses to zero. A `)` at depth zero keeps it there and so matches. -/
def closingIn (depth : Nat) : List Marked → Option Nat
  | [] => none
  | ⟨token, quoted⟩ :: rest =>
    if quoted then (closingIn depth rest).map (· + 1)
    else if token = "(" then (closingIn (depth + 1) rest).map (· + 1)
    else if token = ")" then
      if depth - 1 = 0 then some 0 else (closingIn (depth - 1) rest).map (· + 1)
    else (closingIn depth rest).map (· + 1)

/-- The position of the `)` that matches the `(` at position `start`. -/
def closing (tokens : List Token) (start : Nat) : Option Nat :=
  (closingIn 0 (mark (tokens.drop start))).map (· + start)

/-- True of the three opening brackets. -/
def isOpening (token : Token) : Bool := token == "(" || token == "[" || token == "\x7b"

/-- True of the three closing brackets. -/
def isClosing (token : Token) : Bool := token == ")" || token == "]" || token == "\x7d"

/-- Split at the commas of depth zero; `part` holds the current part, last token first.
The result is never empty: it ends with the part that reaches to the end. -/
def splitCommas (depth : Nat) (part : List Token) : List Marked → List (List Token)
  | [] => [part.reverse]
  | ⟨token, quoted⟩ :: rest =>
    if quoted then splitCommas depth (token :: part) rest
    else if isOpening token then splitCommas (depth + 1) (token :: part) rest
    else if isClosing token then splitCommas (depth - 1) (token :: part) rest
    else if token = "," ∧ depth = 0 then part.reverse :: splitCommas depth [] rest
    else splitCommas depth (token :: part) rest

/-- The parts of a comma-separated list; commas in brackets and literals do not
separate. Only an empty list has no parts. -/
def commaParts (tokens : List Token) : List (List Token) :=
  if tokens.isEmpty then [] else splitCommas 0 [] (mark tokens)

example : commaParts ["a", "(", "1", ",", "2", ")", ",", "b"] =
    [["a", "(", "1", ",", "2", ")"], ["b"]] := by decide
example : closing ["f", "(", "(", ")", ")", "x"] 1 = some 4 := by decide

end BasicToSharp.Token
