import BasicToSharp.Token.Basic

/-!
# Quoted tokens

Every quote token opens or closes a literal in turn. Marking a token list notes, for
each token, whether it is a quote or lies inside a literal; all that looks for
keywords, brackets or operators looks at the unmarked tokens only, so the text of a
literal is never read as part of the statement.
-/

namespace BasicToSharp.Token

/-- A token together with its standing: quoted means that it is a quote or lies between
two of them. -/
structure Marked where
  token : Token
  quoted : Bool
  deriving DecidableEq, Repr

/-- Mark the tokens of a list, starting inside a literal or outside one. -/
def markFrom (inside : Bool) : List Token → List Marked
  | [] => []
  | token :: rest =>
    if token = quote then ⟨token, true⟩ :: markFrom (!inside) rest
    else ⟨token, inside⟩ :: markFrom inside rest

/-- Mark the tokens of a whole line. -/
def mark (tokens : List Token) : List Marked := markFrom false tokens

/-- The first position of an unquoted token that passes the test. -/
def findUnquoted (tokens : List Token) (test : Token → Bool) : Option Nat :=
  (mark tokens).findIdx? fun marked => !marked.quoted && test marked.token

/-- The first position of exactly this word outside literals. The quote itself is never
outside a literal. -/
def position (tokens : List Token) (word : String) : Option Nat :=
  findUnquoted tokens (· == word)

/-- The first position of this keyword, in any case, outside literals. -/
def findKeyword (tokens : List Token) (keyword : String) : Option Nat :=
  findUnquoted tokens (isKeyword · keyword)

/-- Apply a function to the unquoted tokens and leave the others alone. -/
def mapUnquoted (change : Token → Token) (tokens : List Token) : List Token :=
  (mark tokens).map fun marked => if marked.quoted then marked.token else change marked.token

/-- Turn `&` into `+` where it joins two values: not before `&`, `=`, `(` or the end of
the line, and not behind `+`. The previous token counts as it was written out. -/
def joinAmpersands (previous : Token) : List Marked → List Token
  | [] => []
  | marked :: rest =>
    let next := (rest.head?.map Marked.token).getD ""
    let joins := !marked.quoted && marked.token == "&" && next != "&" && previous != "+" &&
      next != "=" && next != "(" && next != ""
    let token := if joins then "+" else marked.token
    token :: joinAmpersands token rest

/-- A line's tokens with `&` written as `+` where it joins two values. -/
def concatenations (tokens : List Token) : List Token := joinAmpersands "" (mark tokens)

/-- Marking keeps the tokens and their order. -/
theorem markFrom_map_token (inside : Bool) (tokens : List Token) :
    (markFrom inside tokens).map Marked.token = tokens := by
  induction tokens generalizing inside with
  | nil => rfl
  | cons token rest inductionHypothesis =>
    by_cases isQuote : token = quote <;> simp [markFrom, isQuote, inductionHypothesis]

/-- Marking keeps the number of tokens. -/
theorem length_markFrom (inside : Bool) (tokens : List Token) :
    (markFrom inside tokens).length = tokens.length := by
  simpa using congrArg List.length (markFrom_map_token inside tokens)

end BasicToSharp.Token
