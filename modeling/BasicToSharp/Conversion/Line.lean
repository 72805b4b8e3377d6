import BasicToSharp.Rule.Branch
import BasicToSharp.Rule.Container
import BasicToSharp.Rule.Declaration
import BasicToSharp.Rule.Loop
import BasicToSharp.Rule.PassThrough
import BasicToSharp.Rule.Property

/-!
# Converting one line

A prepared line is split into tokens, classified and given to the rule of its statement.
A malformed statement is reported and the line passed through, from the draft that the
stopped rule has left. A rule that asks for a part of the line outside it ends the
conversion.
-/

namespace BasicToSharp

/-- The characters of a text behind its first `count` bytes; nothing when the cut would
fall inside a character or behind the end. -/
def dropBytes : Nat → List Char → List Char
  | 0, chars => chars
  | _ + 1, [] => []
  | count + 1, c :: rest =>
    if c.utf8Size ≤ count + 1 then dropBytes (count + 1 - c.utf8Size) rest else []

/-- The line of a comment: what follows the apostrophe, or what follows the three bytes of
`Rem`. -/
def commentLine (text : String) : String :=
  match text.toList with
  | first :: rest =>
    if first = Token.apostrophe then "//" ++ String.ofList rest
    else "//" ++ String.ofList (dropBytes 3 (first :: rest))
  | [] => "//"

/-- The rule for a statement. -/
def Statement.rule (statement : Statement) (text : String) (tokens : List Token) :
    Rule Unit :=
  match statement with
  | .blank => Rule.emit ""
  | .comment => Rule.emit (commentLine text)
  | .container kind keyword => Rule.containerHeader kind tokens keyword
  | .declaration => Rule.declaration tokens
  | .doLoop => Rule.doLoop tokens
  | .endBlock => Rule.endBlock tokens
  | .exitJump => Rule.exitJump tokens
  | .enumHeader keyword => Rule.enumHeader tokens keyword
  | .forLoop => Rule.forLoop tokens
  | .function keyword isSub => Rule.function tokens keyword isSub
  | .accessor keyword => Rule.accessor tokens keyword
  | .ifBranch => Rule.ifBranch tokens
  | .elseIfBranch => Rule.elseIfBranch tokens
  | .elseBranch => Rule.elseBranch tokens
  | .loopEnd => Rule.loopEnd tokens
  | .namespaceHeader => Rule.namespaceHeader tokens
  | .nextLoop => Rule.nextLoop tokens
  | .property keyword => Rule.property tokens keyword
  | .returnJump => Rule.returnJump tokens
  | .whileLoop keyword => Rule.whileLoop tokens keyword
  | .inheritance => Rule.inheritance tokens
  | .other => Rule.passThrough tokens

/-- A part of a line was asked for that lies outside it. -/
inductive RangeFault
  | outOfRange
  deriving DecidableEq, Repr

/-- The tokens of a prepared line, with joining ampersands replaced. -/
def lineTokens (text : String) : List Token := Token.concatenations (Token.tokenize text)

/-- What a prepared line is. -/
def lineStatement (text : String) : Statement := Statement.classify text (lineTokens text)

/-- Report a malformed statement and pass its line through. -/
def Rule.passMalformed (cause : Malformed) (tokens : List Token) : Rule Unit := do
  report (.malformed cause)
  passThrough tokens

/-- Convert one prepared line. -/
def Draft.convertLine (draft : Draft) (text : String) : Except RangeFault Draft :=
  let tokens := lineTokens text
  match ((lineStatement text).rule text tokens).run draft with
  | .ok () after => .ok after
  | .error .outOfRange _ => .error .outOfRange
  | .error (.malformed cause) left =>
    match (Rule.passMalformed cause tokens).run left with
    | .ok () after => .ok after
    | .error _ _ => .error .outOfRange

end BasicToSharp
