import BasicToSharp.Nesting
import BasicToSharp.Token.Quoted

/-!
# Statements

What a line is, decided by its tokens in a fixed order of tests. A keyword that opens a
declaration counts only when every token before it is a plain word, which keeps literals,
lambdas and member calls such as `x.Set(1)` out. Keywords are recognised here in their
usual spelling only.
-/

namespace BasicToSharp

/-- What a line is. Numbers are positions among the line's tokens. -/
inductive Statement
  | blank
  | comment
  | container (kind : ContainerKind) (keyword : Nat)
  | declaration
  | doLoop
  | endBlock
  | exitJump
  | enumHeader (keyword : Nat)
  | forLoop
  | function (keyword : Nat) (isSub : Bool)
  | accessor (keyword : Nat)
  | ifBranch
  | elseIfBranch
  | elseBranch
  | loopEnd
  | namespaceHeader
  | nextLoop
  | property (keyword : Nat)
  | returnJump
  | whileLoop (keyword : Nat)
  | inheritance
  | other
  deriving DecidableEq, Repr

namespace Statement

/-- The position of a keyword, in this spelling, when every token before it is a plain
word. -/
def declarationKeyword (tokens : List Token) (keyword : String) : Option Nat :=
  match tokens.findIdx? (· == keyword) with
  | some index => if (tokens.take index).all Token.isIdentifier then some index else none
  | none => none

/-- The position of a declaration keyword in a line that is no `End` line. -/
def openingKeyword (tokens : List Token) (keyword : String) : Option Nat :=
  if tokenAt tokens 0 = "End" then none else declarationKeyword tokens keyword

/-- The position of one accessor keyword, when nothing or a parameter list follows it. -/
def accessorNamed (tokens : List Token) (keyword : String) : Option Nat :=
  (declarationKeyword tokens keyword).filter fun index =>
    tokenAt tokens (index + 1) == "" || tokenAt tokens (index + 1) == "("

/-- The position of `Get` or `Set` in a line that opens an accessor. -/
def accessorKeyword (tokens : List Token) : Option Nat :=
  (accessorNamed tokens "Get").or (accessorNamed tokens "Set")

/-- True of a comment line: one that starts with an apostrophe, or whose first word is
`Rem`. -/
def isComment (text : String) (tokens : List Token) : Bool :=
  text.toList.head? == some Token.apostrophe || Token.isKeyword (tokenAt tokens 0) "rem"

/-- The later tests of the order, from `Module` on. -/
def classifyMember (tokens : List Token) : Statement :=
  let first := tokenAt tokens 0
  if let some keyword := openingKeyword tokens "Module" then .container .moduleBlock keyword
  else if first = "Namespace" then .namespaceHeader
  else if first = "Next" ∨ first = "Wend" then .nextLoop
  else if let some keyword := openingKeyword tokens "Property" then .property keyword
  else if first = "Return" then .returnJump
  else if let some keyword := openingKeyword tokens "Sub" then .function keyword true
  else if let some keyword := Token.position tokens "While" then .whileLoop keyword
  else if first = "Inherits" ∨ first = "Implements" then .inheritance
  else if Vocabulary.isModifier first then .declaration
  else .other

/-- The middle tests of the order, from `Enum` on. -/
def classifyBlock (tokens : List Token) : Statement :=
  let first := tokenAt tokens 0
  if let some keyword := openingKeyword tokens "Enum" then .enumHeader keyword
  else if first = "For" then .forLoop
  else if let some keyword := openingKeyword tokens "Function" then .function keyword false
  else if let some keyword := accessorKeyword tokens then .accessor keyword
  else if first = "If" then .ifBranch
  else if first = "ElseIf" then .elseIfBranch
  else if first = "Else" then .elseBranch
  else if first = "Loop" then .loopEnd
  else classifyMember tokens

/-- What a prepared line is, given its tokens. -/
def classify (text : String) (tokens : List Token) : Statement :=
  let first := tokenAt tokens 0
  if tokens.isEmpty then .blank
  else if isComment text tokens then .comment
  else if let some keyword := openingKeyword tokens "Class" then .container .classBlock keyword
  else if first = "Dim" then .declaration
  else if first = "Do" then .doLoop
  else if first = "End" then .endBlock
  else if first = "Exit" then .exitJump
  else classifyBlock tokens

example : classify "Public Class Foo" ["Public", "Class", "Foo"] =
    .container .classBlock 1 := by decide
example : classify "cache.Set(key)" ["cache", ".", "Set", "(", "key", ")"] = .other := by
  decide

end Statement

end BasicToSharp
