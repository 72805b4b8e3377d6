import BasicToSharp.Expression
import BasicToSharp.Rule.Basic

/-!
# Signatures

The part of a `Function`, `Sub` or `Property` header behind its keyword: a name, optional
type parameters, an optional parameter list and an optional `As` clause. A parameter
becomes its passing words, its type and its name, and a default value behind `=`.
-/

namespace BasicToSharp

/-- A signature that has been read. -/
structure Signature where
  name : Token
  /-- The type parameters as written in C#, or nothing. -/
  generics : String
  parameters : List (List Token)
  /-- The type in the `As` clause. -/
  returnType : Option String
  /-- The position of the first token behind the signature. -/
  stop : Nat
  deriving DecidableEq, Repr

/-- The passing words at the start of a parameter, in C#, and the number of tokens they
take. Words that say nothing in C# are skipped. -/
def takePassing : List Token → List Token × Nat
  | [] => ([], 0)
  | token :: rest =>
    let word := Text.lookupForm token
    let (passing, used) := takePassing rest
    if word = "byval" ∨ word = "optional" then (passing, used + 1)
    else if word = "byref" then ("ref" :: passing, used + 1)
    else if word = "paramarray" then ("params" :: passing, used + 1)
    else ([], 0)

/-- The type in an optional `As` clause at position `index`, the default type when there
is none, and the position behind it. -/
def readParameterType (tokens : List Token) (index : Nat) : Reading (String × Nat) := do
  let (type, stop) ← Reading.asClause tokens index
  return (type.getD TypeRef.defaultText, stop)

/-- The default value at position `index`, with its `=`, when there is one. Anything else
there is refused. -/
def readDefault (tokens : List Token) (index : Nat) : Reading (List Token) := do
  if tokenAt tokens index = "=" then
    let value ← Reading.sliceFrom tokens (index + 1)
    if value.isEmpty then Reading.refuse .parameter .missingDefault
    else return ["=", Expression.render value]
  else if index < tokens.length then
    Reading.refuse .parameter (.unexpected (← Reading.token tokens index))
  else return []

/-- Read one parameter. -/
def readParameter (tokens : List Token) : Reading (List Token) := do
  let (passing, start) := takePassing tokens
  let name := tokenAt tokens start
  if Token.isIdentifier name then
    let isArray := tokenAt tokens (start + 1) == "(" && tokenAt tokens (start + 2) == ")"
    let (type, index) ← readParameterType tokens (if isArray then start + 3 else start + 1)
    let default ← readDefault tokens index
    return passing ++ [if isArray then type ++ "[]" else type, name] ++ default
  else Reading.refuse .parameter .missingName

/-- Read the parameters between the parentheses of a parameter list. -/
def readParameters (tokens : List Token) : Reading (List (List Token)) :=
  (Token.commaParts tokens).mapM readParameter

/-- The type parameters at position `index`, if there are any, and the position behind
them. -/
def readGenerics (construct : Construct) (tokens : List Token) (index : Nat) :
    Reading (String × Nat) := do
  if tokenAt tokens index = "(" ∧ Token.isKeyword (tokenAt tokens (index + 1)) "of" then
    let close ← Reading.require (Token.closing tokens index) construct .unclosedTypeList
    let inner ← Reading.slice tokens (index + 2) close
    let names := (Token.commaParts inner).map (" ".intercalate ·)
    return ("<" ++ ", ".intercalate names ++ ">", close + 1)
  else return ("", index)

/-- The parameter list at position `index`, if there is one, and the position behind it. -/
def readParameterList (construct : Construct) (tokens : List Token) (index : Nat) :
    Reading (List (List Token) × Nat) := do
  if tokenAt tokens index = "(" then
    let close ← Reading.require (Token.closing tokens index) construct .unclosedParameters
    let parameters ← readParameters (← Reading.slice tokens (index + 1) close)
    return (parameters, close + 1)
  else return ([], index)

/-- Read the signature behind the keyword at position `keyword`. -/
def Signature.read (construct : Construct) (tokens : List Token) (keyword : Nat) :
    Reading Signature := do
  let name := tokenAt tokens (keyword + 1)
  if Token.isIdentifier name then
    let (generics, index) ← readGenerics construct tokens (keyword + 2)
    let (parameters, index) ← readParameterList construct tokens index
    let (returnType, index) ← Reading.asClause tokens index
    return ⟨name, generics, parameters, returnType, index⟩
  else Reading.refuse construct .missingName

/-- The type and name of a parameter, behind its passing words. -/
def parameterBinding (parameter : List Token) : Option (String × String) :=
  match parameter.dropWhile fun token => token == "ref" || token == "params" with
  | type :: name :: _ => some (type, name)
  | _ => none

/-- Put a comma token between the texts of parameters. -/
def separateParameters : List (List Token) → List Token
  | [] => []
  | [parameter] => [" ".intercalate parameter]
  | parameter :: rest => " ".intercalate parameter :: "," :: separateParameters rest

/-- The signature line of a function. -/
def FunctionRecord.signature (record : FunctionRecord) (generics : String) : String :=
  { Spacing.closeParentheses with tightBefore := ["(", ")", ","] : Spacing }.join
    (record.modifiers ++ record.returnType.toList ++ [record.name ++ generics, "("] ++
      separateParameters record.parameters ++ [")"])

end BasicToSharp
