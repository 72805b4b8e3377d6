import BasicToSharp.Rule.Signature

/-!
# Functions

`Function` and `Sub` headers. `Main` becomes the static entry point, `New` the constructor
of the innermost container, and members of a module are static. What follows the
signature has no counterpart and is kept as a comment.
-/

namespace BasicToSharp

/-- Modifiers with `static` added for a member of a module. -/
def Nesting.withModuleStatic (nesting : Nesting) (modifiers : List String) : List String :=
  if nesting.ownedByModule && !modifiers.contains "static" then modifiers ++ ["static"]
  else modifiers

/-- A record that also knows its parameters as variables. -/
def FunctionRecord.bindParameters (record : FunctionRecord) : FunctionRecord :=
  (record.parameters.filterMap parameterBinding).foldl
    (fun record (type, name) => record.declare { name := name, type := type }) record

/-- Whether the next member is set off by a blank line: not at the start, behind a blank
line or behind an opening brace. -/
def Draft.needsGap (draft : Draft) : Bool :=
  match draft.output.back? with
  | none => false
  | some last => last != "" && last != "\x7b"

/-- The modifiers, name and return type of a function with this signature. Only a sub can
be the entry point or a constructor. -/
def Nesting.functionHead (nesting : Nesting) (signature : Signature) (isSub : Bool)
    (modifiers : List String) : Reading (List String × String × Option String) :=
  if isSub then
    if signature.name = "Main" then .ok (["static"], "Main", some "void")
    else if signature.name = "New" then do
      let container ← Reading.require nesting.container? .constructor .outsideAnyClass
      let modifiers :=
        if nesting.ownedByModule then ["static"]
        else if modifiers.any Vocabulary.isVisibility then modifiers
        else "public" :: modifiers
      return (modifiers, container.name, none)
    else .ok (modifiers, signature.name, some "void")
  else .ok (modifiers, signature.name, some (signature.returnType.getD TypeRef.defaultText))

/-- A function header: the record, its type parameters and the clause behind it. -/
structure FunctionHeader where
  record : FunctionRecord
  generics : String
  clause : Option String
  deriving DecidableEq, Repr

/-- Read the header of a function or sub whose keyword is at position `keyword`. -/
def FunctionHeader.read (nesting : Nesting) (tokens : List Token) (keyword : Nat)
    (isSub : Bool) : Reading FunctionHeader := do
  let signature ← Signature.read (if isSub then .sub else .function) tokens keyword
  let written := modifiersOf (← Reading.sliceUpTo tokens keyword)
  let (modifiers, name, returnType) ← nesting.functionHead signature isSub written
  let trailing ← Reading.sliceFrom tokens (min signature.stop tokens.length)
  let clause := if trailing.isEmpty then none else some (formatTokens trailing)
  return ⟨{ name := name
            modifiers := nesting.withModuleStatic modifiers
            returnType := returnType
            parameters := signature.parameters }, signature.generics, clause⟩

namespace Rule

/-- Start a function: write its signature, with a comment behind it if there is one, and
make it the current function. -/
def openFunction (record : FunctionRecord) (generics : String) (comment : Option String) :
    Rule Unit := do
  let record := record.bindParameters
  let ending := match comment with
    | some comment => " // " ++ comment
    | none => ""
  if (← get).needsGap then emit ""
  openBrace (record.signature generics ++ ending)
  modify fun draft =>
    { draft with
      symbols := draft.symbols.addFunction record
      nesting := draft.nesting.enterFunction record }

/-- `Function` and `Sub` headers. -/
def function (tokens : List Token) (keyword : Nat) (isSub : Bool) : Rule Unit := do
  let header ← read (FunctionHeader.read (← get).nesting tokens keyword isSub)
  openFunction header.record header.generics header.clause
  if let some clause := header.clause then report (.trailingClause clause)

end Rule

end BasicToSharp
