import BasicToSharp.Rule.Function
import BasicToSharp.Statement

/-!
# Properties

A property header with accessors behind it writes nothing; its position is remembered,
and each accessor becomes a method of its own built from the header. A header without
accessors becomes an automatic property.
-/

namespace BasicToSharp

/-- Whether the next line that is neither empty nor an apostrophe comment opens an
accessor. -/
def accessorFollows (lines : List SourceLine) : Bool :=
  match lines.find? fun line =>
    !line.text.isEmpty && line.text.toList.head? != some Token.apostrophe with
  | some line => (Statement.accessorKeyword (Token.tokenize line.text)).isSome
  | none => false

/-- Whether the property header at the cursor has accessors. -/
def Draft.accessorFollows (draft : Draft) : Bool :=
  BasicToSharp.accessorFollows (draft.input.drop (draft.cursor + 1))

/-- The modifiers of a property, without `readonly`, from the tokens before its keyword. -/
def propertyModifiers (tokens : List Token) : List String :=
  (modifiersOf tokens).filter (· != "readonly")

/-- An automatic property: the field it declares and the line it becomes. -/
structure PropertyLine where
  declared : Variable
  line : String
  deriving DecidableEq, Repr

/-- The type of an automatic property, the construction it states, and the position behind
its `As` clause. -/
def readPropertyType (tokens : List Token) (index : Nat) :
    Reading (String × Option String × Nat) := do
  if Token.isKeyword (tokenAt tokens index) "as" then
    let constructed := Token.isKeyword (tokenAt tokens (index + 1)) "new"
    let start := if constructed then index + 2 else index + 1
    let (type, used) ← Reading.typeText (← Reading.sliceFrom tokens start)
    let stop := start + used
    if constructed then
      if tokenAt tokens stop = "(" then
        let close ← Reading.require (Token.closing tokens stop) .property .unclosedArguments
        let arguments := Expression.render (← Reading.slice tokens (stop + 1) close)
        return (type, some ("new " ++ type ++ "(" ++ arguments ++ ")"), close + 1)
      else return (type, some ("new " ++ type ++ "()"), stop)
    else return (type, none, stop)
  else return (TypeRef.defaultText, none, index)

/-- The initial value of an automatic property: the one stated at position `index`, else
the construction. Anything else there is refused. -/
def readPropertyValue (construction : Option String) (tokens : List Token) (index : Nat) :
    Reading (Option String) := do
  if tokenAt tokens index = "=" then
    if tokens.length = index + 1 then Reading.refuse .property .missingInitializer
    else return some (Expression.render (← Reading.sliceFrom tokens (index + 1)))
  else if index < tokens.length then
    Reading.refuse .property (.unexpected (← Reading.token tokens index))
  else return construction

/-- Read an automatic property whose keyword is at position `keyword`. -/
def PropertyLine.read (nesting : Nesting) (tokens : List Token) (keyword : Nat) :
    Reading PropertyLine := do
  let name := tokenAt tokens (keyword + 1)
  if Token.isIdentifier name then
    let (type, construction, index) ← readPropertyType tokens (keyword + 2)
    let initial ← readPropertyValue construction tokens index
    let before ← Reading.sliceUpTo tokens keyword
    let accessors :=
      if before.any (Token.isKeyword · "readonly") then "\x7b get; \x7d"
      else "\x7b get; set; \x7d"
    let modifiers := nesting.withModuleStatic (propertyModifiers before)
    let value := match initial with
      | some initial => " = " ++ initial ++ ";"
      | none => ""
    return ⟨{ name := name, type := type },
      " ".intercalate (modifiers ++ [type, name, accessors]) ++ value⟩
  else Reading.refuse .property .missingName

/-- Enter the field of an automatic property: with the innermost container, or as a
variable of the file. -/
def Draft.registerProperty (draft : Draft) (declared : Variable) : Draft :=
  match draft.nesting.container? with
  | some container =>
    if draft.symbols.isClass container.name then
      { draft with symbols := draft.symbols.addField container.name declared }
    else { draft with symbols := draft.symbols.addVariable declared }
  | none => { draft with symbols := draft.symbols.addVariable declared }

/-- A property header that waits for its accessors: its signature and its modifiers. -/
structure PropertyHeader where
  signature : Signature
  modifiers : List String
  deriving DecidableEq, Repr

/-- Read the pending property header again from the source line it stands on. -/
def PropertyHeader.read (pending : Option Nat) (input : List SourceLine) :
    Reading PropertyHeader := do
  let index ← Reading.require pending .propertyAccessor .noPropertyHeader
  let line ← Reading.require input[index]? .propertyAccessor .propertyHeaderOutOfRange
  let tokens := Token.concatenations (Token.tokenize line.text)
  let keyword ← Reading.require (Statement.declarationKeyword tokens "Property")
    .propertyAccessor .headerWithoutProperty
  let signature ← Signature.read .property tokens keyword
  return ⟨signature, propertyModifiers (← Reading.sliceUpTo tokens keyword)⟩

/-- The parameters that an accessor states itself. -/
def readAccessorParameters (tokens : List Token) (keyword : Nat) :
    Reading (List (List Token)) := do
  if tokenAt tokens (keyword + 1) = "(" then
    let close ← Reading.require (Token.closing tokens (keyword + 1)) .propertyAccessor
      .unclosedParameters
    readParameters (← Reading.slice tokens (keyword + 2) close)
  else return []

/-- The name of an accessor's method, set off where a function of that name exists. -/
def Symbols.accessorName (symbols : Symbols) (isSet : Bool) (property : String) : String :=
  let name := (if isSet then "Set" else "Get") ++ property
  if symbols.isFunction name then "Prop_" ++ name else name

/-- An accessor as a method: its record and the type parameters of its property. -/
structure AccessorHeader where
  record : FunctionRecord
  generics : String
  deriving DecidableEq, Repr

/-- Read an accessor whose keyword is at position `keyword`. A `Set` that states no
parameter takes the new value, and the parameters of the property follow. -/
def AccessorHeader.read (draft : Draft) (tokens : List Token) (keyword : Nat) :
    Reading AccessorHeader := do
  let property ← PropertyHeader.read draft.nesting.propertyHeader draft.input
  let type := property.signature.returnType.getD TypeRef.defaultText
  let isSet := (← Reading.token tokens keyword) == "Set"
  let stated ← readAccessorParameters tokens keyword
  let own := if isSet && stated.isEmpty then [[type, "value"]] else stated
  let written := modifiersOf (← Reading.sliceUpTo tokens keyword)
  let modifiers := if written.isEmpty then property.modifiers else written
  return ⟨{ name := draft.symbols.accessorName isSet property.signature.name
            modifiers := draft.nesting.withModuleStatic modifiers
            returnType := some (if isSet then "void" else type)
            parameters := own ++ property.signature.parameters }, property.signature.generics⟩

namespace Rule

/-- Property headers. -/
def property (tokens : List Token) (keyword : Nat) : Rule Unit := do
  let draft ← get
  if draft.accessorFollows then
    let _ ← read (Signature.read .property tokens keyword)
    renest fun nesting => { nesting with propertyHeader := some draft.cursor }
  else
    let property ← read (PropertyLine.read draft.nesting tokens keyword)
    modify (·.registerProperty property.declared)
    emit property.line

/-- `Get` and `Set` lines. -/
def accessor (tokens : List Token) (keyword : Nat) : Rule Unit := do
  let header ← read (AccessorHeader.read (← get) tokens keyword)
  openFunction header.record header.generics none

end Rule

end BasicToSharp
