import BasicToSharp.Expression
import BasicToSharp.Rule.Basic

/-!
# Declarations

A variable, field or constant: `Dim` and modifiers, a name, an optional type character,
optional array bounds, an optional `As` clause and an optional initial value. A bound is
the last index, so the length of a dimension is one more. A variable of a type that the
file declares is constructed where it states no value.
-/

namespace BasicToSharp

/-- A value built with `New`: its type and its arguments as written. -/
structure Construction where
  type : String
  arguments : String
  deriving DecidableEq, Repr

/-- The text of a construction. -/
def Construction.text (construction : Construction) : String :=
  "new " ++ construction.type ++ "(" ++ construction.arguments ++ ")"

/-- Read the type and arguments behind `New`, and the number of tokens they take. -/
def Construction.read (tokens : List Token) : Reading (Construction × Nat) := do
  let (type, used) ← Reading.typeText tokens
  if tokenAt tokens used = "(" then
    let close ← Reading.require (Token.closing tokens used) .declaration .unclosedArguments
    let arguments := Expression.render (← Reading.slice tokens (used + 1) close)
    return (⟨type, arguments⟩, close + 1)
  else return (⟨type, ""⟩, used)

/-- The modifiers at the start of a declaration, each once, and the number of tokens they
take. `Dim` is skipped. -/
def takeModifiers (modifiers : List String) : List Token → List String × Nat
  | [] => (modifiers, 0)
  | token :: rest =>
    if Token.isKeyword token "dim" then
      let (found, used) := takeModifiers modifiers rest
      (found, used + 1)
    else
      match Vocabulary.modifier? token with
      | none => (modifiers, 0)
      | some modifier =>
        let kept := if modifiers.contains modifier then modifiers else modifiers ++ [modifier]
        let (found, used) := takeModifiers kept rest
        (found, used + 1)

/-- The length of an array dimension from its last index; an empty bound has none. -/
def dimensionText (bound : List Token) : String :=
  if bound.isEmpty then ""
  else
    match Number.readInteger (String.join bound) with
    | some last => Number.decimalText (Number.successor last)
    | none => Expression.render bound ++ " + 1"

/-- The dimensions in parentheses at position `index`, if there are any, and the position
behind them. -/
def readDimensions (tokens : List Token) (index : Nat) :
    Reading (Option (List String) × Nat) := do
  if tokenAt tokens index = "(" then
    let close ← Reading.require (Token.closing tokens index) .declaration .unclosedBounds
    let bounds := Token.commaParts (← Reading.slice tokens (index + 1) close)
    let dimensions := if bounds.isEmpty then [""] else bounds.map dimensionText
    return (some dimensions, close + 1)
  else return (none, index)

/-- What an `As` clause says: a type, and a construction when it says `New`. -/
structure TypeClause where
  type : Option String
  construction : Option Construction
  stop : Nat
  deriving DecidableEq, Repr

/-- Read the `As` clause at position `index`, if there is one; without it the type is the
given one. -/
def TypeClause.read (type : Option String) (tokens : List Token) (index : Nat) :
    Reading TypeClause := do
  if Token.isKeyword (tokenAt tokens index) "as" then
    if Token.isKeyword (tokenAt tokens (index + 1)) "new" then
      let (built, used) ← Construction.read (← Reading.sliceFrom tokens (index + 2))
      return ⟨some built.type, some built, index + 2 + used⟩
    else
      let (stated, used) ← Reading.typeText (← Reading.sliceFrom tokens (index + 1))
      return ⟨some stated, none, index + 1 + used⟩
  else return ⟨type, none, index⟩

/-- The construction that makes up the whole of an initial value, if it is one. -/
def wholeConstruction (value : List Token) : Reading (Option Construction) := do
  if Token.isKeyword (tokenAt value 0) "new" && Token.isIdentifier (tokenAt value 1) then
    let (built, used) ← Construction.read (← Reading.sliceFrom value 1)
    return if used + 1 = value.length then some built else none
  else return none

/-- The array type and the elements of an initial value that is an array literal: `New`,
an array type and elements in braces. -/
def arrayLiteral (value : List Token) : Reading (Option (TypeRef × List Token)) := do
  if Token.isKeyword (tokenAt value 0) "new" then
    match TypeRef.read (← Reading.sliceFrom value 1) with
    | .error _ => return none
    | .ok (type, used) =>
      let elements ← Reading.sliceFrom value (1 + used)
      return if type.ranks ≠ 0 ∧ tokenAt elements 0 = "\x7b" then some (type, elements)
        else none
  else return none

/-- What a declaration is given: a type, a construction and an initial value, each if
there is one. -/
structure Given where
  type : Option String
  construction : Option Construction
  initial : Option String
  deriving DecidableEq, Repr

/-- Take the initial value into account. A construction or array literal also supplies
the type where none is stated, and so does the enum of a value such as `Color.Red`. -/
def Given.withValue (symbols : Symbols) (hasDimensions : Bool) (given : Given)
    (value : List Token) : Reading Given := do
  match ← wholeConstruction value with
  | some built =>
    return { given with
      type := given.type.or (some built.type), construction := some built }
  | none =>
    match ← arrayLiteral value with
    | some (literal, elements) =>
      let ownType := if hasDimensions then literal.element else literal
      return { given with
        type := given.type.or (some ownType.render)
        initial := some ("new " ++ literal.render ++ " " ++ Expression.render elements) }
    | none =>
      let enumType := match value with
        | [owner, ".", _] => if symbols.isEnum owner then some owner else none
        | _ => none
      return { given with
        type := given.type.or enumType, initial := some (Expression.render value) }

/-- Read the initial value at position `index`, if there is one. Anything else there is
refused. -/
def Given.read (symbols : Symbols) (hasDimensions : Bool) (clause : TypeClause)
    (tokens : List Token) : Reading Given := do
  let given : Given := ⟨clause.type, clause.construction, none⟩
  if tokenAt tokens clause.stop = "=" then
    let value ← Reading.sliceFrom tokens (clause.stop + 1)
    if value.isEmpty then Reading.refuse .declaration .missingInitializer
    else given.withValue symbols hasDimensions value
  else if clause.stop < tokens.length then
    Reading.refuse .declaration (.unexpected (← Reading.token tokens clause.stop))
  else return given

/-- The type of an array with this many dimensions, of which there is at least one. -/
def arrayType (base : String) (dimensions : List String) : Reading String :=
  if dimensions.length = 0 then .error .outOfRange
  else .ok (base ++ "[" ++ String.join (List.replicate (dimensions.length - 1) ",") ++ "]")

/-- The name of a type without its arguments. -/
def plainName (type : String) : String := String.ofList (type.toList.takeWhile (· != '<'))

/-- The construction of a variable that states neither dimensions nor a value, when the
file declares its type. -/
def Given.withDefault (symbols : Symbols) (hasDimensions : Bool) (base : String)
    (given : Given) : Given :=
  if !hasDimensions && given.construction.isNone && given.initial.isNone &&
      symbols.isUserType (plainName base) then
    { given with construction := some ⟨base, ""⟩ }
  else given

/-- The initial value as written: a construction, a stated value, or a new array when
every dimension has a length. -/
def Given.initialText (base : String) (dimensions : Option (List String)) (given : Given) :
    Option String :=
  match given.construction with
  | some built => some built.text
  | none =>
    match given.initial, dimensions with
    | some initial, _ => some initial
    | none, some dimensions =>
      if dimensions.all (!·.isEmpty) then
        some ("new " ++ base ++ "[" ++ ", ".intercalate dimensions ++ "]")
      else none
    | none, none => none

/-- Modifiers with `static` added for a variable at module level, unless it is constant
or static already. -/
def Nesting.withLevelStatic (nesting : Nesting) (modifiers : List String) : List String :=
  if nesting.atModuleLevel && !(modifiers.contains "const" || modifiers.contains "static") then
    modifiers ++ ["static"]
  else modifiers

/-- The line that declares a variable. -/
def declarationText (modifiers : List String) (type name : String) (initial : Option String) :
    String :=
  let value := match initial with
    | some initial => " = " ++ initial
    | none => ""
  " ".intercalate (modifiers ++ [type, name]) ++ value ++ ";"

/-- A declaration: the variable and the line it becomes. -/
structure DeclarationLine where
  declared : Variable
  line : String
  deriving DecidableEq, Repr

/-- Read a declaration. -/
def DeclarationLine.read (symbols : Symbols) (nesting : Nesting) (tokens : List Token) :
    Reading DeclarationLine := do
  let (written, start) := takeModifiers [] tokens
  let name := tokenAt tokens start
  if Token.isIdentifier name then
    let suffix := Vocabulary.typeChar? (tokenAt tokens (start + 1))
    let index := if suffix.isSome then start + 2 else start + 1
    let (dimensions, index) ← readDimensions tokens index
    let clause ← TypeClause.read suffix tokens index
    let given ← Given.read symbols dimensions.isSome clause tokens
    let base := given.type.getD TypeRef.defaultText
    let given := given.withDefault symbols dimensions.isSome base
    let type ← match dimensions with
      | some dimensions => arrayType base dimensions
      | none => .ok base
    let initial := given.initialText base dimensions
    let modifiers := nesting.withLevelStatic written
    return ⟨{ name := name
              type := type
              modifiers := modifiers
              isArray := dimensions.isSome
              isNew := given.construction.isSome
              initial := initial.getD "" }, declarationText modifiers type name initial⟩
  else Reading.refuse .declaration .missingName

/-- Enter a variable where it belongs: a local of the current function, a field of the
innermost container if that is a class, or a variable of the file. -/
def Draft.register (draft : Draft) (declared : Variable) : Draft :=
  match draft.nesting.function with
  | some record =>
    { draft with nesting := { draft.nesting with function := some (record.declare declared) } }
  | none =>
    match draft.nesting.container? with
    | some ⟨name, .classBlock, _⟩ =>
      if draft.symbols.isClass name then
        { draft with symbols := draft.symbols.addField name declared }
      else { draft with symbols := draft.symbols.addVariable declared }
    | _ => { draft with symbols := draft.symbols.addVariable declared }

namespace Rule

/-- Declarations. -/
def declaration (tokens : List Token) : Rule Unit := do
  let draft ← get
  let declaration ← read (DeclarationLine.read draft.symbols draft.nesting tokens)
  modify (·.register declaration.declared)
  emit declaration.line

end Rule

end BasicToSharp
