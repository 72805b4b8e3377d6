import BasicToSharp.Expression
import BasicToSharp.Rule.Basic

/-!
# Enums

Enum headers and the enumerator lines of an open enum. The value of an enumerator is
recorded when it is an integer literal, the name of an earlier enumerator or left out;
any other value is written but not recorded.
-/

namespace BasicToSharp

/-- Record an enumerator, whose value is given as text if it states one. -/
def EnumRecord.record (record : EnumRecord) (name : String) (value : Option String) :
    EnumRecord :=
  match value with
  | none => record.addImplicit name
  | some text =>
    match Number.readInteger text with
    | some value => record.addValue name value
    | none =>
      match record.value? text with
      | some value => record.addValue name value
      | none => record

/-- An enum header: the record it starts and the line it becomes. -/
structure EnumHeader where
  record : EnumRecord
  line : String
  deriving DecidableEq, Repr

/-- Read an enum header whose keyword is at position `keyword`. -/
def EnumHeader.read (tokens : List Token) (keyword : Nat) : Reading EnumHeader := do
  let name := tokenAt tokens (keyword + 1)
  let behind := tokenAt tokens (keyword + 2)
  if Token.isIdentifier name then
    let underlying ←
      if behind = "" then pure []
      else if Token.isKeyword behind "as" then do
        let (text, _) ← Reading.typeText (← Reading.sliceFrom tokens (keyword + 3))
        pure [":", text]
      else Reading.refuse .enumHeader (.unexpected behind)
    let modifiers := modifiersOf (← Reading.sliceUpTo tokens keyword)
    let record := (modifiers.foldl EnumRecord.addModifier {}).setName name
    let header : Phrase := { tokens := record.modifiers ++ ["enum", name] ++ underlying }
    return ⟨record, header.render⟩
  else Reading.refuse .enumHeader .missingName

/-- Record an enumerator of the innermost enum, if the name can be one. -/
def Draft.recordEnumerator (draft : Draft) (name : Token) (value : Option String) : Draft :=
  match draft.nesting.enums.head? with
  | some current =>
    if Token.isIdentifier name then
      { draft with symbols := { draft.symbols with
          enums := draft.symbols.enums.adjust current (·.record name value) } }
    else draft
  | none => draft

/-- The line of an enumerator, which ends with a comma unless it is empty. -/
def enumeratorLine (tokens : List Token) : String :=
  let line := Expression.render tokens
  if line.isEmpty || line.toList.getLast? == some ',' then line else line ++ ","

namespace Rule

/-- Enum headers. -/
def enumHeader (tokens : List Token) (keyword : Nat) : Rule Unit := do
  let header ← read (EnumHeader.read tokens keyword)
  modify fun draft =>
    { draft with
      symbols := draft.symbols.addEnum header.record
      nesting := { draft.nesting with enums := header.record.name :: draft.nesting.enums } }
  openBrace header.line

/-- Lines inside an open enum. -/
def enumerator (tokens : List Token) : Rule Unit := do
  let value ←
    if tokenAt tokens 1 = "=" then do
      let text ← read (Reading.sliceFrom tokens 2)
      pure (some (String.join text))
    else pure none
  modify fun draft => draft.recordEnumerator (tokenAt tokens 0) value
  emit (enumeratorLine tokens)

end Rule

end BasicToSharp
