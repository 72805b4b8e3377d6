import BasicToSharp.Rule.Basic
import BasicToSharp.Spacing

/-!
# Containers

Headers of classes, modules and namespaces, base lists, and the `End` lines that close
blocks. A base list is added to the header of the innermost container, whose position
among the written lines is remembered.
-/

namespace BasicToSharp

/-- The construct that a container header is. -/
def ContainerKind.construct : ContainerKind → Construct
  | .classBlock => .classHeader
  | .moduleBlock => .moduleHeader

/-- A class or module header: its name and the line it becomes. -/
structure ContainerHeader where
  name : Token
  line : String
  deriving DecidableEq, Repr

/-- Read a class or module header whose keyword is at position `keyword`. A module
becomes a static class, and a generic name is written with its type parameters. -/
def ContainerHeader.read (kind : ContainerKind) (tokens : List Token) (keyword : Nat) :
    Reading ContainerHeader := do
  let name := tokenAt tokens (keyword + 1)
  if Token.isIdentifier name then
    let display ←
      if tokenAt tokens (keyword + 2) = "(" then do
        let (text, _) ← Reading.typeText (← Reading.sliceFrom tokens (keyword + 1))
        pure text
      else pure name
    let modifiers := modifiersOf (← Reading.sliceUpTo tokens keyword)
    let static := if kind = .moduleBlock then ["static"] else []
    return ⟨name, " ".intercalate (modifiers ++ static ++ ["class", display])⟩
  else Reading.refuse kind.construct .missingName

/-- The base types of an inheritance clause, behind its keyword. -/
def readBases : List (List Token) → Reading (List String)
  | [] => .ok []
  | part :: rest => do
    let (base, used) ← Reading.typeText part
    if used = part.length then return base :: (← readBases rest)
    else Reading.refuse .inheritanceClause (.unexpected (tokenAt part used))

/-- Whether a character list holds a colon between two spaces. -/
def hasBaseMark : List Char → Bool
  | ' ' :: ':' :: ' ' :: _ => true
  | [] => false
  | _ :: rest => hasBaseMark rest

/-- A header with one more base type: the first is set off by a colon, the others by
commas. -/
def addBase (header base : String) : String :=
  header ++ (if hasBaseMark header.toList then ", " else " : ") ++ base

/-- The open blocks after an `End` line for this target, and whether it closed anything.
A target that opens no block of its own counts as closed. -/
def Nesting.closeTarget (nesting : Nesting) (target : Token) : Nesting × Bool :=
  match target with
  | "Class" => (nesting.closeContainer .classBlock, nesting.insideClass)
  | "Module" => (nesting.closeContainer .moduleBlock, nesting.insideModule)
  | "Enum" => ({ nesting with enums := nesting.enums.tail }, nesting.insideEnum)
  | "Function" | "Sub" | "Get" | "Set" | "Operator" =>
    (nesting.leaveFunction, nesting.insideFunction)
  | "If" => (nesting.closeBlock .ifBlock, nesting.hasBlock .ifBlock)
  | "While" => (nesting.closeBlock .whileBlock, nesting.hasBlock .whileBlock)
  | "Namespace" => (nesting.closeBlock .namespaceBlock, nesting.hasBlock .namespaceBlock)
  | _ => (nesting, true)

namespace Rule

/-- Class and module headers. -/
def containerHeader (kind : ContainerKind) (tokens : List Token) (keyword : Nat) :
    Rule Unit := do
  let header ← read (ContainerHeader.read kind tokens keyword)
  modify fun draft =>
    { draft with
      symbols := draft.symbols.addClass header.name
      nesting := { draft.nesting with
        containers := ⟨header.name, kind, draft.output.size⟩ :: draft.nesting.containers } }
  openBrace header.line

/-- Namespace headers. -/
def namespaceHeader (tokens : List Token) : Rule Unit := do
  if tokens.length < 2 then read (Reading.refuse .namespaceHeader .missingName)
  else
    let header : Phrase :=
      { tokens := tokens
        spacing := { tightBefore := ["."], tightAfter := ["."] }
        lead := "namespace" }
    renest fun nesting => { nesting with blocks := .namespaceBlock :: nesting.blocks }
    openBrace header.renderReplacingFirst

/-- Base lists: the types are added to the header of the innermost container. -/
def inheritance (tokens : List Token) : Rule Unit := do
  let draft ← get
  let container ← read
    (Reading.require draft.nesting.container? .inheritanceClause .notInsideClass)
  let bases ← read do readBases (Token.commaParts (← Reading.sliceFrom tokens 1))
  if bases.isEmpty then read (Reading.refuse .inheritanceClause .missingBaseType)
  else
    let header ← read
      (Reading.require draft.output[container.headerLine]? .inheritanceClause
        .headerLineNotFound)
    modify fun draft =>
      { draft with
        output := draft.output.setIfInBounds container.headerLine (bases.foldl addBase header) }

/-- `End` lines. A bare `End` leaves the program; `End Property` closes no brace, since
the accessors have closed their own. -/
def endBlock (tokens : List Token) : Rule Unit := do
  let target := tokenAt tokens 1
  if target = "" then emit "Environment.Exit(0);"
  else if target = "Property" then
    renest fun nesting => { nesting.leaveFunction with propertyHeader := none }
  else
    let (nesting, closed) := (← get).nesting.closeTarget target
    renest fun _ => nesting
    unless closed do report (.unmatchedClose ("End " ++ target))
    emit "\x7d"

end Rule

end BasicToSharp
