import BasicToSharp.Text.Lines
import BasicToSharp.Token.Scan

/-!
# Source lines

Before anything is read, every line of a source is trimmed and loses its trailing
comment, and a `Dim` that declares several names may be split into one line per name. A
name with neither a type nor an initial value then takes the type of the next name that
has one.
-/

namespace BasicToSharp

/-- A prepared source line with the number, from one, of the line it comes from. -/
structure SourceLine where
  number : Nat
  text : String
  deriving DecidableEq, Repr

namespace SourceLine

/-- The characters before the first apostrophe outside literals; nothing when there is no
such apostrophe. -/
def beforeComment (insideLiteral : Bool) : List Char → Option (List Char)
  | [] => none
  | c :: rest =>
    if c = Token.quoteChar then (beforeComment (!insideLiteral) rest).map (c :: ·)
    else if c = Token.apostrophe ∧ insideLiteral = false then some []
    else (beforeComment insideLiteral rest).map (c :: ·)

/-- A line without its trailing comment. An apostrophe at the very start ends nothing, but
a later one does, in a comment line too. -/
def stripComment (line : String) : String :=
  match line.toList with
  | [] => line
  | first :: rest =>
    match beforeComment (first == Token.quoteChar) rest with
    | none => line
    | some kept => String.ofList (Text.dropTrailingBlanks (first :: kept))

/-- Split a character list at the commas that are outside literals and brackets;
`current` holds the current piece, last character first. -/
def splitSegments (depth : Nat) (insideLiteral : Bool) (current : List Char) :
    List Char → List (List Char)
  | [] => [current.reverse]
  | c :: rest =>
    if c = Token.quoteChar then splitSegments depth (!insideLiteral) (c :: current) rest
    else if insideLiteral then splitSegments depth insideLiteral (c :: current) rest
    else if c = '(' ∨ c = '[' ∨ c = '\x7b' then
      splitSegments (depth + 1) insideLiteral (c :: current) rest
    else if c = ')' ∨ c = ']' ∨ c = '\x7d' then
      splitSegments (depth - 1) insideLiteral (c :: current) rest
    else if c = ',' ∧ depth = 0 then
      current.reverse :: splitSegments depth insideLiteral [] rest
    else splitSegments depth insideLiteral (c :: current) rest

/-- The trimmed, non-empty pieces of a comma-separated text. -/
def segments (chars : List Char) : List String :=
  (((splitSegments 0 false [] chars).map Text.trimBlanks).filter (!·.isEmpty)).map
    String.ofList

/-- The type that a declared name states for itself: what follows `As`, up to an initial
value and without `New`. -/
def typeClause (segment : String) : Option String :=
  let tokens := Token.tokenize segment
  match Token.findKeyword tokens "as" with
  | none => none
  | some start =>
    let clause := ((tokens.drop (start + 1)).takeWhile (· != "=")).filter
      (!Token.isKeyword · "new")
    if clause.isEmpty then none else some (" ".intercalate clause)

/-- True of a declared name with an initial value. -/
def hasInitializer (segment : String) : Bool :=
  (Token.position (Token.tokenize segment) "=").isSome

/-- One declaration per piece, each under the keyword. A piece with neither a type nor an
initial value takes the type of the next piece that states one. -/
def shareTypes (keyword : String) : List (String × Option String) → List String
  | [] => []
  | (segment, clause) :: later =>
    let shared :=
      if clause.isNone && !hasInitializer segment then later.findSome? Prod.snd else none
    let ending := match shared with
      | some type => " As " ++ type
      | none => ""
    (keyword ++ " " ++ segment ++ ending) :: shareTypes keyword later

/-- Split a declaration of several names into one line per name. A line that declares
fewer than two is left as it is. -/
def splitDeclaration (line : String) : List String :=
  match Text.cutAtBlank line.toList with
  | none => [line]
  | some (keyword, rest) =>
    let pieces := segments rest
    if pieces.length < 2 then [line]
    else shareTypes (String.ofList keyword) (pieces.map fun piece => (piece, typeClause piece))

/-- True of a line whose first word is `Dim`. -/
def startsWithDim (line : String) : Bool := Token.isKeyword (Text.firstWord line) "dim"

/-- The prepared texts of one source line. -/
def prepareLine (split : Bool) (line : String) : List String :=
  let text := stripComment (Text.trim line)
  if split && startsWithDim text then splitDeclaration text else [text]

/-- Prepare lines that are numbered from `number` on. -/
def prepareFrom (split : Bool) (number : Nat) : List String → List SourceLine
  | [] => []
  | line :: rest =>
    (prepareLine split line).map (fun text => ⟨number, text⟩) ++
      prepareFrom split (number + 1) rest

/-- The prepared lines of a source. -/
def prepare (source : String) (split : Bool) : List SourceLine :=
  prepareFrom split 1 (Text.lines source)

example : splitDeclaration "Dim s = \"a, b\", m, n As Integer" =
    ["Dim s = \"a, b\"", "Dim m As Integer", "Dim n As Integer"] := by decide +kernel
example : stripComment "x = \"it's\" ' note" = "x = \"it's\"" := by decide +kernel

end SourceLine

end BasicToSharp
