import BasicToSharp.Draft
import BasicToSharp.Token.Bracket

/-!
# Conversion rules

Each kind of statement has a rule that turns its tokens into lines of the draft. A rule
first reads the line, which cannot touch the draft, and then writes. It can be stopped by
a malformed statement or by asking for a part of the line that is not there; the draft it
leaves behind is kept in either case, so that what a stopped rule has done can be seen.
-/

namespace BasicToSharp

/-- Why a rule stopped. -/
inductive Obstacle
  /-- The statement cannot be made sense of. -/
  | malformed (cause : Malformed)
  /-- A part of the line was asked for that lies outside it. -/
  | outOfRange
  deriving DecidableEq, Repr

/-- What can be learned from a line without touching the draft. -/
abbrev Reading := Except Obstacle

/-- A conversion step: a result or an obstacle, and in both cases the draft left behind. -/
abbrev Rule := EStateM Obstacle Draft

namespace Reading

variable {α : Type}

/-- Stop because the statement is malformed. -/
def refuse (construct : Construct) (reason : Reason) : Reading α :=
  .error (.malformed ⟨construct, reason⟩)

/-- The value, or a refusal when there is none. -/
def require (value : Option α) (construct : Construct) (reason : Reason) : Reading α :=
  match value with
  | some value => .ok value
  | none => refuse construct reason

/-- The tokens from position `first` up to, but not including, position `last`. -/
def slice (tokens : List Token) (first last : Nat) : Reading (List Token) :=
  if first ≤ last ∧ last ≤ tokens.length then .ok ((tokens.take last).drop first)
  else .error .outOfRange

/-- The tokens from position `first` on. -/
def sliceFrom (tokens : List Token) (first : Nat) : Reading (List Token) :=
  slice tokens first tokens.length

/-- The tokens before position `last`. -/
def sliceUpTo (tokens : List Token) (last : Nat) : Reading (List Token) := slice tokens 0 last

/-- The token at a position of the line. -/
def token (tokens : List Token) (index : Nat) : Reading Token :=
  match tokens[index]? with
  | some token => .ok token
  | none => .error .outOfRange

/-- The type reference at the start of a token list, and the number of its tokens. -/
def typeRef (tokens : List Token) : Reading (TypeRef × Nat) :=
  match TypeRef.read tokens with
  | .ok found => .ok found
  | .error cause => .error (.malformed cause)

/-- The text of the type reference at the start of a token list, and the number of its
tokens. -/
def typeText (tokens : List Token) : Reading (String × Nat) := do
  let (reference, used) ← typeRef tokens
  return (reference.render, used)

/-- The type in an optional `As` clause at position `index`, and the position behind it. -/
def asClause (tokens : List Token) (index : Nat) : Reading (Option String × Nat) := do
  if Token.isKeyword (tokenAt tokens index) "as" then
    let (type, used) ← typeText (← sliceFrom tokens (index + 1))
    return (some type, index + 1 + used)
  else return (none, index)

end Reading

namespace Rule

variable {α : Type}

/-- Read from the line; an obstacle stops the rule. -/
def read (reading : Reading α) : Rule α :=
  match reading with
  | .ok value => pure value
  | .error obstacle => throw obstacle

/-- Write a line. -/
def emit (line : String) : Rule Unit := modify (·.emit line)

/-- Record a notice about the current line. -/
def report (notice : Notice) : Rule Unit := modify (·.report notice)

/-- Change the open blocks. -/
def renest (change : Nesting → Nesting) : Rule Unit :=
  modify fun draft => { draft with nesting := change draft.nesting }

/-- Write the header of a block and its opening brace. -/
def openBrace (header : String) : Rule Unit := do
  emit header
  emit "\x7b"

end Rule

/-- The C# modifiers among the tokens before a declaration; other words are dropped. -/
def modifiersOf (tokens : List Token) : List String := tokens.filterMap Vocabulary.modifier?

end BasicToSharp
