import BasicToSharp.Proofs.AccessorLookAhead
import BasicToSharp.Proofs.BraceDepth

/-!
# Well-nested sources

Which lines open a block, which lines close it, and what may stand where. A stretch of
lines is well nested when it can be derived from nothing by putting a leaf before it, or an
opener, a well-nested body and the closer of that opener. The kinds of lines are those of
their statements; whether a rule accepts an opener or closer is asked separately, along the
conversion.
-/

namespace BasicToSharp

/-- The blocks that lines open and close. -/
inductive Frame
  | container (kind : ContainerKind)
  | block (kind : BlockKind)
  | enumBlock
  | doLoop
  | function
  | accessor
  | property
  deriving DecidableEq, Repr

/-- What a line stands in: code, in a function or not and directly in a branch or not; the
body of an enum; or the body of a property, which holds its accessors. -/
inductive Scope
  | code (inFunction inBranch : Bool)
  | enumBody
  | propertyBody
  deriving DecidableEq, Repr

/-- Whether an `If` line has its branches behind `Then`, and so opens no block. -/
def hasBranches (tokens : List Token) : Bool :=
  (Token.findKeyword tokens "Then").any (· + 1 < tokens.length)

/-- Whether the very next line opens an accessor. -/
def accessorIsNext (behind : List SourceLine) : Bool :=
  behind.head?.any fun line => match lineStatement line.text with
    | .accessor _ => true
    | _ => false

namespace Frame

/-- The block that a line opens, given the lines behind it. A property header opens one
only when an accessor comes next. -/
def opener? (text : String) (behind : List SourceLine) : Option Frame :=
  match lineStatement text with
  | .container kind _ => some (.container kind)
  | .namespaceHeader => some (.block .namespaceBlock)
  | .enumHeader _ => some .enumBlock
  | .function _ _ => some .function
  | .accessor _ => some .accessor
  | .property _ => if accessorIsNext behind then some .property else none
  | .ifBranch => if hasBranches (lineTokens text) then none else some (.block .ifBlock)
  | .forLoop => some (.block .forBlock)
  | .whileLoop _ => some (.block .whileBlock)
  | .doLoop => some .doLoop
  | _ => none

/-- The words behind `End` that close a block. -/
def endWords : Frame → List Token
  | .container .classBlock => ["Class"]
  | .container .moduleBlock => ["Module"]
  | .block .namespaceBlock => ["Namespace"]
  | .block .ifBlock => ["If"]
  | .block .whileBlock => ["While"]
  | .block .forBlock => []
  | .enumBlock => ["Enum"]
  | .doLoop => []
  | .function => ["Function", "Sub"]
  | .accessor => ["Get", "Set"]
  | .property => ["Property"]

/-- A bare `End` closes no block, and `End Property` closes no other. -/
theorem endWords_form (frame : Frame) :
    "" ∉ frame.endWords ∧ ("Property" ∈ frame.endWords → frame = .property) := by
  rcases frame with (_ | _) | (_ | _ | _ | _) | _ | _ | _ | _ | _ <;> decide

/-- Whether a line closes a block of this kind. -/
def isClosedBy (frame : Frame) (text : String) : Bool :=
  match lineStatement text with
  | .endBlock => frame.endWords.contains (tokenAt (lineTokens text) 1)
  | .nextLoop => frame == .block (closedByNext (tokenAt (lineTokens text) 0))
  | .loopEnd => frame == .doLoop
  | _ => false

/-- Whether a block may be opened in a scope: functions, properties and containers not
inside a function, and accessors in a property only. -/
def isAllowedIn : Frame → Scope → Bool
  | .accessor, .propertyBody => true
  | .accessor, _ => false
  | .container _, .code inFunction _ => !inFunction
  | .function, .code inFunction _ => !inFunction
  | .property, .code inFunction _ => !inFunction
  | .block _, .code _ _ => true
  | .enumBlock, .code _ _ => true
  | .doLoop, .code _ _ => true
  | _, _ => false

/-- The scope between the opener and the closer of a block that is opened in a scope. -/
def body : Frame → Scope → Scope
  | .container _, _ => .code false false
  | .enumBlock, _ => .enumBody
  | .function, _ => .code true false
  | .accessor, _ => .code true false
  | .property, _ => .propertyBody
  | .block kind, .code inFunction _ => .code inFunction (kind == .ifBlock)
  | .doLoop, .code inFunction _ => .code inFunction false
  | .block _, scope => scope
  | .doLoop, scope => scope

end Frame

/-- Whether a line of code stands for itself, given the lines behind it. A line of no known
kind must not be written with a brace at its start. -/
def isCodeLeaf (text : String) (behind : List SourceLine) : Bool :=
  match lineStatement text with
  | .blank => true
  | .comment => true
  | .declaration => true
  | .returnJump => true
  | .exitJump => true
  | .inheritance => true
  | .endBlock => tokenAt (lineTokens text) 1 == ""
  | .ifBranch => hasBranches (lineTokens text)
  | .property _ => !accessorFollows behind
  | .other => braceMove (statementLine (lineTokens text)) == .stays
  | _ => false

/-- Whether a line in the body of an enum or property stands for itself: a blank line, a
comment, or an enumerator if there may be one. -/
def isMemberLeaf (enumerators : Bool) (text : String) : Bool :=
  match lineStatement text with
  | .blank => true
  | .comment => true
  | .other => enumerators && Token.isIdentifier (tokenAt (lineTokens text) 0)
  | _ => false

/-- Whether a line in a scope stands for itself, given the lines behind it. -/
def isLeaf : Scope → String → List SourceLine → Bool
  | .code _ _, text, behind => isCodeLeaf text behind
  | .enumBody, text, _ => isMemberLeaf true text
  | .propertyBody, text, _ => isMemberLeaf false text

/-- Whether a line separates the branches of an `If` block. -/
def isSeparator (text : String) : Bool :=
  match lineStatement text with
  | .elseIfBranch => true
  | .elseBranch => true
  | _ => false

/-- `Nested scope lines rest`: in this scope, `lines` start with a well-nested stretch
behind which `rest` stands. -/
inductive Nested : Scope → List SourceLine → List SourceLine → Prop
  | done (scope : Scope) (rest : List SourceLine) : Nested scope rest rest
  | leaf {scope : Scope} {line : SourceLine} {more rest : List SourceLine}
      (stands : isLeaf scope line.text more = true) (later : Nested scope more rest) :
      Nested scope (line :: more) rest
  | separator {inFunction : Bool} {line : SourceLine} {more rest : List SourceLine}
      (separates : isSeparator line.text = true)
      (later : Nested (.code inFunction true) more rest) :
      Nested (.code inFunction true) (line :: more) rest
  | block {scope : Scope} {opener closer : SourceLine} {inner more rest : List SourceLine}
      (frame : Frame) (opens : Frame.opener? opener.text inner = some frame)
      (allowed : frame.isAllowedIn scope = true)
      (body : Nested (frame.body scope) inner (closer :: more))
      (closes : frame.isClosedBy closer.text = true) (later : Nested scope more rest) :
      Nested scope (opener :: inner) rest

/-- Whether a line opens or closes a block. -/
def isDelimiter (text : String) (behind : List SourceLine) : Bool :=
  match lineStatement text with
  | .endBlock => true
  | .nextLoop => true
  | .loopEnd => true
  | _ => (Frame.opener? text behind).isSome

/-- Whether every opener and closer among lines is accepted when the conversion reaches it,
with the first line at position `cursor`. -/
def Draft.acceptsFrom (draft : Draft) (cursor : Nat) : List SourceLine → Bool
  | [] => true
  | line :: rest =>
    let here := draft.moveTo cursor line
    (!isDelimiter line.text rest || (here.refusal line.text).isNone) &&
      match here.convertLine line.text with
      | .ok after => after.acceptsFrom (cursor + 1) rest
      | .error _ => true

section Reading

/-- An `If` line opens a block exactly if nothing follows `Then`. -/
theorem IfLine.read_form (tokens : List Token) :
    Reading.Yields (fun
        | .block _ => hasBranches tokens = false
        | .statement _ => hasBranches tokens = true) (IfLine.read tokens) := by
  unfold IfLine.read
  split
  · next missing =>
    refine .bind fun _ _ => .bind fun _ _ => .ok ?_
    simp [hasBranches, missing]
  · next index found =>
    refine .bind fun _ _ => .bind fun _ _ => .bind fun rest read => ?_
    have behind : rest = tokens.drop (index + 1) := by
      unfold Reading.sliceFrom Reading.slice at read
      split at read
      · cases read
        rw [List.take_length]
      · cases read
    split
    · next isEmpty =>
      refine .ok ?_
      simpa [hasBranches, found, behind] using isEmpty
    · next filled =>
      refine .bind fun _ _ => .ok ?_
      simpa [hasBranches, found, behind] using filled

/-- An accessor line that comes next is found by a property header. -/
theorem accessorFollows_of_next {behind : List SourceLine} (next : accessorIsNext behind = true) :
    accessorFollows behind = true := by
  cases behind with
  | nil => cases next
  | cons line rest =>
    obtain ⟨keyword, statement⟩ : ∃ keyword, lineStatement line.text = .accessor keyword := by
      simp only [accessorIsNext, List.head?_cons, Option.any_some] at next
      split at next
      · exact ⟨_, ‹_›⟩
      · cases next
    have isAccessor : (lineStatement line.text).isAccessor = true := by
      rw [statement]
      rfl
    have seen : ¬ isPassedOver line.text = true := by
      intro passed
      have idle := saysNothing_of_passedOver passed
      rw [statement] at idle
      cases idle
    rw [accessorFollows_cons, if_neg seen]
    exact opensAccessor_of_isAccessor isAccessor

end Reading

end BasicToSharp
