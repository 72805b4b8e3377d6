import BasicToSharp.Symbol.Record

/-!
# Nesting

Which blocks are open at a point of a file. Containers, enums, `Do` loops and the other
blocks are kept apart, each innermost first, since each kind is closed by its own
keyword; closing a kind takes its innermost block away and leaves the others as they are.
-/

namespace BasicToSharp

/-- The two kinds of container. -/
inductive ContainerKind
  | classBlock
  | moduleBlock
  deriving DecidableEq, Repr

/-- An open class or module. -/
structure Container where
  name : String
  kind : ContainerKind
  /-- The position of its header among the lines written. -/
  headerLine : Nat
  deriving DecidableEq, Repr

/-- Where a `Do` loop tests its condition. -/
inductive DoKind
  /-- Behind the body: the condition, if any, stands at `Loop`. -/
  | postTest
  /-- Before the body: the condition stands at `Do`. -/
  | preTest
  deriving DecidableEq, Repr

/-- The other blocks that a keyword of their own closes. -/
inductive BlockKind
  | namespaceBlock
  | ifBlock
  | forBlock
  | whileBlock
  deriving DecidableEq, Repr

/-- The open blocks, innermost first in every list. -/
structure Nesting where
  containers : List Container := []
  /-- Names of the open enums. -/
  enums : List String := []
  doLoops : List DoKind := []
  blocks : List BlockKind := []
  /-- Counters of the open `For` loops. -/
  counters : List String := []
  /-- The function that is being converted. -/
  function : Option FunctionRecord := none
  /-- The position, among the source lines, of the property header whose accessors are
  expected. -/
  propertyHeader : Option Nat := none
  deriving DecidableEq, Repr

namespace Nesting

/-- Whether a container of this kind is open. -/
def inside (nesting : Nesting) (kind : ContainerKind) : Bool :=
  nesting.containers.any (·.kind == kind)

/-- Whether a class is open. -/
def insideClass (nesting : Nesting) : Bool := nesting.inside .classBlock

/-- Whether a module is open. -/
def insideModule (nesting : Nesting) : Bool := nesting.inside .moduleBlock

/-- Whether an enum is open. -/
def insideEnum (nesting : Nesting) : Bool := !nesting.enums.isEmpty

/-- Whether a `Do` loop is open. -/
def insideDoLoop (nesting : Nesting) : Bool := !nesting.doLoops.isEmpty

/-- Whether a function is being converted. -/
def insideFunction (nesting : Nesting) : Bool := nesting.function.isSome

/-- Whether members here belong to a module and not to a class within it. -/
def ownedByModule (nesting : Nesting) : Bool := nesting.insideModule && !nesting.insideClass

/-- Whether declarations here become members of a module. -/
def atModuleLevel (nesting : Nesting) : Bool :=
  nesting.ownedByModule && !nesting.insideFunction

/-- The innermost container. -/
def container? (nesting : Nesting) : Option Container := nesting.containers.head?

/-- Whether a block of this kind is open. -/
def hasBlock (nesting : Nesting) (kind : BlockKind) : Bool := nesting.blocks.contains kind

/-- Close the innermost block of a kind; nothing changes when none is open. -/
def closeBlock (nesting : Nesting) (kind : BlockKind) : Nesting :=
  { nesting with blocks := nesting.blocks.erase kind }

/-- Close the innermost container of a kind; nothing changes when none is open. -/
def closeContainer (nesting : Nesting) (kind : ContainerKind) : Nesting :=
  { nesting with containers := nesting.containers.eraseP (·.kind == kind) }

/-- Start the conversion of a function in place of the current one. -/
def enterFunction (nesting : Nesting) (record : FunctionRecord) : Nesting :=
  { nesting with function := some record }

/-- End the conversion of the current function; the counters of its loops go with it. -/
def leaveFunction (nesting : Nesting) : Nesting :=
  { nesting with function := none, counters := [] }

end Nesting

end BasicToSharp
