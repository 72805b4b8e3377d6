import BasicToSharp.Number.Integer
import BasicToSharp.Token.Basic

/-!
# Diagnostics

What is worth telling about one source line: that its statement could not be made sense
of and was passed through, that it holds a word nobody knows, and so on. A malformed
statement is described by the construct that was being read and the reason it was
refused; both are causes, and their wording is in one place each.
-/

namespace BasicToSharp

/-- What was being read when a line was refused. -/
inductive Construct
  | classHeader | moduleHeader | namespaceHeader | inheritanceClause | enumHeader
  | typeName | parameter | constructor | declaration | property | propertyAccessor
  | function | sub
  | ifStatement | elseIfStatement | forLoop | forEachLoop | doLoop | doWhile | doUntil
  | loopEnd | loopWhile | loopUntil | whileLoop | exitStatement
  deriving DecidableEq, Repr

/-- The words for a construct. -/
def Construct.text : Construct → String
  | .classHeader => "class header"
  | .moduleHeader => "module header"
  | .namespaceHeader => "namespace"
  | .inheritanceClause => "inheritance clause"
  | .enumHeader => "enum header"
  | .typeName => "type"
  | .parameter => "parameter"
  | .constructor => "constructor"
  | .declaration => "declaration"
  | .property => "property"
  | .propertyAccessor => "property accessor"
  | .function => "Function"
  | .sub => "Sub"
  | .ifStatement => "If"
  | .elseIfStatement => "ElseIf"
  | .forLoop => "For"
  | .forEachLoop => "For Each"
  | .doLoop => "Do"
  | .doWhile => "Do While"
  | .doUntil => "Do Until"
  | .loopEnd => "Loop"
  | .loopWhile => "Loop While"
  | .loopUntil => "Loop Until"
  | .whileLoop => "While"
  | .exitStatement => "Exit"

/-- Why a line was refused. -/
inductive Reason
  | missingName | missingCondition | missingCounter | missingEquals | missingTo
  | missingBound | missingLoopVariable | missingIn | missingCollection | missingBaseType
  | missingDefault | missingInitializer
  | emptyBranch
  | unclosedTypeList | unclosedParameters | unclosedArguments | unclosedBounds
  | notInsideClass | outsideAnyClass | headerLineNotFound
  | noPropertyHeader | propertyHeaderOutOfRange | headerWithoutProperty
  | expectedType (found : Token)
  | unexpected (found : Token)
  | cannotExit (target : Token)
  deriving DecidableEq, Repr

/-- The words for a reason. -/
def Reason.text : Reason → String
  | .missingName => "missing name"
  | .missingCondition => "missing condition"
  | .missingCounter => "missing counter"
  | .missingEquals => "missing `=`"
  | .missingTo => "missing `To`"
  | .missingBound => "missing bound"
  | .missingLoopVariable => "missing loop variable"
  | .missingIn => "missing `In`"
  | .missingCollection => "missing collection"
  | .missingBaseType => "missing base type"
  | .missingDefault => "missing default value"
  | .missingInitializer => "missing initializer"
  | .emptyBranch => "empty branch"
  | .unclosedTypeList => "unclosed `(Of` list"
  | .unclosedParameters => "unclosed parameter list"
  | .unclosedArguments => "unclosed arguments"
  | .unclosedBounds => "unclosed array bounds"
  | .notInsideClass => "not inside a class"
  | .outsideAnyClass => "outside any class"
  | .headerLineNotFound => "class header not found"
  | .noPropertyHeader => "no property header"
  | .propertyHeaderOutOfRange => "property header out of range"
  | .headerWithoutProperty => "header has no `Property`"
  | .expectedType found => "expected a type name, found `" ++ found ++ "`"
  | .unexpected found => "unexpected `" ++ found ++ "`"
  | .cannotExit target => "cannot exit `" ++ target ++ "`"

/-- A statement that could not be made sense of. -/
structure Malformed where
  construct : Construct
  reason : Reason
  deriving DecidableEq, Repr

/-- The message for a malformed statement. -/
def Malformed.message (malformed : Malformed) : String :=
  "malformed " ++ malformed.construct.text ++ ": " ++ malformed.reason.text

/-- How much a diagnostic asks for attention. -/
inductive Severity
  | note
  | warning
  deriving DecidableEq, Repr

/-- The word for a severity. -/
def Severity.text : Severity → String
  | .note => "note"
  | .warning => "warning"

/-- Something noticed about a line. -/
inductive Notice
  /-- The line was passed through because its statement was malformed. -/
  | malformed (cause : Malformed)
  /-- A passed-through word is in no table and names no known symbol. -/
  | unregisteredWord (word : String)
  /-- A loop whose bounds are not literals was written with an integer counter. -/
  | assumedIntegerBounds (counter : String)
  /-- A closing keyword has no open block of its kind. -/
  | unmatchedClose (keyword : String)
  /-- A clause behind a signature was kept only as a comment. -/
  | trailingClause (clause : String)
  deriving DecidableEq, Repr

namespace Notice

/-- Only an assumption about bounds is a note; all else is a warning. -/
def severity : Notice → Severity
  | .assumedIntegerBounds _ => .note
  | _ => .warning

/-- The message for a notice. -/
def text : Notice → String
  | .malformed cause => cause.message ++ "; line passed through"
  | .unregisteredWord word => "unregistered word `" ++ word ++ "` passed through"
  | .assumedIntegerBounds counter =>
    "bounds of loop over `" ++ counter ++ "` are not literals; assuming int"
  | .unmatchedClose keyword => "`" ++ keyword ++ "` has no matching open block"
  | .trailingClause clause => "`" ++ clause ++ "` has no equivalent; kept as a comment"

/-- The kind of a notice in a machine-readable listing. -/
def kind : Notice → String
  | .malformed _ => "malformed"
  | .unregisteredWord _ => "unregistered_word"
  | .assumedIntegerBounds _ => "assumed_integer_bounds"
  | .unmatchedClose _ => "unmatched_close"
  | .trailingClause _ => "trailing_clause"

/-- The fields of a notice in a machine-readable listing, in order. -/
def fields : Notice → List (String × String)
  | .malformed cause => [("construct", cause.construct.text), ("reason", cause.reason.text)]
  | .unregisteredWord word => [("word", word)]
  | .assumedIntegerBounds counter => [("variable", counter)]
  | .unmatchedClose keyword => [("keyword", keyword)]
  | .trailingClause clause => [("clause", clause)]

end Notice

/-- A notice about one source line, which is numbered from one. -/
structure Diagnostic where
  line : Nat
  notice : Notice
  deriving DecidableEq, Repr

/-- The severity of a diagnostic is that of its notice. -/
def Diagnostic.severity (diagnostic : Diagnostic) : Severity := diagnostic.notice.severity

/-- A diagnostic as one line of text. -/
def Diagnostic.text (diagnostic : Diagnostic) : String :=
  "line " ++ Number.decimalText diagnostic.line ++ ": " ++ diagnostic.severity.text ++ ": " ++
    diagnostic.notice.text

end BasicToSharp
