import BasicToSharp.Conversion.Options
import BasicToSharp.Nesting
import BasicToSharp.SourceLine

/-!
# Drafts

A draft is the state of converting one file: the open blocks, the symbols declared so
far, the lines written and what was noticed. It also holds the prepared source, since a
property is written from its header when its accessors are reached.
-/

namespace BasicToSharp

/-- The state of converting one file. -/
structure Draft where
  options : Options := {}
  nesting : Nesting := {}
  symbols : Symbols := {}
  /-- The lines written so far, not yet laid out. -/
  output : Array String := #[]
  diagnostics : Array Diagnostic := #[]
  /-- The prepared lines of the source. -/
  input : List SourceLine := []
  /-- The position among them of the line that is being converted. -/
  cursor : Nat := 0
  /-- The number of the source line that is being converted. -/
  line : Nat := 0
  deriving DecidableEq, Repr

namespace Draft

/-- Write a line. -/
def emit (draft : Draft) (line : String) : Draft :=
  { draft with output := draft.output.push line }

/-- Record a notice about the current line. -/
def report (draft : Draft) (notice : Notice) : Draft :=
  { draft with diagnostics := draft.diagnostics.push ⟨draft.line, notice⟩ }

/-- True of a name that the file is known to declare: a type, a function, a variable, a
loop counter, the current function or one of its locals, or a field of any class. -/
def knows (draft : Draft) (name : String) : Bool :=
  draft.symbols.isUserType name || draft.symbols.isFunction name ||
    draft.symbols.globals.contains name || draft.nesting.counters.contains name ||
    draft.nesting.function.any (fun record => record.declares name || record.name == name) ||
    draft.symbols.isField name

/-- A line is written behind those written before. -/
@[simp] theorem emit_output (draft : Draft) (line : String) :
    (draft.emit line).output = draft.output.push line := rfl

/-- A notice is recorded for the current line, behind those recorded before. -/
@[simp] theorem report_diagnostics (draft : Draft) (notice : Notice) :
    (draft.report notice).diagnostics = draft.diagnostics.push ⟨draft.line, notice⟩ := rfl

end Draft

end BasicToSharp
