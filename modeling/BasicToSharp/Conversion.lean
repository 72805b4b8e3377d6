import BasicToSharp.Conversion.Line
import BasicToSharp.Layout

/-!
# Conversion of a file

The text of a file is prepared, its lines are converted one after the other from an empty
draft, and the lines written are laid out. A file without a non-blank line is not
converted.
-/

namespace BasicToSharp

/-- The lines of a converted file and what was noticed on the way. -/
structure Conversion where
  lines : List String
  diagnostics : List Diagnostic
  deriving DecidableEq, Repr

/-- Why a file cannot be converted. -/
inductive ConversionError
  /-- No line holds anything. -/
  | emptyInput
  /-- A rule asked for a part of a line outside it. -/
  | outOfRange
  deriving DecidableEq, Repr

/-- The message for a file that cannot be converted. -/
def ConversionError.message : ConversionError → String
  | .emptyInput => "input has no non-blank lines"
  | .outOfRange => "part of a line out of range"

/-- The text of a converted file; its last line is ended too. -/
def Conversion.text (conversion : Conversion) : String :=
  "\n".intercalate conversion.lines ++ "\n"

namespace Draft

/-- The draft at which the conversion of prepared lines starts. -/
def start (options : Options) (input : List SourceLine) : Draft :=
  { options := options, input := input }

/-- A draft that has reached a line. -/
def moveTo (draft : Draft) (cursor : Nat) (line : SourceLine) : Draft :=
  { draft with cursor := cursor, line := line.number }

/-- Convert lines, the first of which is at position `cursor`. -/
def convertFrom (draft : Draft) (cursor : Nat) : List SourceLine → Except RangeFault Draft
  | [] => .ok draft
  | line :: rest =>
    match (draft.moveTo cursor line).convertLine line.text with
    | .ok after => after.convertFrom (cursor + 1) rest
    | .error fault => .error fault

/-- The lines written, in their final order of words and not yet indented. -/
def ordered (draft : Draft) : List String :=
  if draft.options.reorderStatic then Layout.reorderStatic draft.output.toList
  else draft.output.toList

/-- The finished file. -/
def finish (draft : Draft) : Conversion :=
  ⟨Layout.indent draft.ordered draft.options.indent, draft.diagnostics.toList⟩

end Draft

/-- Convert the text of a file. -/
def convert (source : String) (options : Options) : Except ConversionError Conversion :=
  let input := SourceLine.prepare source options.splitDeclarations
  if input.all (·.text.isEmpty) then .error .emptyInput
  else
    match (Draft.start options input).convertFrom 0 input with
    | .ok draft => .ok draft.finish
    | .error .outOfRange => .error .outOfRange

end BasicToSharp
