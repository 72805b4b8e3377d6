import BasicToSharp.Diagnostic
import BasicToSharp.Text.Json

/-!
# Reports of a folder run

What became of every file of a folder: converted, skipped because it holds nothing, or
failed. A report is written as text, one line per file and one per diagnostic, or as JSON.
-/

namespace BasicToSharp

/-- What became of one file. -/
inductive FileOutcome
  | converted (output : String) (lines : Nat) (diagnostics : List Diagnostic)
  | skipped (reason : String)
  | failed (message : String)
  deriving DecidableEq, Repr

/-- The outcome of one file, with its source and converted lines as they are echoed. -/
structure FileResult where
  name : String
  path : String
  outcome : FileOutcome
  echo : List String
  deriving DecidableEq, Repr

/-- The results for all files of a folder, in the order of their names. -/
structure FolderReport where
  input : String
  output : String
  files : List FileResult
  deriving DecidableEq, Repr

namespace FileOutcome

/-- True of a file that was converted. -/
def isConverted : FileOutcome → Bool
  | .converted .. => true
  | _ => false

/-- True of a file that was skipped. -/
def isSkipped : FileOutcome → Bool
  | .skipped _ => true
  | _ => false

/-- True of a file that failed. -/
def isFailed : FileOutcome → Bool
  | .failed _ => true
  | _ => false

end FileOutcome

/-- The lines of text about one file. -/
def FileResult.textLines (result : FileResult) : List String :=
  match result.outcome with
  | .converted output _ diagnostics =>
    (result.name ++ " -> " ++ output) :: diagnostics.map fun diagnostic => "  " ++ diagnostic.text
  | .skipped reason => [result.name ++ ": skipped (" ++ reason ++ ")"]
  | .failed message => [result.name ++ ": error: " ++ message]

/-- A diagnostic as JSON. -/
def Diagnostic.toJson (diagnostic : Diagnostic) : Json :=
  .object ([("line", .number diagnostic.line), ("severity", .text diagnostic.severity.text),
    ("kind", .text diagnostic.notice.kind)] ++
    diagnostic.notice.fields.map fun (name, value) => (name, Json.text value))

/-- The fields of an outcome in JSON. -/
def FileOutcome.jsonFields : FileOutcome → List (String × Json)
  | .converted output lines diagnostics =>
    [("status", .text "converted"), ("output", .text output), ("lines", .number lines),
      ("diagnostics", .list (diagnostics.map Diagnostic.toJson))]
  | .skipped reason => [("status", .text "skipped"), ("reason", .text reason)]
  | .failed message => [("status", .text "failed"), ("message", .text message)]

/-- A result as JSON; the echoed lines are left out. -/
def FileResult.toJson (result : FileResult) : Json :=
  .object ([("name", .text result.name), ("path", .text result.path)] ++
    result.outcome.jsonFields)

namespace FolderReport

/-- The number of files whose outcome passes the test. -/
def count (report : FolderReport) (test : FileOutcome → Bool) : Nat :=
  report.files.countP fun result => test result.outcome

/-- The line that sums a report up. -/
def summary (report : FolderReport) : String :=
  Number.decimalText (report.count FileOutcome.isConverted) ++ " converted, " ++
    Number.decimalText (report.count FileOutcome.isSkipped) ++ " skipped, " ++
    Number.decimalText (report.count FileOutcome.isFailed) ++ " failed"

/-- A report as text. -/
def text (report : FolderReport) : String :=
  if report.files.isEmpty then "No files found in " ++ report.input
  else "\n".intercalate (report.files.flatMap FileResult.textLines ++ [report.summary])

/-- A report as JSON. -/
def toJson (report : FolderReport) : Json :=
  .object [("input", .text report.input), ("output", .text report.output),
    ("files", .list (report.files.map FileResult.toJson))]

end FolderReport

end BasicToSharp
