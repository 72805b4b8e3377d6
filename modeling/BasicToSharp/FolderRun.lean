import BasicToSharp.Converter
import BasicToSharp.FileTree
import BasicToSharp.FolderRun.Report

/-!
# Folder runs

Every file directly inside the input directory that is not hidden is converted and written
to the output directory under the stem of its name. Both directories are made where they
are missing. A file that cannot be read or written is reported as failed and leaves the
others alone.
-/

namespace BasicToSharp

/-- Why a folder run ends before any file is converted. -/
inductive FolderError
  | makeDirectory (path : String) (cause : FileError)
  | list (path : String) (cause : FileError)
  deriving DecidableEq, Repr

namespace FolderError

/-- The text of the cause of a failed folder run. -/
def causeText : FolderError → String
  | .makeDirectory _ cause => cause.text
  | .list path cause => "IO error for operation on " ++ path ++ ": " ++ cause.text

/-- The message for a failed folder run. -/
def message (error : FolderError) : String :=
  match error with
  | .makeDirectory path _ => "failed to create directory " ++ path ++ ": " ++ error.causeText
  | .list path _ => "failed to list " ++ path ++ ": " ++ error.causeText

end FolderError

/-- Lines numbered from `number` on, each behind a mark. -/
def echoFrom (mark : String) (number : Nat) : List String → List String
  | [] => []
  | line :: rest =>
    (mark ++ " [" ++ Number.decimalText number ++ "]: " ++ line) ::
      echoFrom mark (number + 1) rest

/-- A folder run: where files come from and go to, and how they are converted. -/
structure FolderRun where
  input : String
  output : String
  converter : Converter
  options : Options := {}

namespace FolderRun

/-- The path to which the conversion of a file is written. -/
def target (run : FolderRun) (name : String) : String :=
  Path.join run.output (Path.stem name ++ "." ++ run.converter.targetExtension)

/-- Write a finished conversion. -/
def writeConversion (run : FolderRun) (tree : FileTree) (name : String)
    (conversion : Conversion) : FileOutcome × FileTree :=
  let target := run.target name
  match tree.write target conversion.text.toUTF8 with
  | .ok after => (.converted target conversion.lines.length conversion.diagnostics, after)
  | .error cause => (.failed ("write failed: " ++ cause.text), tree)

/-- Convert a file of the input directory, given what reading it has brought. -/
def finishFile (run : FolderRun) (tree : FileTree) (name : String)
    (reading : Except FileError String) : FileResult × FileTree :=
  let path := Path.join run.input name
  match reading with
  | .error cause => (⟨name, path, .failed ("read failed: " ++ cause.text), []⟩, tree)
  | .ok source =>
    let sourceEcho := echoFrom "VB" 1 (Text.lines source)
    match run.converter.convert source run.options with
    | .error cause => (⟨name, path, .skipped cause.message, sourceEcho⟩, tree)
    | .ok conversion =>
      let (outcome, after) := run.writeConversion tree name conversion
      (⟨name, path, outcome, sourceEcho ++ echoFrom "CS" 1 conversion.lines⟩, after)

/-- Convert one file of the input directory: read it, and finish. -/
def convertFile (run : FolderRun) (tree : FileTree) (name : String) : FileResult × FileTree :=
  run.finishFile tree name (tree.readText (Path.join run.input name))

/-- Convert files one after the other. -/
def convertFiles (run : FolderRun) (tree : FileTree) : List String → List FileResult × FileTree
  | [] => ([], tree)
  | name :: rest =>
    let (result, after) := run.convertFile tree name
    let (results, final) := run.convertFiles after rest
    (result :: results, final)

/-- True of the name of a file that is not hidden. -/
def isVisible (name : String) : Bool := name.toList.head? != some '.'

/-- The names of the files to convert, in order. -/
def inputNames (run : FolderRun) (tree : FileTree) : Except FolderError (List String) :=
  match tree.locate run.input with
  | .error cause => .error (.list run.input cause)
  | .ok place => .ok ((tree.fileNames place).filter isVisible)

/-- Run over a folder. The tree is returned also when the run fails. -/
def run (folder : FolderRun) (tree : FileTree) : Except FolderError FolderReport × FileTree :=
  match tree.makeDirectory folder.input with
  | (tree, some cause) => (.error (.makeDirectory folder.input cause), tree)
  | (tree, none) =>
    match tree.makeDirectory folder.output with
    | (tree, some cause) => (.error (.makeDirectory folder.output cause), tree)
    | (tree, none) =>
      match folder.inputNames tree with
      | .error cause => (.error cause, tree)
      | .ok names =>
        let (files, final) := folder.convertFiles tree names
        (.ok ⟨folder.input, folder.output, files⟩, final)

end FolderRun

end BasicToSharp
