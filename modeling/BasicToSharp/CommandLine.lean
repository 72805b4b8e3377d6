import BasicToSharp.CommandLine.Arguments
import BasicToSharp.FolderRun
import BasicToSharp.Settings

/-!
# The command

One run of the command on a file tree: the arguments are read, the settings are loaded,
and the files of the input directory are converted. The result is what is printed, the
exit status and the file tree that is left.
-/

namespace BasicToSharp

/-- What a command finds around it. -/
structure Surroundings where
  tree : FileTree
  /-- The directory of the program itself. -/
  programDirectory : String
  /-- The directory set aside for settings. -/
  configHome : Option String := none
  home : Option String := none

/-- What a command leaves behind. -/
structure CommandResult where
  status : Nat
  output : String
  error : Option String
  problems : List SettingsProblem
  tree : FileTree

/-- Why a command fails after its arguments have been read. -/
inductive CommandError
  | noConverter (language : String)
  | folder (cause : FolderError)
  deriving DecidableEq, Repr

/-- The text for a failed command, with the cause behind it if there is one. -/
def CommandError.text : CommandError → String
  | .noConverter language => "Error: no converter for language `" ++ language ++ "`"
  | .folder cause => "Error: " ++ cause.message ++ "\n\nCaused by:\n    " ++ cause.causeText

namespace CommandLine

/-- The line for a user who asks for the version. -/
def versionLine : String := "vbsharp 0.1.0\n"

/-- The lines for a user who asks for help or is mistaken. -/
def usageLines : String := "Usage: vbsharp [OPTIONS] [INPUT]\n"

/-- The question that a pausing command ends with. -/
def pauseText : String := "Press Enter to exit..."

/-- A text in which a backslash and a `t` stand for a tab. -/
def readTabs : List Char → List Char
  | '\\' :: 't' :: rest => '\t' :: readTabs rest
  | c :: rest => c :: readTabs rest
  | [] => []

/-- The conversion options of a run: an argument goes before the settings. -/
def runOptions (arguments : Arguments) (settings : Settings) : Options :=
  match arguments.indent with
  | some indent => { settings.options with indent := String.ofList (readTabs indent.toList) }
  | none => settings.options

/-- The folder run that arguments and settings ask for. -/
def folderRun (surroundings : Surroundings) (arguments : Arguments) (settings : Settings) :
    Except CommandError FolderRun :=
  let language := arguments.language.getD Converter.basicToSharp.source
  match Converter.forLanguage Converter.catalogue language with
  | none => .error (.noConverter language)
  | some converter =>
    let beside := Path.join surroundings.programDirectory
    .ok {
      input := (arguments.input.or settings.input).getD (beside "input")
      output := (arguments.output.or settings.output).getD (beside "output")
      converter := converter
      options := runOptions arguments settings }

/-- What is printed about a report. -/
def reportText (arguments : Arguments) (report : FolderReport) : String :=
  let echoed := if arguments.echo then report.files.flatMap FileResult.echo else []
  let summary := if arguments.json then report.toJson.pretty else report.text
  String.join ((echoed ++ [summary]).map (· ++ "\n"))

/-- The settings that hold for a run. -/
def loadSettings (surroundings : Surroundings) (arguments : Arguments) :
    Settings × List SettingsProblem :=
  Settings.load surroundings.tree
    (Settings.userDirectory surroundings.configHome surroundings.home)
    (Path.ofPlace surroundings.tree.current) arguments.settings

/-- Run with arguments that make sense. -/
def runWith (surroundings : Surroundings) (arguments : Arguments) : CommandResult :=
  let (settings, problems) := loadSettings surroundings arguments
  let ending := if arguments.pause then pauseText else ""
  match folderRun surroundings arguments settings with
  | .error cause => ⟨1, ending, some cause.text, problems, surroundings.tree⟩
  | .ok folder =>
    match folder.run surroundings.tree with
    | (.error cause, tree) => ⟨1, ending, some (CommandError.folder cause).text, problems, tree⟩
    | (.ok report, tree) => ⟨0, reportText arguments report ++ ending, none, problems, tree⟩

/-- Run the command. -/
def run (surroundings : Surroundings) (arguments : List String) : CommandResult :=
  match Arguments.read arguments with
  | .ok arguments => runWith surroundings arguments
  | .error .help => ⟨0, usageLines, none, [], surroundings.tree⟩
  | .error .version => ⟨0, versionLine, none, [], surroundings.tree⟩
  | .error .misuse => ⟨2, "", none, [], surroundings.tree⟩

end CommandLine

end BasicToSharp
