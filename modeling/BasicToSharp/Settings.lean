import BasicToSharp.Conversion.Options
import BasicToSharp.FileTree
import BasicToSharp.Toml.Document

/-!
# Settings

Settings are read from up to three files: that of the user, that of the project and one
that is named explicitly. A later file overrides an earlier one setting by setting. A file
that cannot be used is reported and left out; only the explicit one has to be there.
-/

namespace BasicToSharp

/-- What a user has settled on. A setting that is absent has not been made. -/
structure Settings where
  input : Option String := none
  output : Option String := none
  level : Option String := none
  indent : Option String := none
  reorderStatic : Option Bool := none
  splitDeclarations : Option Bool := none
  reportUnregistered : Option Bool := none
  deriving DecidableEq, Repr

/-- Why a settings file cannot be used. -/
inductive SettingsFault
  | missing
  | unreadable (cause : FileError)
  | invalid
  deriving DecidableEq, Repr

/-- The text for a fault. -/
def SettingsFault.text : SettingsFault → String
  | .missing => "file not found"
  | .unreadable cause => cause.text
  | .invalid => "invalid settings"

/-- A settings file that was left out. -/
structure SettingsProblem where
  path : String
  fault : SettingsFault
  deriving DecidableEq, Repr

/-- A settings file to read. -/
structure SettingsLayer where
  path : String
  /-- Whether a missing file is a problem. -/
  required : Bool
  deriving DecidableEq, Repr

/-- A group of settings: by name in a table, or in their order in a list. -/
inductive SettingsGroup
  | named (entries : Toml.Entries)
  | listed (values : List Toml.Value)

namespace SettingsGroup

/-- The group that a value is. A missing one is empty, and so is a date or time, which has
none of the names of settings. -/
def ofValue? : Option Toml.Value → Option SettingsGroup
  | none => some (.named [])
  | some (.moment _) => some (.named [])
  | some (.table _ entries) => some (.named entries)
  | some (.list values) => some (.listed values)
  | some (.tables earlier last) =>
    some (.listed ((earlier ++ [last]).map (Toml.Value.table .header)))
  | some _ => none

/-- The value of the setting that has a position and a name. -/
def value? (group : SettingsGroup) (position : Nat) (name : String) : Option Toml.Value :=
  match group with
  | .named entries => entries.lookup name
  | .listed values => values[position]?

/-- The text of a setting. It may be missing, but nothing else may be there. -/
def text? (group : SettingsGroup) (position : Nat) (name : String) : Option (Option String) :=
  match group.value? position name with
  | none => some none
  | some (.text value) => some (some value)
  | some _ => none

/-- The truth value of a setting. It may be missing, but nothing else may be there. -/
def flag? (group : SettingsGroup) (position : Nat) (name : String) : Option (Option Bool) :=
  match group.value? position name with
  | none => some none
  | some (.flag value) => some (some value)
  | some _ => none

end SettingsGroup

namespace Settings

/-- Settings overridden by later ones. -/
def override (earlier later : Settings) : Settings where
  input := later.input.or earlier.input
  output := later.output.or earlier.output
  level := later.level.or earlier.level
  indent := later.indent.or earlier.indent
  reorderStatic := later.reorderStatic.or earlier.reorderStatic
  splitDeclarations := later.splitDeclarations.or earlier.splitDeclarations
  reportUnregistered := later.reportUnregistered.or earlier.reportUnregistered

/-- The conversion options that settings describe. -/
def options (settings : Settings) : Options :=
  let defaults : Options := {}
  { indent := settings.indent.getD defaults.indent
    reorderStatic := settings.reorderStatic.getD defaults.reorderStatic
    splitDeclarations := settings.splitDeclarations.getD defaults.splitDeclarations
    reportUnregistered := settings.reportUnregistered.getD defaults.reportUnregistered }

/-- The settings in a table. Names that are no settings are ignored; a setting of another
kind than it should be is refused. -/
def ofTable (root : Toml.Entries) : Option Settings := do
  let paths ← SettingsGroup.ofValue? (root.lookup "paths")
  let convert ← SettingsGroup.ofValue? (root.lookup "convert")
  let log ← SettingsGroup.ofValue? (root.lookup "log")
  return {
    input := ← paths.text? 0 "input"
    output := ← paths.text? 1 "output"
    level := ← log.text? 0 "level"
    indent := ← convert.text? 0 "indent"
    reorderStatic := ← convert.flag? 1 "reorder_static"
    splitDeclarations := ← convert.flag? 2 "split_declarations"
    reportUnregistered := ← convert.flag? 3 "report_unregistered" }

/-- The settings in a file. -/
def ofFile (tree : FileTree) (path : String) : Except SettingsFault Settings :=
  match tree.readText path with
  | .error .notFound => .error .missing
  | .error cause => .error (.unreadable cause)
  | .ok text =>
    match (Toml.read text).bind ofTable with
    | some settings => .ok settings
    | none => .error .invalid

/-- Add files to settings one after the other. -/
def addLayers (tree : FileTree) (settings : Settings) :
    List SettingsLayer → Settings × List SettingsProblem
  | [] => (settings, [])
  | layer :: rest =>
    match ofFile tree layer.path with
    | .ok later => addLayers tree (settings.override later) rest
    | .error fault =>
      let (final, problems) := addLayers tree settings rest
      if fault = .missing ∧ layer.required = false then (final, problems)
      else (final, ⟨layer.path, fault⟩ :: problems)

/-- The directory of the user's settings: the one set aside for them, or the usual one at
home. -/
def userDirectory (configHome home : Option String) : Option String :=
  configHome.or (home.map (Path.join · ".config"))

/-- The files to read for a project, in order. -/
def layers (userDirectory : Option String) (project : String) (explicit : Option String) :
    List SettingsLayer :=
  let user := userDirectory.map fun directory =>
    (⟨Path.join (Path.join directory "vbsharp") "config.toml", false⟩ : SettingsLayer)
  let own : SettingsLayer := ⟨Path.join (Path.join project ".vbsharp") "config.toml", false⟩
  let named := explicit.map fun path => (⟨path, true⟩ : SettingsLayer)
  user.toList ++ [own] ++ named.toList

/-- The settings for a project, and what was wrong with their files. -/
def load (tree : FileTree) (userDirectory : Option String) (project : String)
    (explicit : Option String) : Settings × List SettingsProblem :=
  addLayers tree {} (layers userDirectory project explicit)

end Settings

end BasicToSharp
