import BasicToSharp.CommandLine

/-!
# The program

The program copies what a run can see of the file system into a file tree, runs the
command on it, and carries out what has changed.
-/

namespace BasicToSharp.Program

/-- What the file system has at a place. -/
def nodeAt (place : Place) : IO (Option FileNode) := do
  let path := (← IO.currentDir) / Path.ofPlace place
  if ← path.isDir then return some .directory
  else if ← path.pathExists then return some (.file (← IO.FS.readBinFile path))
  else return none

/-- Copy what names lead to from a place. -/
def copyAlong (tree : FileTree) (place : Place) : List String → IO FileTree
  | [] => return tree
  | name :: rest =>
    if name = ".." then copyAlong tree place.dropLast rest
    else do
      let next := place ++ [name]
      match ← nodeAt next with
      | some node => copyAlong (tree.put next node) next rest
      | none => return tree

/-- Copy what a path leads to. -/
def copyPath (tree : FileTree) (path : String) : IO FileTree :=
  copyAlong tree [] (Path.names (Path.join (Path.ofPlace tree.current) path))

/-- Copy every path of a list. -/
def copyPaths (tree : FileTree) : List String → IO FileTree
  | [] => return tree
  | path :: rest => do copyPaths (← copyPath tree path) rest

/-- The names in a directory that a run looks at. -/
def visibleNames (path : String) : IO (List String) := do
  let directory := (← IO.currentDir) / path
  if ← directory.isDir then
    return ((← directory.readDir).toList.map (·.fileName)).filter FolderRun.isVisible
  else return []

/-- Copy what a folder run reads and what stands where it writes. -/
def copyFolder (tree : FileTree) (folder : FolderRun) : IO FileTree := do
  let names ← visibleNames folder.input
  copyPaths tree ([folder.input, folder.output] ++ names.map (Path.join folder.input) ++
    names.map folder.target)

/-- Copy what a run with these arguments can see. -/
def copyFor (surroundings : Surroundings) (arguments : Arguments) : IO Surroundings := do
  let layers := Settings.layers
    (Settings.userDirectory surroundings.configHome surroundings.home)
    (Path.ofPlace surroundings.tree.current) arguments.settings
  let withSettings :=
    { surroundings with tree := ← copyPaths surroundings.tree (layers.map SettingsLayer.path) }
  let (settings, _) := CommandLine.loadSettings withSettings arguments
  match CommandLine.folderRun withSettings arguments settings with
  | .ok folder => return { withSettings with tree := ← copyFolder withSettings.tree folder }
  | .error _ => return withSettings

/-- Carry out what is new in a tree. -/
def carryOut (before : FileTree) : List (Place × FileNode) → IO Unit
  | [] => return
  | (place, node) :: rest => do
    if before.node? place ≠ some node then
      match node with
      | .directory => IO.FS.createDirAll (Path.ofPlace place)
      | .file content => IO.FS.writeBinFile (Path.ofPlace place) content
    carryOut before rest

/-- What the program finds before it has looked at any file. -/
def surroundings : IO Surroundings := do
  let current := Path.names (← IO.currentDir).toString
  let program ← IO.appPath
  return {
    tree := { current := current }
    programDirectory := (program.parent.map (·.toString)).getD ""
    configHome := ← IO.getEnv "XDG_CONFIG_HOME"
    home := ← IO.getEnv "HOME" }

/-- Run the command and show its result. -/
def run (arguments : List String) : IO UInt32 := do
  let found ← surroundings
  let read := Arguments.read arguments
  let seen ← match read with
    | .ok arguments => copyFor found arguments
    | .error _ => pure found
  let result := CommandLine.run seen arguments
  carryOut seen.tree result.tree.entries
  for problem in result.problems do
    IO.eprintln ("ignoring config " ++ problem.path ++ ": " ++ problem.fault.text)
  IO.print result.output
  (← IO.getStdout).flush
  match read with
  | .ok arguments => if arguments.pause then discard (← IO.getStdin).getLine
  | .error .misuse => IO.eprint CommandLine.usageLines
  | .error _ => pure ()
  if let some text := result.error then IO.eprintln text
  return result.status.toUInt32

end BasicToSharp.Program

/-- The entry of the program. -/
def main (arguments : List String) : IO UInt32 := BasicToSharp.Program.run arguments
