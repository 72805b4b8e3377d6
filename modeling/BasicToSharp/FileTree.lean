import BasicToSharp.Entries

/-!
# File trees

A file tree is a map from places to files and directories, with a current directory from
which relative paths are followed. A place is the list of names from the root down; a path
is a text that leads to one. The operations fail in the ways of a file system, and each
failure is a cause with a text of its own.
-/

namespace BasicToSharp

/-- The names that lead from the root to a file or directory. -/
abbrev Place := List String

/-- What is at a place. -/
inductive FileNode
  | file (content : ByteArray)
  | directory

instance : DecidableEq FileNode
  | .file content, .file other =>
    match ByteArray.instDecidableEq content other with
    | isTrue same => isTrue (congrArg FileNode.file same)
    | isFalse differs => isFalse fun same => differs (FileNode.file.inj same)
  | .directory, .directory => isTrue rfl
  | .file _, .directory => isFalse nofun
  | .directory, .file _ => isFalse nofun

/-- Files and directories by place, and the current directory. The root is always a
directory. -/
structure FileTree where
  entries : List (Place × FileNode) := []
  current : Place := []
  deriving DecidableEq

/-- Why an operation on files fails. -/
inductive FileError
  /-- Nothing is at the end of the path, or on the way to it. -/
  | notFound
  /-- Something else is where a directory was to be made. -/
  | alreadyExists
  /-- A file is on the way to the end of the path. -/
  | notDirectory
  /-- A directory is where a file is needed. -/
  | isDirectory
  /-- A name, or the path as a whole, is longer than a file system takes. -/
  | nameTooLong
  /-- The path holds the character that ends a path. -/
  | endedEarly
  /-- The content of a file is not text. -/
  | notText
  deriving DecidableEq, Repr

/-- The text for a failure. -/
def FileError.text : FileError → String
  | .notFound => "No such file or directory (os error 2)"
  | .alreadyExists => "File exists (os error 17)"
  | .notDirectory => "Not a directory (os error 20)"
  | .isDirectory => "Is a directory (os error 21)"
  | .nameTooLong => "File name too long (os error 36)"
  | .endedEarly => "file name contained an unexpected NUL byte"
  | .notText => "stream did not contain valid UTF-8"

namespace Path

/-- Split a character list at every slash; `current` holds the current name, last
character first. -/
def splitSlashes (current : List Char) : List Char → List String
  | [] => [String.ofList current.reverse]
  | c :: rest =>
    if c = '/' then String.ofList current.reverse :: splitSlashes [] rest
    else splitSlashes (c :: current) rest

/-- The names of a path; empty names and the single point lead nowhere. -/
def names (path : String) : List String :=
  (splitSlashes [] path.toList).filter fun name => name != "" && name != "."

/-- True of a path that starts at the root. -/
def isAbsolute (path : String) : Bool := path.toList.head? == some '/'

/-- A path continued by another: an absolute one replaces it, and no second slash is put
behind a slash. -/
def join (path next : String) : String :=
  if isAbsolute next || path.isEmpty then next
  else if path.toList.getLast? == some '/' then path ++ next
  else path ++ "/" ++ next

/-- The part of a file name before its last point. A name without a point, or with no
other than a leading one, is a stem as a whole. -/
def stem (name : String) : String :=
  match (name.toList.reverse.dropWhile (· != '.')).drop 1 with
  | [] => name
  | before => String.ofList before.reverse

/-- The part of a file name behind its last point, if there is a stem before it. -/
def extension? (name : String) : Option String :=
  match (name.toList.reverse.dropWhile (· != '.')).drop 1 with
  | [] => none
  | _ => some (String.ofList (name.toList.reverse.takeWhile (· != '.')).reverse)

/-- The last name of a path that is not empty, the single point included. -/
def last? (path : String) : Option String :=
  ((splitSlashes [] path.toList).filter (· != "")).getLast?

/-- True of a path that ends in the single point, and so names a directory that is there. -/
def endsInPoint (path : String) : Bool := last? path == some "."

/-- True of a path that a slash or a single point ends, and that leads to no file. -/
def asksDirectory (path : String) : Bool :=
  path.toList.getLast? == some '/' || endsInPoint path

/-- True of a name of more than 255 bytes. -/
def isLongName (name : String) : Bool := 255 < name.utf8ByteSize

/-- What is wrong with a path wherever it leads: it has a character that no path has, or
more than 4095 bytes. -/
def fault? (path : String) : Option FileError :=
  if path.toList.contains '\x00' then some .endedEarly
  else if 4095 < path.utf8ByteSize then some .nameTooLong
  else none

/-- The absolute path of a place. -/
def ofPlace (place : Place) : String := "/" ++ "/".intercalate place

example : join "out" "a.cs" = "out/a.cs" := by decide
example : stem "a.x.vb" = "a.x" := by decide
example : stem ".profile" = ".profile" := by decide

end Path

namespace FileTree

/-- What is at a place, if anything. -/
def node? (tree : FileTree) (place : Place) : Option FileNode :=
  if place.isEmpty then some .directory else tree.entries.lookup place

/-- Put a node at a place, in place of what is there. -/
def put (tree : FileTree) (place : Place) (node : FileNode) : FileTree :=
  if (tree.entries.lookup place).isSome then
    { tree with entries := Entries.adjust tree.entries place fun _ => node }
  else { tree with entries := tree.entries ++ [(place, node)] }

/-- The root is always a directory. -/
@[simp] theorem node?_root (tree : FileTree) : tree.node? [] = some .directory := rfl

/-- A node is found where it was put, and every other place keeps what it had. The root is
left out, since nothing can be put in its place. -/
theorem node?_put (tree : FileTree) (place other : Place) (node : FileNode)
    (inside : other ≠ []) :
    (tree.put place node).node? other =
      if other = place then some node else tree.node? other := by
  have notRoot : other.isEmpty = false := by simpa using inside
  by_cases held : (tree.entries.lookup place).isSome = true
  · simp only [put, held, if_true, node?, notRoot, Bool.false_eq_true, if_false,
      Entries.lookup_adjust]
    by_cases same : other = place
    · subst same
      obtain ⟨old, found⟩ := Option.isSome_iff_exists.mp held
      simp [found]
    · simp [same]
  · simp only [put, held, if_false, node?, notRoot, Bool.false_eq_true, Entries.lookup_concat]
    by_cases same : other = place
    · subst same
      simp [Option.not_isSome_iff_eq_none.mp held]
    · simp [same]

/-- The place from which a path is followed. -/
def origin (tree : FileTree) (path : String) : Place :=
  if Path.isAbsolute path then [] else tree.current

/-- Follow names from a place. All but the last must lead through directories; the last
may lead to nothing. -/
def follow (tree : FileTree) (place : Place) : List String → Except FileError Place
  | [] => .ok place
  | name :: rest =>
    match tree.node? place with
    | none => .error .notFound
    | some (.file _) => .error .notDirectory
    | some .directory =>
      if name = ".." then tree.follow place.dropLast rest
      else if Path.isLongName name then .error .nameTooLong
      else tree.follow (place ++ [name]) rest

/-- The place that a path leads to. The empty path leads nowhere, and a path that asks for
a directory leads to no file. -/
def locate (tree : FileTree) (path : String) : Except FileError Place :=
  if path.isEmpty then .error .notFound
  else
    match Path.fault? path with
    | some fault => .error fault
    | none => do
      let place ← tree.follow (tree.origin path) (Path.names path)
      match tree.node? place with
      | some (.file _) => if Path.asksDirectory path then .error .notDirectory else .ok place
      | _ => .ok place

/-- Make the directories that names lead through from a place, where they are missing. The
last one is only looked for if it has to be there already. What has been made stays made
when something is in the way. -/
def makeAlong (tree : FileTree) (place : Place) (present : Bool) :
    List String → FileTree × Option FileError
  | [] => (tree, none)
  | name :: rest =>
    if name = ".." then tree.makeAlong place.dropLast present rest
    else if Path.isLongName name then (tree, some .nameTooLong)
    else
      let next := place ++ [name]
      match tree.node? next with
      | some .directory => tree.makeAlong next present rest
      | some (.file _) =>
        (tree, some (if rest.isEmpty && !present then .alreadyExists else .notDirectory))
      | none =>
        if rest.isEmpty && present then (tree, some .notFound)
        else (tree.put next .directory).makeAlong next present rest

/-- Make a directory and all that lead to it. -/
def makeDirectory (tree : FileTree) (path : String) : FileTree × Option FileError :=
  match Path.fault? path with
  | some fault => (tree, some fault)
  | none => tree.makeAlong (tree.origin path) (Path.endsInPoint path) (Path.names path)

/-- The text of a file. -/
def readText (tree : FileTree) (path : String) : Except FileError String := do
  let place ← tree.locate path
  match tree.node? place with
  | none => .error .notFound
  | some .directory => .error .isDirectory
  | some (.file content) =>
    match String.fromUTF8? content with
    | some text => .ok text
    | none => .error .notText

/-- Write a file, in place of an earlier one. -/
def write (tree : FileTree) (path : String) (content : ByteArray) :
    Except FileError FileTree := do
  let place ← tree.locate path
  match tree.node? place with
  | some .directory => .error .isDirectory
  | _ => .ok (tree.put place (.file content))

/-- The name of a file that is directly inside a directory. -/
def childName (directory : Place) : Place × FileNode → Option String
  | (place, .file _) =>
    if place.dropLast = directory then place.getLast? else none
  | (_, .directory) => none

/-- The names of the files directly inside a directory, in order. -/
def fileNames (tree : FileTree) (directory : Place) : List String :=
  (tree.entries.filterMap (childName directory)).mergeSort fun left right => left ≤ right

end FileTree

end BasicToSharp
