import BasicToSharp.FileTree

/-!
# Paths to the files of a directory

A path is a text, and what it leads to is found name by name. Here a directory is reached once
and for all: a path leads to it through directories only, and a name put behind the path leads
to the file of that name inside. What reading and writing do there depends on nothing in the
tree but what is at that place, and on the text of the path, which may be too long.

Writing a file never takes a directory away, so the path leads to the same directory after any
number of files have been written.
-/

namespace BasicToSharp

namespace Path

/-- True of a name that a file or directory can have. -/
def IsName (name : String) : Prop :=
  name ≠ "" ∧ name ≠ "." ∧ name ≠ ".." ∧ '/' ∉ name.toList

instance (name : String) : Decidable (IsName name) :=
  inferInstanceAs (Decidable (_ ∧ _ ∧ _ ∧ _))

/-- Why the file of a name cannot be reached in a directory, given the path with the name. -/
def nameFault? (path name : String) : Option FileError :=
  (fault? path).or (if isLongName name then some .nameTooLong else none)

section Split

variable {name : List Char}

/-- A name without a slash is not split. -/
theorem splitSlashes_name (current : List Char) (plain : '/' ∉ name) :
    splitSlashes current name = [String.ofList (current.reverse ++ name)] := by
  induction name generalizing current with
  | nil => simp [splitSlashes]
  | cons c rest inductionHypothesis =>
    obtain ⟨here, later⟩ := List.ne_and_not_mem_of_not_mem_cons plain
    rw [splitSlashes, if_neg (Ne.symm here), inductionHypothesis _ later]
    simp

/-- A slash ends what stands before it. -/
theorem splitSlashes_slash (current path more : List Char) :
    splitSlashes current (path ++ '/' :: more) =
      splitSlashes current path ++ splitSlashes [] more := by
  induction path generalizing current with
  | nil => simp [splitSlashes]
  | cons c rest inductionHypothesis =>
    by_cases slash : c = '/'
    · simp [splitSlashes, slash, inductionHypothesis]
    · simp [splitSlashes, slash, inductionHypothesis]

end Split

section Join

variable {path name : String}

/-- The name of a file is no absolute path. -/
theorem IsName.isAbsolute_eq (isName : IsName name) : isAbsolute name = false := by
  cases chars : name.toList with
  | nil => simp [isAbsolute, chars]
  | cons c rest =>
    have noSlash := isName.2.2.2
    rw [chars] at noSlash
    have other : c ≠ '/' := Ne.symm (List.ne_and_not_mem_of_not_mem_cons noSlash).1
    simp [isAbsolute, chars, other]

/-- A name joined to the empty path stays as it is. -/
theorem join_empty (name : String) : join "" name = name := by
  simp [join]

/-- Behind a path that is not empty a name stands behind a slash, which may be the last one of
the path. -/
theorem IsName.toList_join (isName : IsName name) (filled : path ≠ "") :
    ∃ front, (path.toList = front ++ ['/'] ∨ path.toList = front) ∧
      (join path name).toList = front ++ '/' :: name.toList := by
  have relative := isName.isAbsolute_eq
  have notEmpty : path.isEmpty = false := by simpa using filled
  by_cases ends : path.toList.getLast? = some '/'
  · obtain ⟨front, chars⟩ := List.getLast?_eq_some_iff.mp ends
    refine ⟨front, .inl chars, ?_⟩
    simp [join, relative, notEmpty, chars]
  · refine ⟨path.toList, .inr rfl, ?_⟩
    simp [join, relative, notEmpty, ends]

/-- The name is the last of the continued path, and the others are those of the path. -/
theorem IsName.splitSlashes_join (isName : IsName name) :
    (splitSlashes [] (join path name).toList).filter (· != "") =
      (splitSlashes [] path.toList).filter (· != "") ++ [name] := by
  have alone := splitSlashes_name [] isName.2.2.2
  rw [List.reverse_nil, List.nil_append, String.ofList_toList] at alone
  have kept : [name].filter (· != "") = [name] := by simpa using isName.1
  by_cases empty : path = ""
  · subst empty
    rw [join_empty, alone, kept]
    rfl
  · obtain ⟨front, chars | chars, joined⟩ := isName.toList_join empty
    · rw [joined, chars, splitSlashes_slash, splitSlashes_slash, alone, List.filter_append,
        List.filter_append, kept]
      simp [splitSlashes]
    · rw [joined, chars, splitSlashes_slash, alone, List.filter_append, kept]

/-- The names on a path are what stands between its slashes, without points. -/
theorem names_eq_filter (path : String) :
    names path = ((splitSlashes [] path.toList).filter (· != "")).filter (· != ".") := by
  rw [List.filter_filter]
  exact List.filter_congr fun name _ => Bool.and_comm _ _

/-- A name that is joined to a path is the last name on it. -/
theorem IsName.names_join (isName : IsName name) :
    names (join path name) = names path ++ [name] := by
  rw [names_eq_filter, names_eq_filter, isName.splitSlashes_join, List.filter_append]
  simp [isName.2.1]

/-- A path that a name ends can lead to a file. -/
theorem IsName.asksDirectory_join (isName : IsName name) :
    asksDirectory (join path name) = false := by
  have lastName : endsInPoint (join path name) = false := by
    simp [endsInPoint, last?, isName.splitSlashes_join, isName.2.1]
  have lastChar : (join path name).toList.getLast? ≠ some '/' := by
    intro ends
    have joinedEnds : name.toList.getLast? = some '/' := by
      by_cases empty : path = ""
      · rwa [empty, join_empty] at ends
      · obtain ⟨front, -, joined⟩ := isName.toList_join empty
        obtain ⟨last, isLast⟩ : ∃ last, name.toList.getLast? = some last :=
          Option.isSome_iff_exists.mp (by simpa using isName.1)
        have same : (join path name).toList.getLast? = some last := by
          rw [joined, List.getLast?_append, List.getLast?_cons, isLast]
          rfl
        rw [isLast, ← same, ends]
    exact isName.2.2.2 (List.mem_of_getLast? joinedEnds)
  simp [asksDirectory, lastName, lastChar]

/-- Joining a name keeps whether a path is absolute. -/
theorem IsName.isAbsolute_join (isName : IsName name) :
    isAbsolute (join path name) = isAbsolute path := by
  by_cases empty : path = ""
  · rw [empty, join_empty, isName.isAbsolute_eq]
    rfl
  · obtain ⟨front, chars | chars, joined⟩ := isName.toList_join empty
    · cases front <;> simp [isAbsolute, joined, chars]
    · have nonempty : front ≠ [] := by
        rintro rfl
        exact empty (String.toList_eq_nil_iff.mp chars)
      cases front with
      | nil => exact absurd rfl nonempty
      | cons c rest => simp [isAbsolute, joined, chars]

/-- A path with a name on it is not empty. -/
theorem IsName.join_ne_empty (isName : IsName name) : join path name ≠ "" := by
  intro none
  have joined : names (join path name) = names path ++ [name] := isName.names_join
  rw [none] at joined
  have shorter := congrArg List.length joined
  simp [names, splitSlashes] at shorter

end Join

end Path

namespace FileTree

/-- A path leads through directories to a directory. The empty path leads to the current one. -/
structure DirectoryAt (tree : FileTree) (path : String) (place : Place) : Prop where
  sound : Path.fault? path = none
  follows : tree.follow (tree.origin path) (Path.names path) = .ok place
  isDirectory : tree.node? place = some .directory

instance (tree : FileTree) (path : String) (place : Place) :
    Decidable (tree.DirectoryAt path place) :=
  decidable_of_iff (Path.fault? path = none ∧
    (tree.follow (tree.origin path) (Path.names path)).toOption = some place ∧
      tree.node? place = some .directory) (by
    have leads : ∀ followed : Except FileError Place,
        followed.toOption = some place ↔ followed = .ok place := by
      intro followed
      cases followed <;> simp [Except.toOption]
    rw [leads]
    exact ⟨fun all => ⟨all.1, all.2.1, all.2.2⟩, fun all => ⟨all.1, all.2, all.3⟩⟩)

/-- The text of what is at a place. -/
def contentText : Option FileNode → Except FileError String
  | none => .error .notFound
  | some .directory => .error .isDirectory
  | some (.file content) =>
    match String.fromUTF8? content with
    | some text => .ok text
    | none => .error .notText

/-- Why a file cannot be written in place of what is there. -/
def writeFault? : Option FileNode → Option FileError
  | some .directory => some .isDirectory
  | _ => none

variable {tree after : FileTree} {path name : String} {place start : Place}

section Follow

variable {first : String} {names : List String}

/-- A name is followed from a directory, up or down. -/
theorem follow_cons (leads : tree.follow start (first :: names) = .ok place) :
    tree.node? start = some .directory ∧
      (first = ".." ∧ tree.follow start.dropLast names = .ok place ∨
        first ≠ ".." ∧ Path.isLongName first = false ∧
          tree.follow (start ++ [first]) names = .ok place) := by
  rw [follow] at leads
  split at leads
  · cases leads
  · cases leads
  · next here =>
    refine ⟨here, ?_⟩
    by_cases up : first = ".."
    · rw [if_pos up] at leads
      exact .inl ⟨up, leads⟩
    · rw [if_neg up] at leads
      cases long : Path.isLongName first with
      | true => simp [long] at leads
      | false =>
        rw [long, if_neg Bool.false_ne_true] at leads
        exact .inr ⟨up, rfl, leads⟩

/-- Only a directory leads to a directory. -/
theorem isDirectory_of_follow (leads : tree.follow start names = .ok place)
    (isDirectory : tree.node? place = some .directory) : tree.node? start = some .directory := by
  cases names with
  | nil =>
    obtain rfl := Except.ok.inj leads
    exact isDirectory
  | cons name rest => exact (follow_cons leads).1

/-- A last name leads from a directory to the place inside it. -/
theorem follow_concat (leads : tree.follow start names = .ok place)
    (isDirectory : tree.node? place = some .directory) (isName : Path.IsName name) :
    tree.follow start (names ++ [name]) =
      if Path.isLongName name then .error .nameTooLong else .ok (place ++ [name]) := by
  induction names generalizing start with
  | nil =>
    obtain rfl := Except.ok.inj leads
    simp [follow, isDirectory, isName.2.2.1]
  | cons first rest inductionHypothesis =>
    obtain ⟨here, ⟨up, later⟩ | ⟨down, short, later⟩⟩ := follow_cons leads
    · simp [follow, here, up, inductionHypothesis later]
    · simp [follow, here, down, short, inductionHypothesis later]

/-- Names lead to the same directory in a tree that has the same directories. -/
theorem follow_of_kept
    (kept : ∀ place, tree.node? place = some .directory → after.node? place = some .directory)
    (leads : tree.follow start names = .ok place) : after.follow start names = .ok place := by
  induction names generalizing start with
  | nil => exact leads
  | cons first rest inductionHypothesis =>
    obtain ⟨here, ⟨up, later⟩ | ⟨down, short, later⟩⟩ := follow_cons leads
    · simp [follow, kept start here, up, inductionHypothesis later]
    · simp [follow, kept start here, down, short, inductionHypothesis later]

/-- Nothing has to be made where directories lead to a directory. -/
theorem makeAlong_of_follow (present : Bool) (leads : tree.follow start names = .ok place)
    (isDirectory : tree.node? place = some .directory) :
    tree.makeAlong start present names = (tree, none) := by
  induction names generalizing start with
  | nil => rfl
  | cons first rest inductionHypothesis =>
    obtain ⟨-, ⟨up, later⟩ | ⟨down, short, later⟩⟩ := follow_cons leads
    · simp [makeAlong, up, inductionHypothesis later]
    · have next := isDirectory_of_follow later isDirectory
      simp [makeAlong, down, short, next, inductionHypothesis later]

end Follow

namespace DirectoryAt

/-- A name behind the path leads inside the directory. -/
theorem locate_join (leads : tree.DirectoryAt path place) (isName : Path.IsName name) :
    tree.locate (Path.join path name) =
      match Path.nameFault? (Path.join path name) name with
      | some fault => .error fault
      | none => .ok (place ++ [name]) := by
  have filled : (Path.join path name).isEmpty = false := by
    simpa using isName.join_ne_empty
  have origin : tree.origin (Path.join path name) = tree.origin path := by
    rw [FileTree.origin, isName.isAbsolute_join, FileTree.origin]
  rw [locate, filled, if_neg Bool.false_ne_true, Path.nameFault?]
  cases Path.fault? (Path.join path name) with
  | some fault => rfl
  | none =>
    rw [origin, isName.names_join, follow_concat leads.follows leads.isDirectory isName,
      Option.none_or, isName.asksDirectory_join]
    cases Path.isLongName name with
    | true => rfl
    | false =>
      simp only [Bool.false_eq_true, if_false, bind, Except.bind]
      split <;> rfl

/-- Reading gives the text of what is at the place, unless the path is at fault. -/
theorem readText_join (leads : tree.DirectoryAt path place) (isName : Path.IsName name) :
    tree.readText (Path.join path name) =
      match Path.nameFault? (Path.join path name) name with
      | some fault => .error fault
      | none => contentText (tree.node? (place ++ [name])) := by
  rw [readText, leads.locate_join isName]
  cases Path.nameFault? (Path.join path name) name with
  | some fault => rfl
  | none =>
    simp only [bind, Except.bind]
    cases tree.node? (place ++ [name]) with
    | none => rfl
    | some node => cases node <;> rfl

/-- Writing puts a file at the place, unless the path is at fault or a directory is there. -/
theorem write_join (leads : tree.DirectoryAt path place) (isName : Path.IsName name)
    (content : ByteArray) :
    tree.write (Path.join path name) content =
      match (Path.nameFault? (Path.join path name) name).or
        (writeFault? (tree.node? (place ++ [name]))) with
      | some fault => .error fault
      | none => .ok (tree.put (place ++ [name]) (.file content)) := by
  rw [write, leads.locate_join isName]
  cases Path.nameFault? (Path.join path name) name with
  | some fault => rfl
  | none =>
    simp only [bind, Except.bind]
    cases tree.node? (place ++ [name]) with
    | none => rfl
    | some node => cases node <;> rfl

/-- A directory that is there is not made. -/
theorem makeDirectory_eq (leads : tree.DirectoryAt path place) :
    tree.makeDirectory path = (tree, none) := by
  rw [makeDirectory, leads.sound]
  exact makeAlong_of_follow _ leads.follows leads.isDirectory

/-- A path that leads to a directory is located there. -/
theorem locate_eq (leads : tree.DirectoryAt path place) (filled : path ≠ "") :
    tree.locate path = .ok place := by
  have notEmpty : path.isEmpty = false := by simpa using filled
  simp only [locate, notEmpty, leads.sound, leads.follows, leads.isDirectory, bind, Except.bind,
    Bool.false_eq_true, if_false]

end DirectoryAt

/-- What is found once a node is put at a place that is not the root. -/
theorem node?_put_inside (inside : place ≠ []) (node : FileNode) (other : Place) :
    (tree.put place node).node? other = if other = place then some node else tree.node? other := by
  by_cases root : other = []
  · subst root
    rw [if_neg (Ne.symm inside), node?_root, node?_root]
  · exact node?_put tree place other node root

/-- Putting a node into a tree does not move the current directory. -/
theorem put_current (tree : FileTree) (place : Place) (node : FileNode) :
    (tree.put place node).current = tree.current := by
  rw [put]
  split <;> rfl

/-- Writing a file leaves every directory where it is. -/
theorem DirectoryAt.put (leads : tree.DirectoryAt path place) {other : Place}
    (free : writeFault? (tree.node? other) = none) (content : ByteArray) :
    (tree.put other (.file content)).DirectoryAt path place := by
  have notDirectory : tree.node? other ≠ some .directory := by
    intro found
    rw [found] at free
    cases free
  have inside : other ≠ [] := by
    rintro rfl
    exact notDirectory (node?_root tree)
  have kept : ∀ place, tree.node? place = some .directory →
      (tree.put other (.file content)).node? place = some .directory := by
    intro place found
    have apart : place ≠ other := fun same => notDirectory (same ▸ found)
    rw [node?_put_inside inside, if_neg apart, found]
  refine ⟨leads.sound, ?_, kept place leads.isDirectory⟩
  have origin : (tree.put other (.file content)).origin path = tree.origin path := by
    rw [FileTree.origin, put_current, FileTree.origin]
  rw [origin]
  exact follow_of_kept kept leads.follows

end FileTree

end BasicToSharp
