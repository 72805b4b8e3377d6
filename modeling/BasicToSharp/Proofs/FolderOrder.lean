import BasicToSharp.FolderRun
import BasicToSharp.Proofs.FilePaths
import Mathlib.Data.List.Nodup
import Mathlib.Logic.Relation

/-!
# The files of a folder are converted independently

A folder run takes up every listed file twice: it reads the file, and it writes what the
conversion has brought. Between the two, other files may be read and written. Steps of this
kind interleave in any order here (`FolderRun.Step`), and converting the files one after the
other is one such order.

What one file writes could only matter to another if it came to stand where the other is read
or written. When all targets differ, it never does, not even if the files are written where
they are read from. A written file is named after a stem and the extension of the target
language. Were this the name of another listed file, that one would have the same stem, and so
the same target. Hence after any number of steps the place of a file that has not been read, and
the target of one that has not been written, still hold what they held at the start.
-/

namespace BasicToSharp

namespace Path

/-- True of an extension: behind the point that is before it there is no other, and no slash. -/
def IsExtension (text : String) : Prop := '.' ∉ text.toList ∧ '/' ∉ text.toList

instance (text : String) : Decidable (IsExtension text) := inferInstanceAs (Decidable (_ ∧ _))

example : ∀ converter ∈ Converter.catalogue, IsExtension converter.targetExtension := by decide

section Stem

variable {name front extension : String}

/-- A stem is what is left when something is cut off at the end. -/
theorem stem_of_filled (filled : name ≠ "") :
    stem name ≠ "" ∧ ∃ tail, name.toList = (stem name).toList ++ tail := by
  rw [stem]
  cases cut : (name.toList.reverse.dropWhile (· != '.')).drop 1 with
  | nil => exact ⟨filled, [], by simp⟩
  | cons last before =>
    refine ⟨by simp [← String.toList_inj], ?_⟩
    obtain ⟨dropped, whole⟩ : ∃ dropped, name.toList.reverse = dropped ++ (last :: before) := by
      refine ⟨name.toList.reverse.takeWhile (· != '.') ++
        (name.toList.reverse.dropWhile (· != '.')).take 1, ?_⟩
      rw [← cut, List.append_assoc, List.take_append_drop, List.takeWhile_append_dropWhile]
    refine ⟨dropped.reverse, ?_⟩
    have reversed := congrArg List.reverse whole
    rw [List.reverse_reverse, List.reverse_append] at reversed
    rw [reversed, String.toList_ofList]

/-- Behind a stem an extension is found again. -/
theorem stem_append (filled : front ≠ "") (isExtension : IsExtension extension) :
    stem (front ++ "." ++ extension) = front := by
  have point : ("." : String).toList = ['.'] := by decide
  have chars : (front ++ "." ++ extension).toList.reverse =
      extension.toList.reverse ++ '.' :: front.toList.reverse := by
    simp [String.toList_append, point]
  have before : ∀ c ∈ extension.toList.reverse, (c != '.') = true := by
    intro c member
    have other : c ≠ '.' := fun same => isExtension.1 (same ▸ List.mem_reverse.mp member)
    simpa using other
  have cut : ((front ++ "." ++ extension).toList.reverse.dropWhile (· != '.')).drop 1 =
      front.toList.reverse := by
    rw [chars, List.dropWhile_append_of_pos before]
    rfl
  rw [stem, cut]
  cases reversed : front.toList.reverse with
  | nil => exact absurd (String.toList_eq_nil_iff.mp (List.reverse_eq_nil_iff.mp reversed)) filled
  | cons last rest =>
    show String.ofList (last :: rest).reverse = front
    rw [← reversed, List.reverse_reverse, String.ofList_toList]

end Stem

end Path

/-- The names in a tree are names that files and directories can have. -/
def FileTree.Named (tree : FileTree) : Prop :=
  ∀ entry ∈ tree.entries, ∀ name ∈ entry.1, Path.IsName name

instance (tree : FileTree) : Decidable tree.Named :=
  inferInstanceAs (Decidable (∀ entry ∈ tree.entries, ∀ name ∈ entry.1, Path.IsName name))

/-- Two trees with the same current directory and the same node at every place. They may list
their entries in different orders. -/
def FileTree.Same (left right : FileTree) : Prop :=
  left.current = right.current ∧ ∀ place, left.node? place = right.node? place

namespace FolderRun

/-- The name under which the conversion of a file is written. -/
def targetName (folder : FolderRun) (name : String) : String :=
  Path.stem name ++ "." ++ folder.converter.targetExtension

/-- The names of the files in a directory that a folder run takes up, in order. -/
def listed (tree : FileTree) (source : Place) : List String :=
  (tree.fileNames source).filter isVisible

/-- The input and the output of a folder run are directories, at these places. The empty path
names no directory whose files could be listed. -/
structure Placed (folder : FolderRun) (tree : FileTree) (source destination : Place) : Prop where
  filled : folder.input ≠ ""
  input : tree.DirectoryAt folder.input source
  output : tree.DirectoryAt folder.output destination

/-- Both directories are made in one tree where they are missing, which gives another. -/
def MakesDirectories (folder : FolderRun) (start tree : FileTree) : Prop :=
  ∃ middle, start.makeDirectory folder.input = (middle, none) ∧
    middle.makeDirectory folder.output = (tree, none)

/-- Files of which none is written where another one is read or written. -/
structure Separate (folder : FolderRun) (source destination : Place) (names : List String) :
    Prop where
  isName : ∀ name ∈ names, Path.IsName name ∧ Path.IsName (folder.targetName name)
  apart : ∀ name ∈ names, ∀ other ∈ names, other ≠ name →
    source ++ [other] ≠ destination ++ [folder.targetName name] ∧
      folder.targetName other ≠ folder.targetName name

section Names

variable {folder : FolderRun} {tree : FileTree} {source destination : Place} {name : String}

/-- The target of a file is its target name in the output folder. -/
theorem target_eq (folder : FolderRun) (name : String) :
    folder.target name = Path.join folder.output (folder.targetName name) := by
  rw [target, targetName]

/-- A target name is its own target name. -/
theorem targetName_targetName (extension : Path.IsExtension folder.converter.targetExtension)
    (filled : name ≠ "") :
    folder.targetName (folder.targetName name) = folder.targetName name := by
  rw [targetName, targetName, Path.stem_append (Path.stem_of_filled filled).1 extension]

/-- The target of a visible file is visible, and so no path upwards. -/
theorem isName_targetName (extension : Path.IsExtension folder.converter.targetExtension)
    (isName : Path.IsName name) (visible : isVisible name = true) :
    Path.IsName (folder.targetName name) := by
  obtain ⟨filled, tail, whole⟩ := Path.stem_of_filled isName.1
  have point : (".").toList = ['.'] := by decide
  have chars : (folder.targetName name).toList =
      (Path.stem name).toList ++ '.' :: folder.converter.targetExtension.toList := by
    simp [targetName, String.toList_append, point]
  cases stem : (Path.stem name).toList with
  | nil => exact absurd (String.toList_eq_nil_iff.mp stem) filled
  | cons first rest =>
    rw [stem] at chars whole
    have notPoint : first ≠ '.' := by
      rintro rfl
      simp [isVisible, whole] at visible
    have other : ∀ text : String, text.toList.head? ≠ some first →
        folder.targetName name ≠ text := by
      intro text differs same
      rw [← same, chars] at differs
      exact differs rfl
    refine ⟨other _ (by simp), other _ ?_, other _ ?_, ?_⟩
    · simpa [point] using Ne.symm notPoint
    · have points : ("..").toList = ['.', '.'] := by decide
      simpa [points] using Ne.symm notPoint
    · have noSlash := isName.2.2.2
      rw [whole] at noSlash
      rw [chars]
      intro slash
      rcases List.mem_append.mp slash with inStem | behind
      · exact noSlash (List.mem_append_left _ inStem)
      · rcases List.mem_cons.mp behind with isPoint | inExtension
        · exact absurd isPoint (by decide)
        · exact extension.2 inExtension

/-- What is listed are visible file names. -/
theorem mem_listed (named : tree.Named) (member : name ∈ listed tree source) :
    Path.IsName name ∧ isVisible name = true := by
  obtain ⟨inDirectory, visible⟩ := List.mem_filter.mp member
  refine ⟨?_, visible⟩
  obtain ⟨⟨place, node⟩, inTree, child⟩ :=
    List.mem_filterMap.mp (List.mem_mergeSort.mp inDirectory)
  cases node with
  | directory => cases child
  | file content =>
    rw [FileTree.childName] at child
    split at child
    · exact named _ inTree name (List.mem_of_getLast? child)
    · cases child

/-- Files with different targets are separate, wherever they are written. -/
theorem separate_listed (extension : Path.IsExtension folder.converter.targetExtension)
    (named : tree.Named) (destination : Place)
    (distinct : ((listed tree source).map folder.target).Nodup) :
    folder.Separate source destination (listed tree source) := by
  have sameTarget : ∀ {name other : String}, name ∈ listed tree source →
      other ∈ listed tree source → folder.targetName other = folder.targetName name →
        other = name := by
    intro name other member otherMember same
    refine List.inj_on_of_nodup_map distinct otherMember member ?_
    exact congrArg (Path.join folder.output) same
  refine ⟨fun name member => ?_, fun name member other otherMember differs => ⟨?_, ?_⟩⟩
  · obtain ⟨isName, visible⟩ := mem_listed named member
    exact ⟨isName, isName_targetName extension isName visible⟩
  · -- a file that is named like a target has that target itself
    intro same
    obtain ⟨-, sameName⟩ := List.append_inj' same rfl
    have written : other = folder.targetName name := List.head_eq_of_cons_eq sameName
    have filled := (mem_listed named member).1.1
    have target := targetName_targetName extension filled
    rw [← written] at target
    exact differs (sameTarget member otherMember (target.trans written))
  · exact fun same => differs (sameTarget member otherMember same)

/-- Files that are kept apart are kept apart among fewer. -/
theorem Separate.of_subset {names part : List String}
    (separate : folder.Separate source destination names) (within : part ⊆ names) :
    folder.Separate source destination part :=
  ⟨fun name member => separate.isName name (within member),
    fun name member other otherMember =>
      separate.apart name (within member) other (within otherMember)⟩

end Names

/-! ## One file -/

section Finish

variable {folder : FolderRun} {tree other : FileTree} {name : String}
  {source destination source' destination' : Place}

/-- Writing a conversion depends on nothing but the path of the target and what is there. -/
theorem writeConversion_eq (placed : folder.Placed tree source destination)
    (isName : Path.IsName (folder.targetName name)) (conversion : Conversion) :
    folder.writeConversion tree name conversion =
      match (Path.nameFault? (folder.target name) (folder.targetName name)).or
        (FileTree.writeFault? (tree.node? (destination ++ [folder.targetName name]))) with
      | some cause => (.failed ("write failed: " ++ cause.text), tree)
      | none =>
        (.converted (folder.target name) conversion.lines.length conversion.diagnostics,
          tree.put (destination ++ [folder.targetName name])
            (.file conversion.text.toUTF8)) := by
  have written := placed.output.write_join isName conversion.text.toUTF8
  rw [← target_eq folder name] at written
  unfold writeConversion
  simp only [written]
  cases (Path.nameFault? (folder.target name) (folder.targetName name)).or
    (FileTree.writeFault? (tree.node? (destination ++ [folder.targetName name]))) <;> rfl

/-- A file that has been read is written at its target, or nothing changes. -/
theorem finishFile_cases (placed : folder.Placed tree source destination)
    (isName : Path.IsName (folder.targetName name)) (reading : Except FileError String) :
    ((folder.finishFile tree name reading).2 = tree ∧
      (folder.finishFile tree name reading).1.outcome.isConverted = false) ∨
    ∃ text conversion, reading = .ok text ∧
      folder.converter.convert text folder.options = .ok conversion ∧
      FileTree.writeFault? (tree.node? (destination ++ [folder.targetName name])) = none ∧
      (folder.finishFile tree name reading).2 =
        tree.put (destination ++ [folder.targetName name]) (.file conversion.text.toUTF8) ∧
      (folder.finishFile tree name reading).1.outcome.isConverted = true := by
  cases reading with
  | error cause => exact .inl ⟨rfl, rfl⟩
  | ok text =>
    cases converted : folder.converter.convert text folder.options with
    | error cause => exact .inl (by simp [finishFile, converted, FileOutcome.isConverted])
    | ok conversion =>
      have written := writeConversion_eq placed isName conversion
      cases fault : (Path.nameFault? (folder.target name) (folder.targetName name)).or
        (FileTree.writeFault? (tree.node? (destination ++ [folder.targetName name]))) with
      | some cause =>
        rw [fault] at written
        exact .inl (by simp [finishFile, converted, written, FileOutcome.isConverted])
      | none =>
        rw [fault] at written
        refine .inr ⟨text, conversion, rfl, converted, (Option.or_eq_none_iff.mp fault).2, ?_⟩
        simp [finishFile, converted, written, FileOutcome.isConverted]

/-- The two directories stay where they are, whatever is written. -/
theorem Placed.finishFile (placed : folder.Placed tree source destination)
    (isName : Path.IsName (folder.targetName name)) (reading : Except FileError String) :
    folder.Placed (folder.finishFile tree name reading).2 source destination := by
  rcases finishFile_cases placed isName reading with ⟨same, -⟩ | ⟨_, _, -, -, free, same, -⟩
  · rwa [same]
  · rw [same]
    exact ⟨placed.filled, placed.input.put free _, placed.output.put free _⟩

/-- Finishing a file does not move the current directory. -/
theorem finishFile_current (placed : folder.Placed tree source destination)
    (isName : Path.IsName (folder.targetName name)) (reading : Except FileError String) :
    (folder.finishFile tree name reading).2.current = tree.current := by
  rcases finishFile_cases placed isName reading with ⟨same, -⟩ | ⟨_, _, -, -, -, same, -⟩
  · rw [same]
  · rw [same, FileTree.put_current]

/-- Nothing changes but the target. -/
theorem finishFile_elsewhere (placed : folder.Placed tree source destination)
    (isName : Path.IsName (folder.targetName name)) (reading : Except FileError String)
    {place : Place} (apart : place ≠ destination ++ [folder.targetName name]) :
    (folder.finishFile tree name reading).2.node? place = tree.node? place := by
  rcases finishFile_cases placed isName reading with ⟨same, -⟩ | ⟨_, _, -, -, -, same, -⟩
  · rw [same]
  · rw [same, FileTree.node?_put_inside (by simp), if_neg apart]

/-- In two trees that hold the same at the target of a file, the same becomes of the file, and
the same is at the target afterwards. -/
theorem finishFile_congr (placed : folder.Placed tree source destination)
    (placedOther : folder.Placed other source' destination')
    (isName : Path.IsName (folder.targetName name)) (reading : Except FileError String)
    (same : tree.node? (destination ++ [folder.targetName name]) =
      other.node? (destination' ++ [folder.targetName name])) :
    (folder.finishFile tree name reading).1 = (folder.finishFile other name reading).1 ∧
      (folder.finishFile tree name reading).2.node? (destination ++ [folder.targetName name]) =
        (folder.finishFile other name reading).2.node?
          (destination' ++ [folder.targetName name]) := by
  cases reading with
  | error cause => exact ⟨rfl, same⟩
  | ok text =>
    cases converted : folder.converter.convert text folder.options with
    | error cause => simpa [finishFile, converted] using same
    | ok conversion =>
      have written := writeConversion_eq placed isName conversion
      have writtenOther := writeConversion_eq placedOther isName conversion
      rw [← same] at writtenOther
      cases fault : (Path.nameFault? (folder.target name) (folder.targetName name)).or
        (FileTree.writeFault? (tree.node? (destination ++ [folder.targetName name]))) with
      | some cause =>
        rw [fault] at written writtenOther
        simpa [finishFile, converted, written, writtenOther] using same
      | none =>
        rw [fault] at written writtenOther
        simp [finishFile, converted, written, writtenOther, FileTree.node?_put_inside]

/-- Reading a file depends on nothing but its path and what is there. -/
theorem readText_congr (placed : folder.Placed tree source destination)
    (placedOther : folder.Placed other source' destination') (isName : Path.IsName name)
    (same : tree.node? (source ++ [name]) = other.node? (source' ++ [name])) :
    tree.readText (Path.join folder.input name) =
      other.readText (Path.join folder.input name) := by
  rw [placed.input.readText_join isName, placedOther.input.readText_join isName, same]

end Finish

/-! ## Many files, in any order -/

/-- A folder run on its way. -/
structure Progress where
  tree : FileTree
  /-- The files that have not been read. -/
  waiting : List String
  /-- The files that have been read and not yet written, with what reading has brought. -/
  begun : List (String × Except FileError String) := []
  /-- The results of all others, as they were finished. -/
  results : List FileResult := []

/-- One access to the files: some file that waits is read, or some file that has been read is
finished. -/
inductive Step (folder : FolderRun) : Progress → Progress → Prop
  | read (tree : FileTree) (before after : List String) (name : String)
      (begun : List (String × Except FileError String)) (results : List FileResult) :
      Step folder ⟨tree, before ++ name :: after, begun, results⟩
        ⟨tree, before ++ after,
          (name, tree.readText (Path.join folder.input name)) :: begun, results⟩
  | finish (tree : FileTree) (waiting : List String)
      (before after : List (String × Except FileError String)) (name : String)
      (reading : Except FileError String) (results : List FileResult) :
      Step folder ⟨tree, waiting, before ++ (name, reading) :: after, results⟩
        ⟨(folder.finishFile tree name reading).2, waiting, before ++ after,
          results ++ [(folder.finishFile tree name reading).1]⟩

/-- Any number of accesses, in any order. -/
abbrev Steps (folder : FolderRun) : Progress → Progress → Prop :=
  Relation.ReflTransGen folder.Step

/-- What a run from `tree` has come to when the files `finished` are finished: every file has
the result, and leaves at its target, what it would if it were the only one, and every other
place holds what it held at the start. -/
structure Progress.Sound (folder : FolderRun) (tree : FileTree) (source destination : Place)
    (names finished : List String) (progress : Progress) : Prop where
  placed : folder.Placed progress.tree source destination
  current : progress.tree.current = tree.current
  complete : (finished ++ (progress.begun.map Prod.fst ++ progress.waiting)).Perm names
  readings : ∀ entry ∈ progress.begun, entry.2 = tree.readText (Path.join folder.input entry.1)
  results : progress.results = finished.map fun name => (folder.convertFile tree name).1
  written : ∀ name ∈ finished,
    progress.tree.node? (destination ++ [folder.targetName name]) =
      (folder.convertFile tree name).2.node? (destination ++ [folder.targetName name])
  untouched : ∀ place, (∀ name ∈ finished, place ≠ destination ++ [folder.targetName name]) →
    progress.tree.node? place = tree.node? place

section Walk

variable {folder : FolderRun} {tree : FileTree} {source destination : Place}
  {names finished : List String} {progress next : Progress}

/-- Before the first file is finished nothing has happened. -/
theorem Progress.sound_start (placed : folder.Placed tree source destination)
    {order : List String} (complete : order.Perm names) :
    Progress.Sound folder tree source destination names [] ⟨tree, order, [], []⟩ where
  placed := placed
  current := rfl
  complete := complete
  readings := nofun
  results := rfl
  written := nofun
  untouched := fun _ _ => rfl

/-- A file that is not finished is one of the files, and nothing of it has been written. -/
theorem Progress.Sound.of_unfinished
    (sound : progress.Sound folder tree source destination names finished)
    (unique : names.Nodup) {name : String}
    (unfinished : name ∈ progress.begun.map Prod.fst ++ progress.waiting) :
    name ∈ names ∧ ∀ other ∈ finished, other ∈ names ∧ name ≠ other := by
  have distinct := sound.complete.nodup_iff.mpr unique
  refine ⟨sound.complete.subset (List.mem_append_right _ unfinished), fun other isFinished => ?_⟩
  refine ⟨sound.complete.subset (List.mem_append_left _ isFinished), ?_⟩
  exact Ne.symm ((List.nodup_append.mp distinct).2.2 other isFinished name unfinished)

/-- Reading a file brings what it would have brought at the start: no file that is finished was
written where this one is read. -/
theorem Progress.Sound.read {now : FileTree} {before after : List String} {name : String}
    {begun : List (String × Except FileError String)} {results : List FileResult}
    (placed : folder.Placed tree source destination)
    (separate : folder.Separate source destination names) (unique : names.Nodup)
    (sound : Progress.Sound folder tree source destination names finished
      ⟨now, before ++ name :: after, begun, results⟩) :
    Progress.Sound folder tree source destination names finished
      ⟨now, before ++ after, (name, now.readText (Path.join folder.input name)) :: begun,
        results⟩ := by
  have unfinished : name ∈ begun.map Prod.fst ++ (before ++ name :: after) := by simp
  obtain ⟨member, fresh⟩ := sound.of_unfinished unique unfinished
  have here : now.node? (source ++ [name]) = tree.node? (source ++ [name]) := by
    apply sound.untouched
    intro other isFinished
    obtain ⟨otherMember, differs⟩ := fresh other isFinished
    exact (separate.apart other otherMember name member differs).1
  have reading := readText_congr sound.placed placed (separate.isName name member).1 here
  have moved : (name :: (begun.map Prod.fst ++ before ++ after)).Perm
      (begun.map Prod.fst ++ before ++ name :: after) := List.perm_middle.symm
  rw [List.append_assoc, List.append_assoc] at moved
  refine ⟨sound.placed, sound.current, (moved.append_left finished).trans sound.complete, ?_,
    sound.results, sound.written, sound.untouched⟩
  intro entry isBegun
  rcases List.mem_cons.mp isBegun with rfl | earlier
  · exact reading
  · exact sound.readings entry earlier

/-- Finishing a file gives what it would have given at the start: no file that is finished has
the same target. -/
theorem Progress.Sound.finish {now : FileTree} {waiting : List String}
    {before after : List (String × Except FileError String)} {name : String}
    {reading : Except FileError String} {results : List FileResult}
    (placed : folder.Placed tree source destination)
    (separate : folder.Separate source destination names) (unique : names.Nodup)
    (sound : Progress.Sound folder tree source destination names finished
      ⟨now, waiting, before ++ (name, reading) :: after, results⟩) :
    Progress.Sound folder tree source destination names (finished ++ [name])
      ⟨(folder.finishFile now name reading).2, waiting, before ++ after,
        results ++ [(folder.finishFile now name reading).1]⟩ := by
  have unfinished : name ∈ (before ++ (name, reading) :: after).map Prod.fst ++ waiting := by simp
  obtain ⟨member, fresh⟩ := sound.of_unfinished unique unfinished
  have isName := (separate.isName name member).2
  have apart : ∀ other ∈ finished,
      destination ++ [folder.targetName name] ≠ destination ++ [folder.targetName other] := by
    intro other isFinished same
    obtain ⟨otherMember, differs⟩ := fresh other isFinished
    have targets := (separate.apart other otherMember name member differs).2
    exact targets (List.head_eq_of_cons_eq (List.append_inj' same rfl).2)
  have alone : reading = tree.readText (Path.join folder.input name) :=
    sound.readings (name, reading) (by simp)
  have converted : folder.finishFile tree name reading = folder.convertFile tree name := by
    rw [convertFile, alone]
  obtain ⟨sameResult, sameTarget⟩ :=
    finishFile_congr sound.placed placed isName reading (sound.untouched _ apart)
  rw [converted] at sameResult sameTarget
  refine ⟨sound.placed.finishFile isName reading,
    (finishFile_current sound.placed isName reading).trans sound.current, ?_, ?_, ?_, ?_, ?_⟩
  · refine List.Perm.trans ?_ sound.complete
    simp only [List.append_assoc, List.map_append, List.map_cons, List.cons_append,
      List.nil_append]
    exact List.Perm.append_left _ List.perm_middle.symm
  · intro entry isBegun
    apply sound.readings entry
    rcases List.mem_append.mp isBegun with earlier | later
    · exact List.mem_append_left _ earlier
    · exact List.mem_append_right _ (List.mem_cons_of_mem _ later)
  · rw [List.map_append, List.map_singleton, ← sound.results, sameResult]
  · intro other isFinished
    rcases List.mem_append.mp isFinished with earlier | isLast
    · rw [finishFile_elsewhere sound.placed isName reading (Ne.symm (apart other earlier))]
      exact sound.written other earlier
    · obtain rfl := List.mem_singleton.mp isLast
      exact sameTarget
  · intro place elsewhere
    rw [finishFile_elsewhere sound.placed isName reading (elsewhere name (by simp))]
    exact sound.untouched place fun other earlier =>
      elsewhere other (List.mem_append_left _ earlier)

/-- Whatever accesses are made, in whatever order, they keep what is known about a run. -/
theorem Progress.Sound.steps (placed : folder.Placed tree source destination)
    (separate : folder.Separate source destination names) (unique : names.Nodup)
    (sound : progress.Sound folder tree source destination names finished)
    (steps : folder.Steps progress next) :
    ∃ finished', next.Sound folder tree source destination names finished' := by
  induction steps with
  | refl => exact ⟨finished, sound⟩
  | tail earlier step inductionHypothesis =>
    obtain ⟨finished', soundHere⟩ := inductionHypothesis
    cases step with
    | read => exact ⟨finished', soundHere.read placed separate unique⟩
    | finish => exact ⟨_, soundHere.finish placed separate unique⟩

/-- Two runs that have finished all files have come to the same tree. -/
theorem Progress.Sound.same {other : Progress} {finished' : List String}
    (sound : progress.Sound folder tree source destination names finished)
    (soundOther : other.Sound folder tree source destination names finished')
    (all : finished.Perm names) (allOther : finished'.Perm names) :
    progress.tree.Same other.tree := by
  refine ⟨sound.current.trans soundOther.current.symm, fun place => ?_⟩
  by_cases target : ∃ name ∈ names, place = destination ++ [folder.targetName name]
  · obtain ⟨name, member, rfl⟩ := target
    rw [sound.written name (all.mem_iff.mpr member),
      soundOther.written name (allOther.mem_iff.mpr member)]
  · have elsewhere : ∀ name ∈ names, place ≠ destination ++ [folder.targetName name] :=
      fun name member same => target ⟨name, member, same⟩
    rw [sound.untouched place fun name member => elsewhere name (all.subset member),
      soundOther.untouched place fun name member => elsewhere name (allOther.subset member)]

end Walk

/-! ## One after the other -/

section Sequence

variable {folder : FolderRun} {tree : FileTree} {source destination : Place}
  {names order : List String}

/-- Converting files one after the other is one way to order the accesses. -/
theorem steps_convertFiles (folder : FolderRun) (tree : FileTree) (order : List String)
    (results : List FileResult) :
    folder.Steps ⟨tree, order, [], results⟩
      ⟨(folder.convertFiles tree order).2, [], [],
        results ++ (folder.convertFiles tree order).1⟩ := by
  induction order generalizing tree results with
  | nil =>
    rw [convertFiles, List.append_nil]
  | cons name rest inductionHypothesis =>
    let reading := tree.readText (Path.join folder.input name)
    have read : folder.Step ⟨tree, name :: rest, [], results⟩
        ⟨tree, rest, [(name, reading)], results⟩ := .read tree [] rest name [] results
    have finish : folder.Step ⟨tree, rest, [(name, reading)], results⟩
        ⟨(folder.convertFile tree name).2, rest, [],
          results ++ [(folder.convertFile tree name).1]⟩ :=
      .finish tree rest [] [] name reading results
    have later := inductionHypothesis (folder.convertFile tree name).2
      (results ++ [(folder.convertFile tree name).1])
    rw [List.append_assoc, List.singleton_append] at later
    exact .head read (.head finish later)

/-- The outcome of a file is recorded under its name. -/
theorem finishFile_name (folder : FolderRun) (tree : FileTree) (name : String)
    (reading : Except FileError String) : (folder.finishFile tree name reading).1.name = name := by
  cases reading with
  | error cause => rfl
  | ok text => cases converted : folder.converter.convert text folder.options <;>
      simp [finishFile, converted]

/-- There is one result for each file, in order. -/
theorem convertFiles_names (folder : FolderRun) (tree : FileTree) (order : List String) :
    (folder.convertFiles tree order).1.map FileResult.name = order := by
  induction order generalizing tree with
  | nil => rfl
  | cons name rest inductionHypothesis =>
    have here : (folder.convertFile tree name).1.name = name := finishFile_name folder tree name _
    simp [convertFiles, here, inductionHypothesis]

/-- Files converted one after the other have the results that each would have alone. -/
theorem convertFiles_sound (placed : folder.Placed tree source destination)
    (separate : folder.Separate source destination names) (unique : names.Nodup)
    (complete : order.Perm names) :
    (folder.convertFiles tree order).1 = order.map (fun name => (folder.convertFile tree name).1) ∧
      Progress.Sound folder tree source destination names order
        ⟨(folder.convertFiles tree order).2, [], [], (folder.convertFiles tree order).1⟩ := by
  obtain ⟨finished, sound⟩ := (Progress.sound_start placed complete).steps placed separate unique
    (steps_convertFiles folder tree order [])
  rw [List.nil_append] at sound
  have results : (folder.convertFiles tree order).1 = _ := sound.results
  have named := convertFiles_names folder tree order
  rw [results, List.map_map] at named
  have same : finished.map (FileResult.name ∘ fun name => (folder.convertFile tree name).1) =
      finished := by
    refine List.map_id'' (fun name => ?_) finished
    exact finishFile_name folder tree name _
  obtain rfl : finished = order := same.symm.trans named
  exact ⟨results, sound⟩

end Sequence

/-! ## The run as a whole -/

section Run

variable {folder : FolderRun} {tree start : FileTree} {source destination : Place}

/-- A run whose directories are there converts the listed files in order. -/
theorem run_eq (placed : folder.Placed tree source destination) :
    folder.run tree =
      (.ok ⟨folder.input, folder.output, (folder.convertFiles tree (listed tree source)).1⟩,
        (folder.convertFiles tree (listed tree source)).2) := by
  simp only [run, placed.input.makeDirectory_eq, placed.output.makeDirectory_eq, inputNames,
    placed.input.locate_eq placed.filled, listed]

/-- A run that makes its directories goes on like one that finds them. -/
theorem run_of_makesDirectories (placed : folder.Placed tree source destination)
    (makes : folder.MakesDirectories start tree) : folder.run start = folder.run tree := by
  obtain ⟨middle, input, output⟩ := makes
  rw [run_eq placed]
  simp only [run, input, output, inputNames, placed.input.locate_eq placed.filled, listed]

/-- Files are listed in order. -/
theorem pairwise_listed (tree : FileTree) (source : Place) :
    (listed tree source).Pairwise (· ≤ ·) := by
  have sorted :
      (tree.fileNames source).Pairwise fun left right => decide (left ≤ right) = true := by
    apply List.pairwise_mergeSort
    · intro first second third lower upper
      exact decide_eq_true (String.le_trans (of_decide_eq_true lower) (of_decide_eq_true upper))
    · intro left right
      simpa using String.le_total left right
  exact (sorted.imp of_decide_eq_true).filter isVisible

end Run

/-- The files of a folder do not get into each other's way. Let the input and the output of a run
be directories, the same one or two, and let the targets of the listed files differ. Then the
run reports, in the order of names, what would become of each file if it were the only one.

The same results and the same files come of every order in which the files are converted and of
every interleaving of their accesses, and leaving files out changes nothing for the others. What
becomes of a file depends on what is at its own place and at its target, whatever else is in the
tree. Afterwards the target of every converted file holds its conversion, and every other place
what it held before. Where the directories are missing they are made first, and the rest is the
same. -/
theorem folder_files_are_independent (folder : FolderRun)
    (extension : Path.IsExtension folder.converter.targetExtension) {tree : FileTree}
    (named : tree.Named) {source destination : Place}
    (placed : folder.Placed tree source destination)
    (distinct : ((listed tree source).map folder.target).Nodup) :
    let names := listed tree source
    let resultOf := fun name => (folder.convertFile tree name).1
    let targetOf := fun name => destination ++ [folder.targetName name]
    ∃ final,
      folder.run tree = (.ok ⟨folder.input, folder.output, names.map resultOf⟩, final) ∧
      names.Pairwise (· ≤ ·) ∧
      (∀ order, order.Perm names →
        (folder.convertFiles tree order).1 = order.map resultOf ∧
          (folder.convertFiles tree order).2.Same final) ∧
      (∀ progress, folder.Steps ⟨tree, names, [], []⟩ progress →
        progress.waiting = [] → progress.begun = [] →
          progress.results.Perm (names.map resultOf) ∧ progress.tree.Same final) ∧
      (∀ part, part.Nodup → part ⊆ names →
        (folder.convertFiles tree part).1 = part.map resultOf) ∧
      (∀ other source' destination', folder.Placed other source' destination' →
        ∀ name ∈ names, other.node? (source' ++ [name]) = tree.node? (source ++ [name]) →
          other.node? (destination' ++ [folder.targetName name]) = tree.node? (targetOf name) →
            (folder.convertFile other name).1 = resultOf name) ∧
      (∀ name ∈ names, (resultOf name).outcome.isConverted = true → ∃ text conversion,
        tree.readText (Path.join folder.input name) = .ok text ∧
          folder.converter.convert text folder.options = .ok conversion ∧
          final.node? (targetOf name) = some (.file conversion.text.toUTF8)) ∧
      (∀ place, (∀ name ∈ names, (resultOf name).outcome.isConverted = true →
        place ≠ targetOf name) → final.node? place = tree.node? place) ∧
      (∀ start, folder.MakesDirectories start tree → folder.run start = folder.run tree) := by
  intro names resultOf targetOf
  have separate := separate_listed extension named destination distinct
  have unique : names.Nodup := distinct.of_map _
  obtain ⟨results, sound⟩ := convertFiles_sound placed separate unique (.refl names)
  refine ⟨(folder.convertFiles tree names).2, ?_, pairwise_listed tree source, ?_, ?_, ?_, ?_, ?_,
    ?_, fun start => run_of_makesDirectories placed⟩
  · rw [run_eq placed, results]
  · intro order complete
    obtain ⟨orderResults, orderSound⟩ := convertFiles_sound placed separate unique complete
    exact ⟨orderResults, orderSound.same sound complete (.refl names)⟩
  · intro progress steps read finish
    obtain ⟨finished, stepsSound⟩ :=
      (Progress.sound_start placed (.refl names)).steps placed separate unique steps
    have complete := stepsSound.complete
    rw [read, finish, List.map_nil, List.append_nil, List.append_nil] at complete
    refine ⟨?_, stepsSound.same sound complete (.refl names)⟩
    rw [stepsSound.results]
    exact complete.map _
  · intro part partUnique within
    exact (convertFiles_sound placed (separate.of_subset within) partUnique (.refl part)).1
  · intro other source' destination' placedOther name member sameSource sameTarget
    obtain ⟨isName, isTarget⟩ := separate.isName name member
    have reading := readText_congr placedOther placed isName sameSource
    show (folder.convertFile other name).1 = (folder.convertFile tree name).1
    rw [convertFile, convertFile, reading]
    exact (finishFile_congr placedOther placed isTarget _ sameTarget).1
  · intro name member converted
    have isTarget := (separate.isName name member).2
    rcases finishFile_cases placed isTarget (tree.readText (Path.join folder.input name)) with
      ⟨-, failed⟩ | ⟨text, conversion, read, written, -, after, -⟩
    · rw [show (folder.finishFile tree name _).1 = resultOf name from rfl, converted] at failed
      cases failed
    · refine ⟨text, conversion, read, written, ?_⟩
      rw [sound.written name member, convertFile, after, FileTree.node?_put_inside (by simp),
        if_pos rfl]
  · intro place elsewhere
    by_cases target : ∃ name ∈ names, place = targetOf name
    · obtain ⟨name, member, rfl⟩ := target
      have isTarget := (separate.isName name member).2
      rw [sound.written name member]
      rcases finishFile_cases placed isTarget (tree.readText (Path.join folder.input name)) with
        ⟨same, -⟩ | ⟨_, _, -, -, -, -, converted⟩
      · rw [convertFile, same]
      · exact absurd rfl (elsewhere name member converted)
    · exact sound.untouched place fun name member same => target ⟨name, member, same⟩

/-- The files of this folder are written where they are read from, by another path. One has a
point in its stem, one is its own target, one is no text, and a directory stands in the way of
the last. -/
theorem files_of_one_directory_are_independent :
    let tree : FileTree := { entries := [(["w"], .directory), (["w", "d.cs"], .directory),
      (["w", "a.x.vb"], .file "Return".toUTF8), (["w", "b.cs"], .file "Next".toUTF8),
      (["w", "c.vb"], .file ⟨#[0xff, 0xfe]⟩), (["w", "d.vb"], .file "Return".toUTF8)] }
    let folder : FolderRun := ⟨"/w", "w/../w/", .basicToSharp, {}⟩
    tree.Named ∧ folder.Placed tree ["w"] ["w"] ∧
      listed tree ["w"] = ["a.x.vb", "b.cs", "c.vb", "d.vb"] ∧
      ((listed tree ["w"]).map folder.target).Nodup ∧
      (listed tree ["w"]).map (fun name => (folder.convertFile tree name).1.outcome.isConverted) =
        [true, true, false, false] ∧
      ∃ report final, folder.run tree = (.ok report, final) ∧
        ∀ order, order.Perm (listed tree ["w"]) →
          (folder.convertFiles tree order).1.Perm report.files ∧
            (folder.convertFiles tree order).2.Same final := by
  intro tree folder
  have named : tree.Named := by decide +kernel
  have placed : folder.Placed tree ["w"] ["w"] := by
    refine ⟨?_, ?_, ?_⟩ <;> decide +kernel
  have children : tree.entries.filterMap (FileTree.childName ["w"]) =
      ["a.x.vb", "b.cs", "c.vb", "d.vb"] := by decide +kernel
  have names : listed tree ["w"] = ["a.x.vb", "b.cs", "c.vb", "d.vb"] := by
    rw [listed, FileTree.fileNames, children, List.mergeSort_of_pairwise (by decide +kernel)]
    decide +kernel
  have distinct : ((listed tree ["w"]).map folder.target).Nodup := by
    rw [names]
    decide +kernel
  have outcomes : (listed tree ["w"]).map
      (fun name => (folder.convertFile tree name).1.outcome.isConverted) =
        [true, true, false, false] := by
    rw [names]
    decide +kernel
  obtain ⟨final, ran, -, orders, -⟩ :=
    folder_files_are_independent folder (by decide) named placed distinct
  refine ⟨named, placed, names, distinct, outcomes, _, final, ran, fun order complete => ?_⟩
  obtain ⟨results, same⟩ := orders order complete
  refine ⟨?_, same⟩
  rw [results]
  exact complete.map _

end FolderRun

end BasicToSharp
