import BasicToSharp.Proofs.Positions
import BasicToSharp.Proofs.SourceLayout
import Mathlib.Algebra.GroupWithZero.Nat

/-!
# Preparing a source by position

Where a line is prepared, its comment starts at a byte, and the text before that byte is kept: a
cut must not fall inside a character. A declaration of several names is split, and each name
looks for a type at its own position among the types that are stated and at the positions
behind. Here these things are done by position, with a failure for each that is out of range,
and give the prepared lines.

A second matter is which sources leave nothing. Nothing that can be seen is lost in preparing
but comments, and a comment never starts a line that is cut. So all prepared lines are empty
exactly when the source holds nothing but blanks.
-/

namespace BasicToSharp

open Token (quoteChar apostrophe)

namespace ByPosition

section Comments

/-- The number of bytes of a text. -/
def byteCount (chars : List Char) : Nat := (chars.map Char.utf8Size).sum

/-- The characters in the first bytes of a text, whose number must be one at which a character
ends. -/
def firstBytes : List Char → Nat → Reading (List Char)
  | _, 0 => .ok []
  | [], _ + 1 => .error .outOfRange
  | c :: rest, bytes + 1 =>
    if c.utf8Size ≤ bytes + 1 then do return c :: (← firstBytes rest (bytes + 1 - c.utf8Size))
    else .error .outOfRange

/-- The byte at which the comment of a line starts, the first character being at `offset`. -/
def commentStart (offset : Nat) (inside : Bool) : List Char → Option Nat
  | [] => none
  | c :: rest =>
    if c = quoteChar then commentStart (offset + c.utf8Size) (!inside) rest
    else if c = apostrophe ∧ inside = false ∧ 0 < offset then some offset
    else commentStart (offset + c.utf8Size) inside rest

/-- A line without its trailing comment. -/
def stripComment (line : String) : Reading String :=
  match commentStart 0 false line.toList with
  | none => .ok line
  | some start => do
    return String.ofList (Text.dropTrailingBlanks (← firstBytes line.toList start))

/-- A text can be cut where a part of it ends. -/
theorem firstBytes_append (kept after : List Char) :
    firstBytes (kept ++ after) (byteCount kept) = .ok kept := by
  induction kept with
  | nil => rw [byteCount, List.map_nil, List.sum_nil, firstBytes]
  | cons c rest inductionHypothesis =>
    have size := Char.utf8Size_pos c
    obtain ⟨bytes, count⟩ : ∃ bytes, byteCount (c :: rest) = bytes + 1 :=
      Nat.exists_eq_add_one.mpr (by simp only [byteCount, List.map_cons, List.sum_cons]; omega)
    have split : bytes + 1 = c.utf8Size + byteCount rest := count.symm
    have fits : c.utf8Size ≤ bytes + 1 := by omega
    rw [count, List.cons_append, firstBytes, if_pos fits, split, Nat.add_sub_cancel_left,
      inductionHypothesis]
    rfl

/-- Behind the first character, a comment starts where the recursion stops. -/
theorem commentStart_eq {offset : Nat} (positive : 0 < offset) (inside : Bool) (chars : List Char) :
    commentStart offset inside chars =
      (SourceLine.beforeComment inside chars).map fun kept => offset + byteCount kept := by
  induction chars generalizing offset inside with
  | nil => rfl
  | cons c rest inductionHypothesis =>
    have further : 0 < offset + c.utf8Size := by omega
    have counted : ∀ cut : Option (List Char),
        cut.map (fun kept => offset + c.utf8Size + byteCount kept) =
          (cut.map (c :: ·)).map fun kept => offset + byteCount kept := by
      intro cut
      rw [Option.map_map]
      congr 1
      funext kept
      rw [Function.comp, byteCount, byteCount, List.map_cons, List.sum_cons, Nat.add_assoc]
    by_cases stops : c = apostrophe ∧ inside = false
    · obtain ⟨rfl, rfl⟩ := stops
      have plain : ¬ apostrophe = quoteChar := by decide
      simp only [commentStart, SourceLine.beforeComment, if_neg plain, positive, and_self, if_true]
      rfl
    · rw [SourceLine.beforeComment_cons rest stops, ← counted, ← inductionHypothesis further]
      by_cases isQuote : c = quoteChar
      · rw [commentStart, if_pos isQuote, if_pos isQuote]
      · have goesOn : ¬ (c = apostrophe ∧ inside = false ∧ 0 < offset) :=
          fun starts => stops ⟨starts.1, starts.2.1⟩
        rw [commentStart, if_neg isQuote, if_neg goesOn, if_neg isQuote]

/-- A comment is cut off where it starts, within the line. -/
theorem stripComment_eq (line : String) :
    stripComment line = .ok (SourceLine.stripComment line) := by
  unfold stripComment SourceLine.stripComment
  cases chars : line.toList with
  | nil => rfl
  | cons first rest =>
    -- The first character starts no comment, so the search goes on behind it.
    have behind : commentStart 0 false (first :: rest) =
        commentStart (0 + first.utf8Size) (first == quoteChar) rest := by
      by_cases isQuote : first = quoteChar
      · rw [commentStart, if_pos isQuote, isQuote]
        rfl
      · have noStart : ¬ (first = apostrophe ∧ false = false ∧ 0 < 0) := by simp
        rw [commentStart, if_neg isQuote, if_neg noStart, beq_eq_false_iff_ne.mpr isQuote]
    have positive : 0 < 0 + first.utf8Size := by
      have size := Char.utf8Size_pos first
      omega
    rw [behind, commentStart_eq positive]
    have spec := SourceLine.beforeComment_spec (first == quoteChar) rest
    cases cut : SourceLine.beforeComment (first == quoteChar) rest with
    | none => simp only [cut, Option.map_none]
    | some kept =>
      rw [cut] at spec
      obtain ⟨-, after, split, -⟩ := spec
      have taken := firstBytes_append (first :: kept) (apostrophe :: after)
      rw [byteCount, List.map_cons, List.sum_cons, ← byteCount, List.cons_append, ← split] at taken
      simp only [cut, Option.map_some, Nat.zero_add, taken]
      rfl

end Comments

section Declarations

/-- The type that a declared name states for itself. -/
def typeClause (segment : String) : Reading (Option String) :=
  let tokens := Token.tokenize segment
  match Token.findKeyword tokens "as" with
  | none => .ok none
  | some start => do
    let behind ← part tokens (start + 1) tokens.length
    let clause := (behind.takeWhile (· != "=")).filter (!Token.isKeyword · "new")
    return if clause.isEmpty then none else some (" ".intercalate clause)

/-- The declaration of the name at a position, with its own type or with the first one stated at
a later position. -/
def shareAt (keyword : String) (clauses : List (Option String)) (index : Nat) (segment : String) :
    Reading String := do
  let clause ← entry clauses index
  let shared ←
    if clause.isNone && !SourceLine.hasInitializer segment then do
      let later ← part clauses (index + 1) clauses.length
      pure (later.findSome? id)
    else pure none
  let ending := match shared with
    | some type => " As " ++ type
    | none => ""
  return keyword ++ " " ++ segment ++ ending

/-- The declarations of names, the first of which is at position `index`. -/
def shareFrom (keyword : String) (clauses : List (Option String)) (index : Nat) :
    List String → Reading (List String)
  | [] => .ok []
  | segment :: rest => do
    let line ← shareAt keyword clauses index segment
    return line :: (← shareFrom keyword clauses (index + 1) rest)

/-- A declaration of several names as one line per name. -/
def splitDeclaration (line : String) : Reading (List String) :=
  match Text.cutAtBlank line.toList with
  | none => .ok [line]
  | some (keyword, rest) => do
    let pieces := SourceLine.segments rest
    if pieces.length < 2 then return [line]
    else shareFrom (String.ofList keyword) (← pieces.mapM typeClause) 0 pieces

/-- The prepared texts of one source line. -/
def prepareLine (split : Bool) (line : String) : Reading (List String) := do
  let text ← stripComment (Text.trim line)
  if split && SourceLine.startsWithDim text then splitDeclaration text else return [text]

/-- Prepare lines that are numbered from `number` on. -/
def prepareFrom (split : Bool) (number : Nat) : List String → Reading (List SourceLine)
  | [] => .ok []
  | line :: rest => do
    let texts ← prepareLine split line
    return texts.map (fun text => ⟨number, text⟩) ++ (← prepareFrom split (number + 1) rest)

/-- The prepared lines of a source. -/
def prepare (source : String) (split : Bool) : Reading (List SourceLine) :=
  prepareFrom split 1 (Text.lines source)

/-- A type clause is sliced from within its segment. -/
theorem typeClause_eq (segment : String) :
    typeClause segment = .ok (SourceLine.typeClause segment) := by
  unfold typeClause SourceLine.typeClause
  generalize Token.tokenize segment = tokens
  cases found : Token.findKeyword tokens "as" with
  | none => simp only [found]
  | some start =>
    have within : start < tokens.length := (Token.findUnquoted_some found).1
    have inside : start + 1 ≤ tokens.length ∧ tokens.length ≤ tokens.length :=
      ⟨within, Nat.le_refl _⟩
    simp only [found, part, if_pos inside, List.take_length, Reading.ok_bind, Reading.pure_eq_ok]

/-- Behind the walk are the types of earlier names, before it those of the names that are left. -/
theorem shareFrom_walks (keyword : String) (rest : List (String × Option String))
    (done : List (Option String)) :
    shareFrom keyword (done ++ rest.map Prod.snd) done.length (rest.map Prod.fst) =
      .ok (SourceLine.shareTypes keyword rest) := by
  induction rest generalizing done with
  | nil => rfl
  | cons piece later inductionHypothesis =>
    obtain ⟨segment, clause⟩ := piece
    have here := entry_append done clause (later.map Prod.snd)
    have behind : part (done ++ clause :: later.map Prod.snd) (done.length + 1)
        (done ++ clause :: later.map Prod.snd).length = .ok (later.map Prod.snd) := by
      have whole := part_to_end (done ++ [clause]) (later.map Prod.snd)
      simpa using whole
    have onward : shareFrom keyword (done ++ clause :: later.map Prod.snd) (done.length + 1)
        (later.map Prod.fst) = .ok (SourceLine.shareTypes keyword later) := by
      simpa using inductionHypothesis (done ++ [clause])
    have types : (later.map Prod.snd).findSome? id = later.findSome? Prod.snd := by
      rw [List.findSome?_map]
      rfl
    simp only [List.map_cons, shareFrom, shareAt, here, Reading.ok_bind, SourceLine.shareTypes,
      onward, behind, types, Reading.pure_eq_ok]
    split <;> rfl

/-- A list is read where each of its members is. -/
theorem mapM_ok {α β : Type} {read : α → Reading β} {value : α → β}
    (each : ∀ entry, read entry = .ok (value entry)) (entries : List α) :
    entries.mapM read = .ok (entries.map value) := by
  induction entries with
  | nil => rfl
  | cons entry rest inductionHypothesis =>
    rw [List.mapM_cons, each, Reading.ok_bind, inductionHypothesis, Reading.ok_bind]
    rfl

/-- A declaration is divided within its line. -/
theorem splitDeclaration_eq (line : String) :
    splitDeclaration line = .ok (SourceLine.splitDeclaration line) := by
  unfold splitDeclaration SourceLine.splitDeclaration
  cases Text.cutAtBlank line.toList with
  | none => rfl
  | some parts =>
    obtain ⟨keyword, rest⟩ := parts
    simp only
    generalize SourceLine.segments rest = pieces
    split
    · rfl
    · have walked := shareFrom_walks (String.ofList keyword)
        (pieces.map fun piece => (piece, SourceLine.typeClause piece)) []
      rw [mapM_ok typeClause_eq, Reading.ok_bind]
      simpa [List.map_map, Function.comp_def] using walked

/-- A line is prepared without leaving it. -/
theorem prepareLine_eq (split : Bool) (line : String) :
    prepareLine split line = .ok (SourceLine.prepareLine split line) := by
  simp only [prepareLine, SourceLine.prepareLine, stripComment_eq, Reading.ok_bind,
    splitDeclaration_eq]
  split <;> rfl

/-- Lines are prepared without leaving them. -/
theorem prepareFrom_eq (split : Bool) (number : Nat) (lines : List String) :
    prepareFrom split number lines = .ok (SourceLine.prepareFrom split number lines) := by
  induction lines generalizing number with
  | nil => rfl
  | cons line rest inductionHypothesis =>
    simp only [prepareFrom, SourceLine.prepareFrom, prepareLine_eq, Reading.ok_bind,
      inductionHypothesis, Reading.pure_eq_ok]

/-- A source is prepared without leaving its lines. -/
theorem prepare_eq (source : String) (split : Bool) :
    prepare source split = .ok (SourceLine.prepare source split) := prepareFrom_eq _ _ _

end Declarations

end ByPosition

section Blanks

open Text (isBlank)

variable {chars : List Char}

/-- Nothing is left of a text exactly if it is blank. -/
theorem trim_eq_empty_iff (text : String) :
    Text.trim text = "" ↔ ∀ c ∈ text.toList, isBlank c = true := by
  have nothing : Text.trim text = "" ↔ ∀ c ∈ text.toList.dropWhile isBlank, isBlank c = true := by
    rw [Text.trim, String.ofList_eq_empty_iff, Text.trimBlanks, Text.dropTrailingBlanks,
      List.reverse_eq_nil_iff, List.dropWhile_eq_nil_iff]
    simp only [List.mem_reverse]
  rw [nothing]
  constructor
  · intro behind c member
    rw [← List.takeWhile_append_dropWhile (p := isBlank) (l := text.toList)] at member
    rcases List.mem_append.mp member with first | later
    · exact List.mem_takeWhile_imp first
    · exact behind c later
  · intro all c member
    exact all c (List.dropWhile_subset isBlank member)

/-- Cutting the comment off a line leaves nothing only where there was nothing. -/
theorem stripComment_eq_empty_iff {line : String} (visible : Text.StartsVisible line.toList) :
    SourceLine.stripComment line = "" ↔ line = "" := by
  rcases SourceLine.stripComment_cases line with same | ⟨first, kept, after, chars, stripped⟩
  · rw [same]
  · have seen : isBlank first = false := visible first (by rw [chars]; rfl)
    rw [dropTrailingBlanks_cons kept seen] at stripped
    constructor
    · intro empty
      rw [empty] at stripped
      cases stripped
    · intro empty
      rw [empty] at chars
      cases chars

/-- A divided declaration is at least one line. -/
theorem splitDeclaration_ne_nil (line : String) : SourceLine.splitDeclaration line ≠ [] := by
  unfold SourceLine.splitDeclaration
  cases Text.cutAtBlank line.toList with
  | none => exact List.cons_ne_nil _ _
  | some parts =>
    simp only
    split
    · exact List.cons_ne_nil _ _
    · next several =>
      cases pieces : SourceLine.segments parts.2 with
      | nil =>
        rw [pieces] at several
        exact absurd Nat.zero_lt_two several
      | cons piece rest => exact List.cons_ne_nil _ _

/-- Each line that a declaration is split into holds its keyword. -/
theorem splitDeclaration_ne_empty {text line : String} (visible : Text.StartsVisible text.toList)
    (isDim : SourceLine.startsWithDim text = true)
    (member : line ∈ SourceLine.splitDeclaration text) : line ≠ "" := by
  obtain ⟨-, c, others, word, -⟩ := SourceLine.startsWithDim_chars visible isDim
  intro empty
  rcases SourceLine.mem_splitDeclaration member with same | ⟨rest, starts⟩
  · rw [← same, empty] at word
    cases word
  · rw [empty, word] at starts
    have chars : [] = c :: (others ++ rest.toList) := by
      simpa using congrArg String.toList starts
    cases chars

/-- A line is prepared as empty lines exactly if it is blank. -/
theorem prepareLine_empty_iff (split : Bool) (line : String) :
    (∀ text ∈ SourceLine.prepareLine split line, text = "") ↔
      ∀ c ∈ line.toList, isBlank c = true := by
  have trimmed := Text.trimmed_trim line
  have visible := (SourceLine.trimmed_stripComment trimmed).1
  rw [← trim_eq_empty_iff, ← stripComment_eq_empty_iff trimmed.1]
  unfold SourceLine.prepareLine
  simp only
  generalize SourceLine.stripComment (Text.trim line) = text at visible
  split
  · next declares =>
    have isDim := (Bool.and_eq_true_iff.mp declares).2
    obtain ⟨first, member⟩ := List.exists_mem_of_ne_nil _ (splitDeclaration_ne_nil text)
    constructor
    · intro none
      exact absurd (none first member) (splitDeclaration_ne_empty visible isDim member)
    · intro empty
      rw [empty] at isDim
      exact absurd isDim (by decide +kernel)
  · exact List.forall_mem_singleton

/-- A carriage return that is dropped is a blank. -/
theorem dropReturn_blank_iff :
    (∀ c ∈ Text.dropReturn chars, isBlank c = true) ↔ ∀ c ∈ chars, isBlank c = true := by
  unfold Text.dropReturn
  split
  · next last =>
    have whole := List.dropLast_append_getLast? '\r' last
    constructor
    · intro before c member
      rw [← whole] at member
      rcases List.mem_append.mp member with first | isLast
      · exact before c first
      · rw [List.mem_singleton.mp isLast]
        decide
    · intro all c member
      exact all c (List.dropLast_subset _ member)
  · rfl

/-- The lines of a text hold all its characters but blanks. -/
theorem splitLines_blank_iff (current : List Char) :
    (∀ line ∈ Text.splitLines current chars, ∀ c ∈ line, isBlank c = true) ↔
      (∀ c ∈ current, isBlank c = true) ∧ ∀ c ∈ chars, isBlank c = true := by
  induction chars generalizing current with
  | nil =>
    rw [Text.splitLines]
    cases current with
    | nil => simp
    | cons c rest =>
      rw [if_neg (by simp), List.forall_mem_singleton]
      simp only [List.mem_reverse, List.not_mem_nil, false_implies, implies_true, and_true]
  | cons c rest inductionHypothesis =>
    rw [Text.splitLines]
    by_cases ends : c = '\n'
    · have feed : isBlank c = true := by
        rw [ends]
        decide
      rw [if_pos ends, List.forall_mem_cons, dropReturn_blank_iff, inductionHypothesis,
        List.forall_mem_cons]
      simp [feed]
    · rw [if_neg ends, inductionHypothesis, List.forall_mem_cons, List.forall_mem_cons]
      constructor
      · rintro ⟨⟨here, before⟩, later⟩
        exact ⟨before, here, later⟩
      · rintro ⟨before, here, later⟩
        exact ⟨⟨here, before⟩, later⟩

/-- Lines are prepared as empty lines exactly if all are blank. -/
theorem prepareFrom_empty_iff (split : Bool) (number : Nat) (lines : List String) :
    (∀ line ∈ SourceLine.prepareFrom split number lines, line.text = "") ↔
      ∀ line ∈ lines, ∀ c ∈ line.toList, isBlank c = true := by
  induction lines generalizing number with
  | nil => simp [SourceLine.prepareFrom]
  | cons line rest inductionHypothesis =>
    rw [SourceLine.prepareFrom, List.forall_mem_append, inductionHypothesis, List.forall_mem_map,
      prepareLine_empty_iff, List.forall_mem_cons]

/-- Preparing leaves nothing of a source exactly when it holds nothing but blanks. -/
theorem prepare_empty_iff (source : String) (split : Bool) :
    (SourceLine.prepare source split).all (·.text.isEmpty) = true ↔
      ∀ c ∈ source.toList, isBlank c = true := by
  have lines : (∀ line ∈ Text.splitLines [] source.toList, ∀ c ∈ line, isBlank c = true) ↔
      ∀ c ∈ source.toList, isBlank c = true := by
    rw [splitLines_blank_iff]
    simp only [List.not_mem_nil, false_implies, implies_true, true_and]
  rw [← lines, List.all_eq_true]
  simp only [String.isEmpty_iff]
  rw [SourceLine.prepare, prepareFrom_empty_iff, Text.lines, List.forall_mem_map]
  simp only [String.toList_ofList]

end Blanks

end BasicToSharp
