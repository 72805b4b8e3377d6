import BasicToSharp.Proofs.BraceDepth
import BasicToSharp.Proofs.FirstToken
import Mathlib.Data.List.Chain

/-!
# Indented lines

Laying lines out does two things in one walk: it tidies the blank lines, and it puts the
others at the level that the braces before them give. Here the two are taken apart. Tidying
keeps the lines that are not blank and their order, and changes nothing a second time;
placing a line puts blanks before it and nothing else, so that taking the blanks away at the
left gives the line back.

Hence, when no line has blanks of its own at either end, the lines laid out can be read
again: their levels follow from what stands before them, and laying them out once more gives
the same lines.
-/

namespace BasicToSharp

open Text (isBlank StartsVisible EndsVisible Trimmed)

/-- A text without the blanks at its start. -/
def Text.trimLeft (text : String) : String := String.ofList (text.toList.dropWhile isBlank)

namespace Layout

/-- The level at which a line stands: a closing brace stands one level further out than what
is before it. -/
def lineLevel (level : Nat) (line : String) : Nat :=
  if startsWith line '\x7d' then level - 1 else level

/-- The level behind a line: an opening brace goes one level further in. -/
def levelAfter (level : Nat) (line : String) : Nat :=
  if startsWith line '\x7b' then lineLevel level line + 1 else lineLevel level line

/-- The level behind several lines, whatever blanks they start with. -/
def levelBehind (lines : List String) : Nat :=
  lines.foldl (fun level line => levelAfter level (Text.trimLeft line)) 0

/-- Lines that are laid out with a unit of indentation. -/
structure LaidOut (unit : String) (lines : List String) : Prop where
  /-- Behind its indentation, a line that is not blank has no blank at either end. -/
  trimmed : ∀ line ∈ lines, Trimmed (Text.trimLeft line).toList
  /-- The indentation is given by the lines before. -/
  placed : ∀ before line after, lines = before ++ line :: after → line ≠ "" →
    line = indentation unit (lineLevel (levelBehind before) (Text.trimLeft line)) ++
      Text.trimLeft line
  /-- A line of blanks is empty. -/
  blank : ∀ line ∈ lines, line.toList.all isBlank = true → line = ""
  /-- No two blank lines stand together, and none at either end. -/
  apart : lines.IsChain fun one next => one ≠ "" ∨ next ≠ ""
  first : lines.head? ≠ some ""
  last : lines.getLast? ≠ some ""

section Tidying

/-- Lines with every run of blank ones as a single one, and none at the end; `gap` says that
blank lines were before them. -/
def tidyFrom (gap : Bool) : List String → List String
  | [] => []
  | line :: rest =>
    if line = "" then tidyFrom true rest
    else if gap then "" :: line :: tidyFrom false rest
    else line :: tidyFrom false rest

variable (lines : List String) (gap : Bool)

/-- Tidying keeps all lines that are not empty, in order. -/
theorem filter_tidyFrom : (tidyFrom gap lines).filter (· ≠ "") = lines.filter (· ≠ "") := by
  induction lines generalizing gap with
  | nil => rfl
  | cons line rest inductionHypothesis =>
    by_cases empty : line = ""
    · rw [tidyFrom, if_pos empty, inductionHypothesis, empty]
      rfl
    · have kept : ∀ rest : List String,
          (line :: rest).filter (· ≠ "") = line :: rest.filter (· ≠ "") :=
        fun rest => List.filter_cons_of_pos (by simpa using empty)
      rw [tidyFrom, if_neg empty, kept, ← inductionHypothesis false, ← kept]
      split <;> rfl

/-- A line that is not empty was there before tidying. -/
theorem mem_of_mem_tidyFrom {line : String} (member : line ∈ tidyFrom gap lines)
    (filled : line ≠ "") : line ∈ lines := by
  have kept : line ∈ (tidyFrom gap lines).filter (· ≠ "") := by simp [member, filled]
  rw [filter_tidyFrom] at kept
  exact List.mem_of_mem_filter kept

/-- No two empty lines are left one behind the other. -/
theorem isChain_tidyFrom : (tidyFrom gap lines).IsChain fun one next => one ≠ "" ∨ next ≠ "" := by
  induction lines generalizing gap with
  | nil => exact .nil
  | cons line rest inductionHypothesis =>
    unfold tidyFrom
    split
    · exact inductionHypothesis true
    · next filled =>
      -- Behind a line that is not blank anything may follow.
      have behind := List.isChain_cons.mpr
        ⟨fun next _ => .inl filled, inductionHypothesis false⟩
      split
      · exact List.isChain_cons_cons.mpr ⟨.inr filled, behind⟩
      · exact behind

/-- No empty line is left at the end. -/
theorem getLast?_tidyFrom : (tidyFrom gap lines).getLast? ≠ some "" := by
  induction lines generalizing gap with
  | nil => nofun
  | cons line rest inductionHypothesis =>
    unfold tidyFrom
    split
    · exact inductionHypothesis true
    · next filled =>
      have behind : (line :: tidyFrom false rest).getLast? ≠ some "" := by
        rw [List.getLast?_cons]
        cases ending : (tidyFrom false rest).getLast? with
        | none => simpa using filled
        | some final => simpa [ending] using inductionHypothesis false
      split
      · rwa [List.getLast?_cons_cons]
      · exact behind

/-- Tidy lines stay as they are. -/
theorem tidyFrom_tidyFrom : tidyFrom false (tidyFrom gap lines) = tidyFrom gap lines := by
  induction lines generalizing gap with
  | nil => rfl
  | cons line rest inductionHypothesis =>
    by_cases empty : line = ""
    · rw [tidyFrom, if_pos empty, inductionHypothesis]
    · cases gap <;> simp [tidyFrom, empty, inductionHypothesis]

/-- Lines with no blank line in front are tidied to such lines. -/
theorem head?_tidyFrom :
    (tidyFrom false (lines.dropWhile String.isEmpty)).head? ≠ some "" := by
  cases behind : lines.dropWhile String.isEmpty with
  | nil => nofun
  | cons line rest =>
    have filled : line ≠ "" := by
      have stops := List.head?_dropWhile_not String.isEmpty lines
      rw [behind, List.head?_cons] at stops
      simpa using stops
    simp [tidyFrom, filled]

end Tidying

section Placing

variable {unit : String} {level : Nat}

/-- A line at a level, with its indentation unless it is blank. -/
def placeLine (unit : String) (level : Nat) (line : String) : String :=
  if line = "" then "" else indentation unit (lineLevel level line) ++ line

/-- Lines with their indentation, from a level on. -/
def place (unit : String) (level : Nat) : List String → List String
  | [] => []
  | line :: rest => placeLine unit level line :: place unit (levelAfter level line) rest

/-- Laying lines out is tidying and placing them. -/
theorem indentFrom_eq_place (unit : String) (level : Nat) (gap : Bool) (lines : List String) :
    indentFrom unit level gap lines = place unit level (tidyFrom gap lines) := by
  induction lines generalizing level gap with
  | nil => rfl
  | cons line rest inductionHypothesis =>
    by_cases empty : line = ""
    · rw [tidyFrom, if_pos empty, ← inductionHypothesis, empty]
      rfl
    · have here : indentFrom unit level false (line :: rest) =
          place unit level (line :: tidyFrom false rest) := by
        rw [indentFrom, if_neg (by simpa using empty), place, placeLine, if_neg empty]
        simp only [Bool.false_eq_true, if_false, inductionHypothesis]
        rfl
      rw [tidyFrom, if_neg empty]
      cases gap with
      | false => exact here
      | true =>
        have behind : indentFrom unit level true (line :: rest) =
            "" :: indentFrom unit level false (line :: rest) := by
          simp [indentFrom, empty]
        rw [behind, here]
        rfl

/-- A line that starts visibly is what is left when blanks before it are trimmed. -/
theorem trimLeft_append {blanks line : String} (blank : blanks.toList.all isBlank = true)
    (visible : StartsVisible line.toList) : Text.trimLeft (blanks ++ line) = line := by
  rw [Text.trimLeft, String.toList_append, List.dropWhile_append_of_pos (List.all_eq_true.mp blank)]
  cases chars : line.toList with
  | nil => simpa using (String.toList_eq_nil_iff.mp chars).symm
  | cons c rest =>
    rw [List.dropWhile_cons_of_neg (by simp [visible c (by rw [chars]; rfl)]), ← chars,
      String.ofList_toList]

/-- A line is found again behind its indentation. -/
theorem trimLeft_placeLine (blank : unit.toList.all isBlank = true) {line : String}
    (visible : StartsVisible line.toList) : Text.trimLeft (placeLine unit level line) = line := by
  unfold placeLine
  split
  · next empty => exact empty.symm
  · exact trimLeft_append (all_indentation blank _) visible

/-- Trimming the indentation of placed lines gives the lines back. -/
theorem map_trimLeft_place (blank : unit.toList.all isBlank = true) {lines : List String}
    (visible : ∀ line ∈ lines, StartsVisible line.toList) :
    (place unit level lines).map Text.trimLeft = lines := by
  induction lines generalizing level with
  | nil => rfl
  | cons line rest inductionHypothesis =>
    obtain ⟨here, later⟩ := List.forall_mem_cons.mp visible
    rw [place, List.map_cons, trimLeft_placeLine blank here, inductionHypothesis later]

/-- Where a line is placed follows from the lines placed before it. -/
theorem place_eq_append (blank : unit.toList.all isBlank = true) {lines : List String}
    (visible : ∀ line ∈ lines, StartsVisible line.toList) {before after : List String}
    {line : String} (parts : place unit level lines = before ++ line :: after) :
    line = placeLine unit
      (before.foldl (fun level line => levelAfter level (Text.trimLeft line)) level)
      (Text.trimLeft line) := by
  -- The level behind the first line is the one from which the rest is placed.
  induction lines generalizing level before with
  | nil => cases before <;> cases parts
  | cons first rest inductionHypothesis =>
    obtain ⟨here, later⟩ := List.forall_mem_cons.mp visible
    cases before with
    | nil =>
      obtain ⟨rfl, -⟩ := List.cons.inj parts
      rw [trimLeft_placeLine blank here]
      rfl
    | cons placed before =>
      obtain ⟨rfl, behind⟩ := List.cons.inj parts
      rw [List.foldl_cons, trimLeft_placeLine blank here]
      exact inductionHypothesis later behind

end Placing

section Laid

variable {unit : String} {lines : List String}

/-- The lines that are laid out, before they are placed. -/
def tidy (lines : List String) : List String := tidyFrom false (lines.dropWhile String.isEmpty)

/-- Lines are indented by tidying them and placing them from the margin on. -/
theorem indent_eq_place (lines : List String) (unit : String) :
    indent lines unit = place unit 0 (tidy lines) :=
  indentFrom_eq_place unit 0 false _

/-- Tidying keeps all lines that are not empty, in order. -/
theorem filter_tidy (lines : List String) :
    (tidy lines).filter (· ≠ "") = lines.filter (· ≠ "") := by
  rw [tidy, filter_tidyFrom]
  induction lines with
  | nil => rfl
  | cons line rest inductionHypothesis =>
    by_cases empty : line = ""
    · simpa [empty] using inductionHypothesis
    · simp [empty]

/-- Tidy lines stay as they are. -/
theorem tidy_tidy (lines : List String) : tidy (tidy lines) = tidy lines := by
  have kept : (tidy lines).dropWhile String.isEmpty = tidy lines := by
    have filled := head?_tidyFrom lines
    rw [tidy]
    cases behind : tidyFrom false (lines.dropWhile String.isEmpty) with
    | nil => rfl
    | cons line rest =>
      rw [behind, List.head?_cons] at filled
      rw [List.dropWhile_cons_of_neg (by simpa using filled)]
  rw [tidy, kept]
  exact tidyFrom_tidyFrom _ false

/-- Tidying keeps lines trimmed. -/
theorem trimmed_tidy (trimmed : ∀ line ∈ lines, Trimmed line.toList) :
    ∀ line ∈ tidy lines, Trimmed line.toList := by
  intro line member
  by_cases empty : line = ""
  · subst empty
    exact ⟨nofun, rfl⟩
  · exact trimmed line ((List.dropWhile_sublist _).subset (mem_of_mem_tidyFrom _ _ member empty))

variable (blank : unit.toList.all isBlank = true)
  (trimmed : ∀ line ∈ lines, Trimmed line.toList)
include blank trimmed

/-- Trimming the indentation of indented lines gives the tidy lines. -/
theorem map_trimLeft_indent : (indent lines unit).map Text.trimLeft = tidy lines := by
  rw [indent_eq_place]
  exact map_trimLeft_place blank fun line member => (trimmed_tidy trimmed line member).1

/-- Laying out what was laid out, without its indentation, gives it back. -/
theorem indent_map_trimLeft : indent ((indent lines unit).map Text.trimLeft) unit =
    indent lines unit := by
  rw [map_trimLeft_indent blank trimmed, indent_eq_place, indent_eq_place, tidy_tidy]

/-- An indented line stands at the level that the lines before it lead to. -/
theorem indent_eq_append {before after : List String} {line : String}
    (parts : indent lines unit = before ++ line :: after) :
    line = placeLine unit (levelBehind before) (Text.trimLeft line) := by
  rw [indent_eq_place] at parts
  exact place_eq_append blank (fun line member => (trimmed_tidy trimmed line member).1) parts

/-- Only an empty line is empty without its indentation. -/
theorem trimLeft_eq_empty {line : String} (member : line ∈ indent lines unit) :
    Text.trimLeft line = "" ↔ line = "" := by
  obtain ⟨before, after, parts⟩ := List.append_of_mem member
  constructor
  · intro empty
    have placed := indent_eq_append blank trimmed parts
    rw [empty] at placed
    exact placed
  · rintro rfl
    rfl

/-- The lines that are not blank are those given, each behind its indentation. -/
theorem map_trimLeft_filter_indent :
    ((indent lines unit).filter (· ≠ "")).map Text.trimLeft = lines.filter (· ≠ "") := by
  have same : ∀ line ∈ indent lines unit,
      decide (line ≠ "") = decide (Text.trimLeft line ≠ "") := by
    intro line member
    simp only [ne_eq, trimLeft_eq_empty blank trimmed member]
  rw [List.filter_congr same, ← filter_tidy, ← map_trimLeft_indent blank trimmed, List.filter_map]
  rfl

/-- Indented lines are laid out. -/
theorem laidOut_indent : LaidOut unit (indent lines unit) where
  trimmed line member := by
    apply trimmed_tidy trimmed
    rw [← map_trimLeft_indent blank trimmed]
    exact List.mem_map_of_mem member
  placed before line after parts filled := by
    have member : line ∈ indent lines unit := by simp [parts]
    have visible : Text.trimLeft line ≠ "" :=
      fun empty => filled ((trimLeft_eq_empty blank trimmed member).mp empty)
    have placed := indent_eq_append blank trimmed parts
    rwa [placeLine, if_neg visible] at placed
  blank line member allBlank := by
    apply (trimLeft_eq_empty blank trimmed member).mp
    rw [Text.trimLeft, List.dropWhile_eq_nil_iff.mpr (List.all_eq_true.mp allBlank),
      String.ofList_nil]
  apart := by
    have tidied := isChain_tidyFrom (lines.dropWhile String.isEmpty) false
    rw [← tidy, ← map_trimLeft_indent blank trimmed, List.isChain_map] at tidied
    have filled : ∀ line : String, Text.trimLeft line ≠ "" → line ≠ "" := by
      rintro line visible rfl
      exact visible rfl
    exact tidied.imp fun one next => .imp (filled one) (filled next)
  first start := by
    apply head?_tidyFrom lines
    rw [← tidy, ← map_trimLeft_indent blank trimmed, List.head?_map, start]
    rfl
  last ending := by
    apply getLast?_tidyFrom (lines.dropWhile String.isEmpty) false
    rw [← tidy, ← map_trimLeft_indent blank trimmed, List.getLast?_map, ending]
    rfl

end Laid

/-- Moving `static` leaves no blank at either end of a line. -/
theorem trimmed_reorderLine {line : String} (trimmed : Trimmed line.toList) :
    Trimmed (reorderLine line).toList := by
  have words : ∀ word ∈ Vocabulary.visibilities,
      StartsVisible word.toList ∧ word.toList ≠ [] := by decide
  have done := reordered_reorderLine line
  generalize reorderLine line = reordered at done ⊢
  cases done with
  | unchanged => exact trimmed
  | @exchanged second rest _ before visibility after =>
    obtain ⟨visible, filled⟩ := words _ (List.contains_iff_mem.mp visibility)
    -- The rest ends as the line does; without a rest, `static` comes last.
    have endsRest : EndsVisible rest.toList := by
      have ends := (Text.trimmed_iff.mp trimmed).2
      rw [before.text, String.toList_append] at ends
      exact ends.of_append
    have endsStatic : EndsVisible ("static".toList ++ rest.toList) :=
      EndsVisible.append (by decide) endsRest
    rw [after.text, String.append_assoc, String.append_assoc, String.toList_append,
      Text.trimmed_iff]
    refine ⟨visible.append filled _, EndsVisible.append_of_ne_nil ?_ (by simp) _⟩
    rw [String.toList_append, String.toList_append]
    exact endsStatic.append_of_ne_nil (by simp) _

end Layout

end BasicToSharp
