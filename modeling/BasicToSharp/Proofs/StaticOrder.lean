import BasicToSharp.Proofs.Indentation

/-!
# Reordered lines are laid out alike

The level of a line follows from the braces at the start of the lines before it and of the line
itself, and the blank lines of a layout follow from which lines are blank. Hence a change made
line by line that takes no brace to the start of a line or away from it, and makes no line blank
or filled, leaves every line at its level, with the same blank lines between them.

Moving `static` is such a change, for any unit of indentation: a line that it touches starts
with a word before and after.
-/

namespace BasicToSharp.Layout

section Levels

/-- The level of each line, from a level on; a blank line has none. -/
def levelsFrom (level : Nat) : List String → List (Option Nat)
  | [] => []
  | line :: rest =>
    (if line = "" then none else some (lineLevel level line)) ::
      levelsFrom (levelAfter level line) rest

/-- The level of each line of a layout. -/
def levels (lines : List String) : List (Option Nat) := levelsFrom 0 (tidy lines)

/-- A line as it is written at a level; without a level it is blank. -/
def lineAt (unit : String) : Option Nat → String → String
  | none, _ => ""
  | some level, line => indentation unit level ++ line

variable (unit : String) (level : Nat) (lines : List String)

/-- Placing lines is writing each at its level, and the levels do not depend on the unit. -/
theorem place_eq_zipWith :
    place unit level lines = List.zipWith (lineAt unit) (levelsFrom level lines) lines := by
  induction lines generalizing level with
  | nil => rfl
  | cons line rest inductionHypothesis =>
    rw [place, levelsFrom, List.zipWith_cons_cons, ← inductionHypothesis, placeLine]
    split <;> rfl

/-- The lines without a level are the empty ones. -/
theorem map_isEmpty_place :
    (place unit level lines).map String.isEmpty = (levelsFrom level lines).map Option.isNone := by
  induction lines generalizing level with
  | nil => rfl
  | cons line rest inductionHypothesis =>
    rw [place, levelsFrom, List.map_cons, List.map_cons, inductionHypothesis, placeLine]
    congr 1
    split
    · rfl
    · next filled => simp [filled]

/-- Tidy lines are written at their levels, one by one. -/
theorem indent_eq_zipWith :
    indent lines unit = List.zipWith (lineAt unit) (levels lines) (tidy lines) := by
  rw [indent_eq_place, place_eq_zipWith, levels]

/-- The blank lines of a layout are those without a level. -/
theorem map_isEmpty_indent :
    (indent lines unit).map String.isEmpty = (levels lines).map Option.isNone := by
  rw [indent_eq_place, map_isEmpty_place, levels]

end Levels

/-- A change of lines that makes none blank or filled and keeps the braces at their starts. -/
structure KeepsOutline (change : String → String) : Prop where
  blank : ∀ line, change line = "" ↔ line = ""
  opens : ∀ line, startsWith (change line) '\x7b' = startsWith line '\x7b'
  closes : ∀ line, startsWith (change line) '\x7d' = startsWith line '\x7d'

namespace KeepsOutline

variable {change : String → String} (keeps : KeepsOutline change)
include keeps

/-- A change that empties and fills no line can be made before or after tidying. -/
theorem tidyFrom_map (gap : Bool) (lines : List String) :
    tidyFrom gap (lines.map change) = (tidyFrom gap lines).map change := by
  have empty : change "" = "" := (keeps.blank "").mpr rfl
  induction lines generalizing gap with
  | nil => rfl
  | cons line rest inductionHypothesis =>
    simp only [List.map_cons, tidyFrom, keeps.blank, inductionHypothesis]
    split
    · rfl
    · cases gap <;> simp [empty]

/-- The same for tidying from the start. -/
theorem tidy_map (lines : List String) : tidy (lines.map change) = (tidy lines).map change := by
  have same : String.isEmpty ∘ change = String.isEmpty := by
    funext line
    exact Bool.eq_iff_iff.mpr (by simp [keeps.blank])
  rw [tidy, tidy, List.dropWhile_map, same, keeps.tidyFrom_map]

/-- A change that keeps the braces at the ends of lines keeps their levels. -/
theorem levelsFrom_map (level : Nat) (lines : List String) :
    levelsFrom level (lines.map change) = levelsFrom level lines := by
  have here : ∀ level line, lineLevel level (change line) = lineLevel level line := by
    intro level line
    rw [lineLevel, lineLevel, keeps.closes]
  induction lines generalizing level with
  | nil => rfl
  | cons line rest inductionHypothesis =>
    have behind : levelAfter level (change line) = levelAfter level line := by
      rw [levelAfter, levelAfter, keeps.opens, here]
    simp only [List.map_cons, levelsFrom, keeps.blank, here, behind, inductionHypothesis]

/-- The same for the levels from the margin on. -/
theorem levels_map (lines : List String) : levels (lines.map change) = levels lines := by
  rw [levels, levels, keeps.tidy_map, keeps.levelsFrom_map]

end KeepsOutline

/-- A line whose first word is there starts as that word does. -/
theorem LeadingWords.startsWith_eq {line first second rest : String}
    (words : LeadingWords line first second rest) (filled : first ≠ "") (c : Char) :
    startsWith line c = startsWith first c := by
  have chars : first.toList ≠ [] := fun none => filled (String.toList_eq_nil_iff.mp none)
  rw [words.text, String.append_assoc, String.append_assoc, startsWith, String.toList_append,
    List.head?_append_of_ne_nil _ chars, startsWith]

/-- Moving `static` keeps the outline, since neither `static` nor a visibility word is empty or
starts with a brace. -/
theorem keepsOutline_reorderLine : KeepsOutline reorderLine := by
  have visibilities : ∀ word ∈ Vocabulary.visibilities,
      word ≠ "" ∧ startsWith word '\x7b' = false ∧ startsWith word '\x7d' = false := by decide
  -- Each of the three is read off the two words that change places.
  suffices kept : ∀ {line reordered : String}, Reordered line reordered →
      (reordered = "" ↔ line = "") ∧ startsWith reordered '\x7b' = startsWith line '\x7b' ∧
        startsWith reordered '\x7d' = startsWith line '\x7d' from
    ⟨fun line => (kept (reordered_reorderLine line)).1,
      fun line => (kept (reordered_reorderLine line)).2.1,
      fun line => (kept (reordered_reorderLine line)).2.2⟩
  intro line reordered done
  cases done with
  | unchanged => exact ⟨.rfl, rfl, rfl⟩
  | exchanged before visibility after =>
    obtain ⟨filled, opens, closes⟩ := visibilities _ (List.contains_iff_mem.mp visibility)
    refine ⟨?_, ?_, ?_⟩
    · simp [before.text, after.text]
    · rw [before.startsWith_eq (by decide), after.startsWith_eq filled, opens]
      rfl
    · rw [before.startsWith_eq (by decide), after.startsWith_eq filled, closes]
      rfl

/-- Moving `static` a second time changes nothing. It keeps the number of lines. A line whose
first two words are `static` and a visibility word has the two exchanged, with all that stands
behind them as it was, and every other line stays. For every unit of indentation, each line of
the layout is written at the same level as before, and the same lines are blank. -/
theorem reordering_only_exchanges_words (lines : List String) :
    reorderStatic (reorderStatic lines) = reorderStatic lines ∧
    (reorderStatic lines).length = lines.length ∧
    List.Forall₂ Reordered lines (reorderStatic lines) ∧
    ∀ unit,
      indent lines unit = List.zipWith (lineAt unit) (levels lines) (tidy lines) ∧
      indent (reorderStatic lines) unit =
        List.zipWith (lineAt unit) (levels lines) (reorderStatic (tidy lines)) ∧
      (indent (reorderStatic lines) unit).map String.isEmpty =
        (indent lines unit).map String.isEmpty := by
  have levelsKept : levels (reorderStatic lines) = levels lines :=
    keepsOutline_reorderLine.levels_map lines
  refine ⟨?_, List.length_map _, ?_, ?_⟩
  · simp [reorderStatic, reorderLine_reorderLine]
  · rw [reorderStatic, List.forall₂_map_right_iff]
    exact List.forall₂_same.mpr fun line _ => reordered_reorderLine line
  · intro unit
    refine ⟨indent_eq_zipWith unit lines, ?_, ?_⟩
    · rw [indent_eq_zipWith, levelsKept, reorderStatic, keepsOutline_reorderLine.tidy_map]
      rfl
    · rw [map_isEmpty_indent, map_isEmpty_indent, levelsKept]

end BasicToSharp.Layout
