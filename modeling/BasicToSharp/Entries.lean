/-!
# Values under keys

A list of entries gives every key the value of its first entry. Tables of names and trees of
files are such lists, to which entries are added behind the others and in which the value
under a key is changed in its place.
-/

namespace BasicToSharp.Entries

variable {κ α : Type} [DecidableEq κ]

/-- Change the value under a key. -/
def adjust (entries : List (κ × α)) (key : κ) (change : α → α) : List (κ × α) :=
  entries.map fun (held, value) => if held = key then (held, change value) else (held, value)

variable [BEq κ] [LawfulBEq κ] (entries : List (κ × α)) (key other : κ)

/-- A change applies to the value under its own key and to no other. -/
theorem lookup_adjust (change : α → α) :
    (adjust entries other change).lookup key =
      if key = other then (entries.lookup key).map change else entries.lookup key := by
  induction entries with
  | nil => simp [adjust]
  | cons entry rest inductionHypothesis =>
    obtain ⟨held, value⟩ := entry
    simp only [adjust] at inductionHypothesis
    by_cases first : key = held
    · subst first
      by_cases same : key = other <;> simp [adjust, same]
    · have differs : (key == held) = false := beq_false_of_ne first
      by_cases same : held = other
      · simpa [adjust, List.lookup_cons, same, same ▸ differs] using inductionHypothesis
      · simpa [adjust, List.lookup_cons, same, differs] using inductionHypothesis

/-- An entry behind the others counts where its key had no value before. -/
theorem lookup_concat (value : α) :
    (entries ++ [(other, value)]).lookup key =
      (entries.lookup key).or (if key = other then some value else none) := by
  rw [List.lookup_append, List.lookup_cons]
  congr 1
  by_cases same : key = other
  · simp [same]
  · simp [same, beq_false_of_ne same]

end BasicToSharp.Entries
