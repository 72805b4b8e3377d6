import BasicToSharp.Entries

/-!
# Tables by name

A table holds values under names. A name is entered at most once and is never removed:
entering it again changes nothing, and only `adjust` replaces the value that a name has.
Names keep the order in which they were entered.
-/

namespace BasicToSharp

/-- Values under names, in the order of entry. -/
structure Table (α : Type) where
  entries : List (String × α) := []
  deriving DecidableEq, Repr

namespace Table

variable {α : Type}

/-- The value under a name. -/
def get? (table : Table α) (name : String) : Option α := table.entries.lookup name

/-- True of a name that has a value. -/
def contains (table : Table α) (name : String) : Bool := (table.get? name).isSome

/-- Enter a value, unless the name already has one. -/
def enter (table : Table α) (name : String) (value : α) : Table α :=
  if table.contains name then table else ⟨table.entries ++ [(name, value)]⟩

/-- Change the value under a name, if it has one. -/
def adjust (table : Table α) (name : String) (change : α → α) : Table α :=
  ⟨Entries.adjust table.entries name change⟩

/-- The values in the order of entry. -/
def values (table : Table α) : List α := table.entries.map Prod.snd

/-- Nothing is under any name of the empty table. -/
@[simp] theorem get?_empty (name : String) : ({} : Table α).get? name = none := rfl

/-- What a table holds after an entry: the old value where there was one. -/
theorem get?_enter (table : Table α) (name other : String) (value : α) :
    (table.enter other value).get? name =
      (table.get? name).or (if name = other then some value else none) := by
  unfold enter
  split
  · next held =>
    by_cases same : name = other
    · subst same
      obtain ⟨old, found⟩ := Option.isSome_iff_exists.mp held
      simp [found]
    · simp [same]
  · exact Entries.lookup_concat table.entries name other value

/-- A change applies to the value under its own name and to no other. -/
theorem get?_adjust (table : Table α) (name other : String) (change : α → α) :
    (table.adjust other change).get? name =
      if name = other then (table.get? name).map change else table.get? name :=
  Entries.lookup_adjust table.entries name other change

end Table

end BasicToSharp
