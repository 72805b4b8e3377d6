import BasicToSharp.Layout

/-!
# The first two words of a line

Words are divided by single spaces, so there is an empty word between two spaces that follow
each other. A line with a space has its first two words and what stands behind them in one way
only, and the three give the line back with all its spaces.

This says what moving `static` does to a line: where `static` and a visibility word are the
first two words, they change places, and every other line stays. The line that comes out starts
with the visibility word, so there is nothing left to move.
-/

namespace BasicToSharp.Layout

/-- What is cut off behind a word: nothing, or a text with the space before it. -/
def cutOff : Option (List Char) → List Char
  | none => []
  | some after => ' ' :: after

/-- A text is cut where its first word ends, and nothing is lost. -/
theorem cutAtSpace_eq_iff {chars word : List Char} {after : Option (List Char)} :
    cutAtSpace chars = (word, after) ↔ ' ' ∉ word ∧ chars = word ++ cutOff after := by
  induction chars generalizing word with
  | nil => cases after <;> cases word <;> simp [cutAtSpace, cutOff]
  | cons c rest inductionHypothesis =>
    by_cases space : c = ' '
    · subst space
      cases word with
      | nil => cases after <;> simp [cutAtSpace, cutOff]
      | cons d word =>
        -- The first word of a text that starts with a space is empty.
        simp only [cutAtSpace, if_true, Prod.mk.injEq, reduceCtorEq, false_and, false_iff]
        rintro ⟨whole, text⟩
        obtain ⟨rfl, -⟩ := List.cons.inj text
        exact whole List.mem_cons_self
    · cases word with
      | nil => cases after <;> simp [cutAtSpace, cutOff, space]
      | cons d word =>
        have later := @inductionHypothesis word
        rw [Prod.ext_iff] at later
        simp only [cutAtSpace, space, if_false, Prod.mk.injEq, List.cons.injEq, List.mem_cons,
          List.cons_append, and_assoc, later]
        constructor
        · rintro ⟨rfl, whole, text⟩
          exact ⟨by simp [whole, Ne.symm space], rfl, text⟩
        · rintro ⟨whole, rfl, text⟩
          exact ⟨rfl, fun member => whole (.inr member), text⟩

/-- A line is its first word, a space, its second word and a rest. The words hold no space, and
the rest is empty or starts with one. -/
structure LeadingWords (line first second rest : String) : Prop where
  text : line = first ++ " " ++ second ++ rest
  firstWhole : ' ' ∉ first.toList
  secondWhole : ' ' ∉ second.toList
  divided : rest = "" ∨ startsWith rest ' ' = true

namespace LeadingWords

variable {line first second rest : String}

/-- What follows a word is nothing or starts with a space. -/
theorem divided_iff :
    rest = "" ∨ startsWith rest ' ' = true ↔ ∃ after, rest.toList = cutOff after := by
  constructor
  · rintro (rfl | starts)
    · exact ⟨none, rfl⟩
    · obtain ⟨after, chars⟩ := List.head?_eq_some_iff.mp (beq_iff_eq.mp starts)
      exact ⟨some after, chars⟩
  · rintro ⟨_ | after, chars⟩
    · exact .inl (String.toList_eq_nil_iff.mp chars)
    · exact .inr (by simp [startsWith, chars, cutOff])

/-- The first two words are found by cutting twice. -/
theorem iff_cut : LeadingWords line first second rest ↔
    ∃ behind after, cutAtSpace line.toList = (first.toList, some behind) ∧
      cutAtSpace behind = (second.toList, after) ∧ rest.toList = cutOff after := by
  simp only [cutAtSpace_eq_iff]
  constructor
  · rintro ⟨rfl, firstWhole, secondWhole, divided⟩
    obtain ⟨after, chars⟩ := divided_iff.mp divided
    refine ⟨second.toList ++ cutOff after, after, ⟨firstWhole, ?_⟩, ⟨secondWhole, rfl⟩, chars⟩
    simp [chars, cutOff]
  · rintro ⟨behind, after, ⟨firstWhole, text⟩, ⟨secondWhole, rfl⟩, chars⟩
    refine ⟨?_, firstWhole, secondWhole, divided_iff.mpr ⟨after, chars⟩⟩
    apply String.toList_inj.mp
    simp [text, chars, cutOff]

/-- A line has its first two words in one way. -/
theorem unique {first' second' rest' : String} (words : LeadingWords line first second rest)
    (words' : LeadingWords line first' second' rest') :
    first = first' ∧ second = second' ∧ rest = rest' := by
  obtain ⟨behind, after, cut, cutBehind, chars⟩ := iff_cut.mp words
  obtain ⟨behind', after', cut', cutBehind', chars'⟩ := iff_cut.mp words'
  rw [cut, Prod.mk.injEq, Option.some.injEq] at cut'
  obtain ⟨sameFirst, rfl⟩ := cut'
  rw [cutBehind, Prod.mk.injEq] at cutBehind'
  obtain ⟨sameSecond, rfl⟩ := cutBehind'
  exact ⟨String.toList_inj.mp sameFirst, String.toList_inj.mp sameSecond,
    String.toList_inj.mp (chars.trans chars'.symm)⟩

/-- A line with a space in it has leading words. -/
theorem exists_of_space (space : ' ' ∈ line.toList) :
    ∃ first second rest, LeadingWords line first second rest := by
  obtain ⟨word, after, cut⟩ : ∃ word after, cutAtSpace line.toList = (word, after) := ⟨_, _, rfl⟩
  cases after with
  | none =>
    obtain ⟨whole, text⟩ := cutAtSpace_eq_iff.mp cut
    rw [text, cutOff, List.append_nil] at space
    exact absurd space whole
  | some behind =>
    refine ⟨String.ofList word, String.ofList (cutAtSpace behind).1,
      String.ofList (cutOff (cutAtSpace behind).2), iff_cut.mpr ⟨behind, (cutAtSpace behind).2, ?_⟩⟩
    simp [cut]

end LeadingWords

section Reordering

variable {line reordered first second rest : String}

/-- A line whose first two words are `static` and a visibility word. -/
def StaticFirst (line : String) : Prop :=
  ∃ second rest, LeadingWords line "static" second rest ∧ Vocabulary.isVisibility second = true

/-- What becomes of a line: `static` and the visibility word behind it change places, with the
rest of the line as it was, and a line that does not start with the two stays. -/
inductive Reordered (line : String) : String → Prop
  | exchanged {second rest reordered : String} (before : LeadingWords line "static" second rest)
      (visibility : Vocabulary.isVisibility second = true)
      (after : LeadingWords reordered second "static" rest) : Reordered line reordered
  | unchanged (other : ¬StaticFirst line) : Reordered line line

/-- What becomes of a line by its leading words. -/
theorem reorderLine_of_leadingWords (words : LeadingWords line first second rest) :
    reorderLine line = if first = "static" ∧ Vocabulary.isVisibility second = true
      then second ++ " " ++ "static" ++ rest else line := by
  obtain ⟨behind, after, cut, cutBehind, chars⟩ := LeadingWords.iff_cut.mp words
  simp only [reorderLine, cut, cutBehind, String.ofList_toList]
  congr 1
  apply String.toList_inj.mp
  cases after <;> simp [chars, cutOff]

/-- A line of a single word stays as it is. -/
theorem reorderLine_of_no_space (single : ' ' ∉ line.toList) : reorderLine line = line := by
  have cut : cutAtSpace line.toList = (line.toList, none) :=
    cutAtSpace_eq_iff.mpr ⟨single, (List.append_nil _).symm⟩
  rw [reorderLine, cut]

/-- Moving `static` exchanges it with the visibility word and does nothing else. -/
theorem reordered_reorderLine (line : String) : Reordered line (reorderLine line) := by
  by_cases space : ' ' ∈ line.toList
  · obtain ⟨first, second, rest, words⟩ := LeadingWords.exists_of_space space
    rw [reorderLine_of_leadingWords words]
    split
    · next swaps =>
      obtain ⟨rfl, visibility⟩ := swaps
      exact .exchanged words visibility ⟨rfl, words.secondWhole, words.firstWhole, words.divided⟩
    · next stays =>
      refine .unchanged ?_
      rintro ⟨second', rest', words', visibility⟩
      obtain ⟨rfl, rfl, -⟩ := words.unique words'
      exact stays ⟨rfl, visibility⟩
  · rw [reorderLine_of_no_space space]
    refine .unchanged ?_
    rintro ⟨second, rest, words, -⟩
    exact space (by simp [words.text])

example : reorderLine "static public  int x;" = "public static  int x;" ∧
    reorderLine "static  public int x;" = "static  public int x;" := by decide

namespace Reordered

/-- No line that comes out starts with `static` and a visibility word. -/
theorem not_staticFirst (done : Reordered line reordered) : ¬StaticFirst reordered := by
  cases done with
  | unchanged other => exact other
  | exchanged before visibility after =>
    rintro ⟨second', rest', words, -⟩
    obtain ⟨rfl, -⟩ := after.unique words
    exact absurd visibility (by decide)

/-- A line is changed only where `static` stands first. -/
theorem eq_self (done : Reordered line reordered) (other : ¬StaticFirst line) :
    reordered = line := by
  cases done with
  | unchanged => rfl
  | exchanged before visibility => exact absurd ⟨_, _, before, visibility⟩ other

end Reordered

/-- A line whose words are in order stays as it is. -/
theorem reorderLine_reorderLine (line : String) :
    reorderLine (reorderLine line) = reorderLine line :=
  (reordered_reorderLine (reorderLine line)).eq_self (reordered_reorderLine line).not_staticFirst

end Reordering

end BasicToSharp.Layout
