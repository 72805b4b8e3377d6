import BasicToSharp.Proofs.LineEffect

/-!
# Runs of lines

A run converts lines one after the other from some draft on. It is given by its stages, one
for each line: the draft that has come to the line, the text of the line and the draft
behind it. Any lines may follow each other, at any positions, so what holds along all runs
does not rest on the lines being those of one file. Converting a file is a run from an empty
draft (`Draft.runs_trace`), and a part of a run is a run.
-/

namespace BasicToSharp

/-- The conversion of one line in a run. -/
structure Stage where
  /-- The draft that has come to the line. -/
  before : Draft
  text : String
  after : Draft
  deriving DecidableEq, Repr

namespace Draft

/-- The lines of these stages, converted in turn, lead from one draft to another. -/
inductive Runs (start : Draft) : List Stage → Draft → Prop
  | start : Runs start [] start
  | line {stages : List Stage} {draft after : Draft} (earlier : Runs start stages draft)
      (cursor : Nat) (line : SourceLine)
      (converted : (draft.moveTo cursor line).convertLine line.text = .ok after) :
      Runs start (stages ++ [⟨draft.moveTo cursor line, line.text, after⟩]) after

/-- The stages of converting lines, the first of which is at position `cursor`. -/
def trace (draft : Draft) (cursor : Nat) : List SourceLine → List Stage
  | [] => []
  | line :: rest =>
    match (draft.moveTo cursor line).convertLine line.text with
    | .ok after =>
      ⟨draft.moveTo cursor line, line.text, after⟩ :: after.trace (cursor + 1) rest
    | .error _ => []

namespace Runs

variable {start middle draft after : Draft} {stages first second : List Stage} {stage : Stage}

/-- A run may be put behind one line. -/
theorem cons {cursor : Nat} {line : SourceLine}
    (converted : (start.moveTo cursor line).convertLine line.text = .ok middle)
    (later : middle.Runs stages draft) :
    start.Runs (⟨start.moveTo cursor line, line.text, middle⟩ :: stages) draft := by
  induction later with
  | start => exact .line .start cursor line converted
  | line earlier next nextLine nextConverted inductionHypothesis =>
    exact .line inductionHypothesis next nextLine nextConverted

/-- A run over stages in two parts goes through a draft between them. -/
theorem split (run : start.Runs (first ++ second) draft) :
    ∃ middle, start.Runs first middle ∧ middle.Runs second draft := by
  generalize whole : first ++ second = all at run
  induction run generalizing second with
  | start =>
    obtain ⟨rfl, rfl⟩ := List.append_eq_nil_iff.mp whole
    exact ⟨start, .start, .start⟩
  | line earlier cursor line converted inductionHypothesis =>
    rcases List.eq_nil_or_concat second with rfl | ⟨front, last, rfl⟩
    · obtain rfl : first = _ := by simpa using whole
      exact ⟨_, .line earlier cursor line converted, .start⟩
    · rw [List.concat_eq_append, ← List.append_assoc] at whole
      obtain ⟨same, lastSame⟩ := List.append_inj' whole rfl
      obtain ⟨middle, before, behind⟩ := inductionHypothesis same
      rw [List.concat_eq_append, lastSame]
      exact ⟨middle, before, .line behind cursor line converted⟩

/-- A run over one line is the conversion of that line. -/
theorem single (run : start.Runs [stage] draft) :
    ∃ cursor line, stage = ⟨start.moveTo cursor line, line.text, draft⟩ := by
  generalize whole : [stage] = all at run
  cases run with
  | start => cases whole
  | line earlier cursor line converted =>
    obtain ⟨none, same⟩ := List.append_inj' ((List.nil_append [stage]).trans whole) rfl
    cases earlier with
    | start => exact ⟨cursor, line, List.singleton_inj.mp same⟩
    | line => simp at none

/-- A run comes to each of its stages and goes on from there. -/
theorem around (run : start.Runs (first ++ stage :: second) draft) :
    ∃ reached cursor line, start.Runs first reached ∧
      stage.before = reached.moveTo cursor line ∧ stage.after.Runs second draft := by
  obtain ⟨reached, before, rest⟩ := run.split
  rw [← List.singleton_append] at rest
  obtain ⟨behind, here, after⟩ := rest.split
  obtain ⟨cursor, line, rfl⟩ := here.single
  exact ⟨reached, cursor, line, before, rfl, after⟩

/-- Every stage of a run converts its line. -/
theorem converts (run : start.Runs stages draft) :
    ∀ stage ∈ stages, stage.before.convertLine stage.text = .ok stage.after := by
  induction run with
  | start => simp
  | line earlier cursor line converted inductionHypothesis =>
    intro stage member
    rcases List.mem_append.mp member with known | last
    · exact inductionHypothesis stage known
    · obtain rfl := List.mem_singleton.mp last
      exact converted

/-- Every stage of a run has the effect of its line. -/
theorem effect (run : start.Runs stages draft) :
    ∀ stage ∈ stages, stage.before.Effect stage.text stage.after :=
  fun stage member => convertLine_effect (run.converts stage member)

end Runs

/-- Converting lines is a run. -/
theorem runs_trace {draft after : Draft} {cursor : Nat} {lines : List SourceLine}
    (converted : draft.convertFrom cursor lines = .ok after) :
    draft.Runs (draft.trace cursor lines) after := by
  induction lines generalizing draft cursor with
  | nil =>
    cases converted
    exact .start
  | cons line rest inductionHypothesis =>
    simp only [convertFrom] at converted
    split at converted
    · next middle done =>
      simp only [trace, done]
      exact .cons done (inductionHypothesis converted)
    · cases converted

end Draft

end BasicToSharp
