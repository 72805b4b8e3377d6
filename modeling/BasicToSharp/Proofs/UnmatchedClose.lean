import BasicToSharp.Proofs.Run

/-!
# Unmatched closers

Blocks of several kinds share a stack and a closer takes the innermost block of its own kind
away, wherever it stands, so a closer may find none of its kind although blocks are open.
How often this happens along a run can be told from the openers and closers alone, kind by
kind. If `excess` is the number of closers less the number of openers, the closers that
found nothing are as many as the excess is at its highest, over all parts that the run
starts with, and the blocks left open make up what is missing to the excess of the whole.

One line changes the blocks of a kind, its closers that found nothing and its excess
together (`Draft.Effect.tally`), and the law follows along the run.
-/

namespace BasicToSharp

namespace Stacks

/-- The stacks without the blocks of one kind. -/
def without (stacked : Stacks) (kind : StackKind) : Stacks where
  containers := stacked.containers.filter (StackKind.container ·.kind != kind)
  enums := if kind = .enumBlock then [] else stacked.enums
  doLoops := if kind = .doLoop then [] else stacked.doLoops
  blocks := stacked.blocks.filter (StackKind.block · != kind)

/-- A block that is opened counts for its kind. -/
theorem count_push (stacked : Stacks) (entry : Entry) (kind : StackKind) :
    (stacked.push entry).count kind =
      stacked.count kind + if entry.kind = kind then 1 else 0 := by
  cases entry <;> cases kind <;>
    simp [push, count, Entry.kind, List.countP_cons, List.count_cons]

section Erase

variable {α : Type} (removed : α → Bool)

/-- What is no candidate for removal stays, in its order. -/
theorem filter_eraseP {kept : α → Bool} (apart : ∀ value, removed value = true → kept value = false)
    (values : List α) : (values.eraseP removed).filter kept = values.filter kept := by
  induction values with
  | nil => rfl
  | cons value rest inductionHypothesis =>
    cases candidate : removed value with
    | true => simp [candidate, apart value candidate]
    | false => simp [candidate, List.filter_cons, inductionHypothesis]

/-- Taking the first candidate away takes the first of the candidates away. -/
theorem filter_eraseP_self (values : List α) :
    (values.eraseP removed).filter removed = (values.filter removed).tail := by
  induction values with
  | nil => rfl
  | cons value rest inductionHypothesis =>
    cases candidate : removed value with
    | true => simp [candidate]
    | false => simp [candidate, inductionHypothesis]

/-- Removal takes one candidate away, if there is one. -/
theorem countP_eraseP (values : List α) :
    (values.eraseP removed).countP removed = values.countP removed - 1 := by
  rw [List.countP_eq_length_filter, filter_eraseP_self, List.length_tail,
    ← List.countP_eq_length_filter]

end Erase

/-- Closing a kind leaves the blocks of all other kinds as they are. -/
theorem pop_without (stacked : Stacks) (kind : StackKind) :
    (stacked.pop kind).without kind = stacked.without kind := by
  cases kind with
  | container kind =>
    simp only [pop, without, reduceCtorEq, if_false]
    congr 1
    refine filter_eraseP (·.kind == kind) ?_ stacked.containers
    simp
  | block kind =>
    simp only [pop, without, reduceCtorEq, if_false, List.erase_eq_eraseP]
    congr 1
    refine filter_eraseP (kind == ·) ?_ stacked.blocks
    simp
  | enumBlock => rfl
  | doLoop => rfl

/-- Closing a kind takes one block of it away, if there is one. -/
theorem count_pop (stacked : Stacks) (kind : StackKind) :
    (stacked.pop kind).count kind = stacked.count kind - 1 := by
  cases kind with
  | container kind => exact countP_eraseP (·.kind == kind) stacked.containers
  | block kind => simp [pop, count]
  | enumBlock => simp [pop, count]
  | doLoop => simp [pop, count]

/-- The blocks of a kind can be counted among those that are not of another. -/
theorem count_without (stacked : Stacks) {kind other : StackKind} (apart : other ≠ kind) :
    (stacked.without kind).count other = stacked.count other := by
  cases other with
  | container other =>
    simp only [without, count, List.countP_filter]
    congr 1
    funext opened
    by_cases same : opened.kind = other <;> simp [same, apart]
  | block other => simp [without, count, List.count_filter, apart]
  | enumBlock => simp [without, count, apart.symm]
  | doLoop => simp [without, count, apart.symm]

/-- A block that is closed does not count for other kinds. -/
theorem count_pop_other (stacked : Stacks) {kind other : StackKind} (apart : other ≠ kind) :
    (stacked.pop kind).count other = stacked.count other := by
  rw [← count_without _ apart, pop_without, count_without _ apart]

end Stacks

namespace Draft

/-- What one line does to the blocks of a kind, to the closers that found nothing and to
both counts of openers and closers. -/
theorem Effect.tally {draft after : Draft} {text : String} (effect : draft.Effect text after)
    (kind : StackKind) :
    ((after.nesting.stacked.count kind : Int) - after.unmatched kind =
      draft.nesting.stacked.count kind - draft.unmatched kind +
        (if draft.opens text kind then 1 else 0) - if draft.closes text kind then 1 else 0) ∧
      (after.unmatched kind = draft.unmatched kind ∨
        after.unmatched kind = draft.unmatched kind + 1 ∧
          after.nesting.stacked.count kind = 0) := by
  cases effect with
  | writes lines stacked output unmatched idle bases =>
    rw [stacked, unmatched, (idle kind).1, (idle kind).2]
    exact ⟨by simp, .inl rfl⟩
  | opens entry header stacked output unmatched opened bases headed =>
    rw [stacked, unmatched, (opened kind).1, (opened kind).2, Stacks.count_push]
    refine ⟨?_, .inl rfl⟩
    by_cases same : entry.kind = kind
    · simp [same]
      omega
    · simp [same, Ne.symm same]
  | closes closed line stacked output unmatched idle bases =>
    rw [stacked, unmatched, (idle kind).1, (idle kind).2]
    by_cases same : kind = closed
    · subst same
      rw [Stacks.count_pop]
      by_cases none : draft.nesting.stacked.count kind = 0
      · simp [none]
        omega
      · simp [none]
        omega
    · rw [Stacks.count_pop_other _ same]
      simp [same]
  | adds container header bases innermost found stacked output unmatched idle stated =>
    rw [stacked, unmatched, (idle kind).1, (idle kind).2]
    exact ⟨by simp, .inl rfl⟩

/-- A line opens a block of a kind exactly when it leaves one more open. -/
theorem Effect.opens_iff {draft after : Draft} {text : String} (effect : draft.Effect text after)
    (kind : StackKind) :
    draft.opens text kind = true ↔
      after.nesting.stacked.count kind = draft.nesting.stacked.count kind + 1 := by
  cases effect with
  | writes lines stacked output unmatched idle bases => simp [stacked, (idle kind).1]
  | opens entry header stacked output unmatched opened bases headed =>
    rw [stacked, (opened kind).1, Stacks.count_push]
    by_cases same : entry.kind = kind
    · simp [same]
    · simp [same, Ne.symm same]
  | closes closed line stacked output unmatched idle bases =>
    rw [stacked, (idle kind).1]
    by_cases same : kind = closed
    · subst same
      rw [Stacks.count_pop]
      simp
    · simp [Stacks.count_pop_other _ same]
  | adds container header bases innermost found stacked output unmatched idle stated =>
    simp [stacked, (idle kind).1]

/-- A closer takes at most one block of its kind away and none of another. -/
theorem Effect.closes_own {draft after : Draft} {text : String} {kind : StackKind}
    (effect : draft.Effect text after) (closes : draft.closes text kind = true) :
    after.nesting.stacked.without kind = draft.nesting.stacked.without kind ∧
      after.nesting.stacked.count kind = draft.nesting.stacked.count kind - 1 := by
  cases effect with
  | writes lines stacked output unmatched idle bases =>
    rw [(idle kind).2] at closes
    cases closes
  | opens entry header stacked output unmatched opened bases headed =>
    rw [(opened kind).2] at closes
    cases closes
  | closes closed line stacked output unmatched idle bases =>
    obtain rfl : kind = closed := by simpa [(idle kind).2] using closes
    rw [stacked]
    exact ⟨Stacks.pop_without _ kind, Stacks.count_pop _ kind⟩
  | adds container header bases innermost found stacked output unmatched idle stated =>
    rw [(idle kind).2] at closes
    cases closes

end Draft

/-- How many of these lines close a block of a kind, or try to, less how many open one. -/
def excess (kind : StackKind) (stages : List Stage) : Int :=
  stages.countP (fun stage => stage.before.closes stage.text kind) -
    stages.countP fun stage => stage.before.opens stage.text kind

/-- One more line adds to the closers or to the openers. -/
theorem excess_concat (kind : StackKind) (stages : List Stage) (stage : Stage) :
    excess kind (stages ++ [stage]) = excess kind stages +
      (if stage.before.closes stage.text kind then 1 else 0) -
        if stage.before.opens stage.text kind then 1 else 0 := by
  simp only [excess, List.countP_append, List.countP_singleton]
  split <;> split <;> omega

namespace Draft

section Runs

variable {options : Options} {input : List SourceLine} {stages : List Stage} {draft : Draft}

/-- The blocks left open make up the excess to the closers that found nothing. -/
theorem Runs.tally (run : (Draft.start options input).Runs stages draft) (kind : StackKind) :
    (draft.nesting.stacked.count kind : Int) = draft.unmatched kind - excess kind stages := by
  induction run with
  | start => cases kind <;> rfl
  | line earlier cursor line converted inductionHypothesis =>
    have step := ((convertLine_effect converted).tally kind).1
    rw [excess_concat]
    simp only [moveTo, unmatched] at step inductionHypothesis ⊢
    omega

/-- The closers that found nothing are as many as the excess is at its highest. -/
theorem Runs.unmatched_highest (run : (Draft.start options input).Runs stages draft)
    (kind : StackKind) :
    (∀ part, part <+: stages → excess kind part ≤ draft.unmatched kind) ∧
      ∃ part, part <+: stages ∧ excess kind part = draft.unmatched kind := by
  induction run with
  | start =>
    refine ⟨fun part starts => ?_, [], List.nil_prefix, rfl⟩
    rw [List.prefix_nil.mp starts]
    exact Int.le_refl 0
  | @line stages draft after earlier cursor line converted inductionHypothesis =>
    obtain ⟨bounded, highest, starts, reached⟩ := inductionHypothesis
    have whole := (earlier.line cursor line converted).tally kind
    have step : after.unmatched kind = draft.unmatched kind ∨
        after.unmatched kind = draft.unmatched kind + 1 ∧ after.nesting.stacked.count kind = 0 :=
      ((convertLine_effect converted).tally kind).2
    refine ⟨fun part starts => ?_, ?_⟩
    · rcases List.prefix_concat_iff.mp starts with rfl | shorter
      · omega
      · have := bounded part shorter
        omega
    -- A closer that finds nothing brings the excess of the whole run to a new height.
    · rcases step with same | ⟨more, none⟩
      · exact ⟨highest, starts.trans (List.prefix_append _ _), by omega⟩
      · exact ⟨_, List.prefix_rfl, by omega⟩

end Runs

end Draft

/-- Along every run from an empty draft, and for each of the eight kinds of block: the
closers reported to have nothing to close are as many as the closers exceed the openers at
most, over all parts that the run starts with; the blocks left open are the openers less
the closers and those reported; an opener leaves one block more; and a closer takes at most
one block of its kind away and leaves those of other kinds as they are. -/
theorem unmatched_closers_counted {options : Options} {input : List SourceLine}
    {stages : List Stage} {draft : Draft}
    (run : (Draft.start options input).Runs stages draft) (kind : StackKind) :
    (∀ part, part <+: stages → excess kind part ≤ draft.unmatched kind) ∧
      (∃ part, part <+: stages ∧ excess kind part = draft.unmatched kind) ∧
      (draft.nesting.stacked.count kind : Int) = draft.unmatched kind - excess kind stages ∧
      ∀ stage ∈ stages,
        (stage.before.opens stage.text kind = true ↔
          stage.after.nesting.stacked.count kind = stage.before.nesting.stacked.count kind + 1) ∧
        (stage.before.closes stage.text kind = true →
          stage.after.nesting.stacked.without kind = stage.before.nesting.stacked.without kind ∧
          stage.after.nesting.stacked.count kind =
            stage.before.nesting.stacked.count kind - 1) := by
  obtain ⟨bounded, reached⟩ := run.unmatched_highest kind
  refine ⟨bounded, reached, run.tally kind, fun stage member => ?_⟩
  have effect := run.effect stage member
  exact ⟨effect.opens_iff kind, effect.closes_own⟩

/-- Here a loop that stays open stands between an `If` and the second of two closers for it,
and the closer finds nothing although another `If` follows. -/
theorem unmatched_if_counted :
    let start := Draft.start {} []
    let lines := ["If a Then", "While b", "End If", "End If", "If c Then"].map (SourceLine.mk 1)
    ∃ draft, start.Runs (start.trace 0 lines) draft ∧ draft.unmatched (.block .ifBlock) = 1 ∧
      (∀ part, part <+: start.trace 0 lines → excess (.block .ifBlock) part ≤ 1) ∧
      draft.nesting.stacked.count (.block .ifBlock) = 1 := by
  intro start lines
  obtain ⟨draft, converted⟩ := start.convertFrom_ok 0 lines
  have computed : (start.convertFrom 0 lines).toOption.map
      (fun draft => (draft.unmatched (.block .ifBlock), draft.nesting.blocks)) =
      some (1, [.ifBlock, .whileBlock]) := by decide +kernel
  obtain ⟨reported, blocks⟩ : draft.unmatched (.block .ifBlock) = 1 ∧
      draft.nesting.blocks = [.ifBlock, .whileBlock] := by
    simpa [converted, Except.toOption] using computed
  have run := Draft.runs_trace converted
  have law := unmatched_closers_counted run (.block .ifBlock)
  rw [reported] at law
  exact ⟨draft, run, reported, law.1, by simp [Nesting.stacked, Stacks.count, blocks]⟩

end BasicToSharp
