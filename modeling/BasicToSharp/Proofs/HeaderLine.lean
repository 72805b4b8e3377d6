import BasicToSharp.Proofs.HeaderText
import BasicToSharp.Proofs.RefusalReason
import BasicToSharp.Proofs.Run

/-!
# Header lines

Lines are written one behind the other, and one thing only is ever written into a line that
is there: base types go into the header of the innermost container, which is found by the
position remembered when the container was opened. Containers are taken from the stack by
kind, in any order, so this position has to be right whatever happened in between.

It is right because the positions of open containers grow from the outermost to the
innermost and stay below the number of lines (`Draft.HeadersInOrder`): each container has a
header of its own, and the position of a new one is new. Along a run, the header of a
container then is what was first written, with the base types of the lines that were
accepted while it was innermost, in their order.
-/

namespace BasicToSharp

open Text (lacksColon)
open Reading (RefusesFor)

/-- The headers of the open containers are among the lines written, inner ones behind outer
ones. -/
structure Draft.HeadersInOrder (draft : Draft) : Prop where
  ordered : draft.nesting.containers.Pairwise (·.headerLine > ·.headerLine)
  written : ∀ container ∈ draft.nesting.containers, container.headerLine < draft.output.size

/-- The line with the header of a container holds this text, and no other open container has
its header there. -/
structure Draft.Heads (draft : Draft) (container : Container) (text : String) : Prop where
  line : draft.output[container.headerLine]? = some text
  own : ∀ other ∈ draft.nesting.containers,
    other.headerLine = container.headerLine → other = container

/-- The base types of a line that is accepted while this container is innermost. -/
def Stage.basesFor (stage : Stage) (container : Container) : List String :=
  if stage.before.nesting.container? = some container then stage.before.basesOf stage.text
  else []

/-- A line that states no base types gives none to any container. -/
theorem Stage.basesFor_of_nil {stage : Stage} (none : stage.before.basesOf stage.text = [])
    (container : Container) : stage.basesFor container = [] := by
  unfold basesFor
  split
  · exact none
  · rfl

namespace Draft.Effect

variable {draft after : Draft} {text : String}

/-- What a line does to the containers: it closes one or none, or opens one whose header it
writes behind all lines. -/
theorem containers (effect : draft.Effect text after) :
    after.nesting.containers.Sublist draft.nesting.containers ∨
      ∃ container header, after.nesting.containers = container :: draft.nesting.containers ∧
        container.headerLine = draft.output.size ∧
        after.output.toList = draft.output.toList ++ [header, "\x7b"] ∧
        ∃ keyword, ContainerHeader.read container.kind (lineTokens text) keyword =
          .ok ⟨container.name, header⟩ := by
  have same : after.nesting.containers = draft.nesting.containers →
      after.nesting.containers.Sublist draft.nesting.containers := by
    intro equal
    exact equal ▸ .refl _
  cases effect with
  | writes lines stacked output unmatched idle bases =>
    exact .inl (same (congrArg Stacks.containers stacked))
  | opens entry header stacked output unmatched opened bases headed =>
    have pushed := congrArg Stacks.containers stacked
    cases entry with
    | container container =>
      obtain ⟨position, reading⟩ := headed container rfl
      exact .inr ⟨container, header, pushed, position, output, reading⟩
    | block kind => exact .inl (same pushed)
    | enumBlock name => exact .inl (same pushed)
    | doLoop kind => exact .inl (same pushed)
  | closes kind line stacked output unmatched closed bases =>
    have popped := congrArg Stacks.containers stacked
    cases kind with
    | container kind =>
      have erased : after.nesting.containers = draft.nesting.containers.eraseP (·.kind == kind) :=
        popped
      rw [erased]
      exact .inl List.eraseP_sublist
    | block kind => exact .inl (same popped)
    | enumBlock => exact .inl (same popped)
    | doLoop => exact .inl (same popped)
  | adds container header bases innermost found stacked output unmatched idle stated =>
    exact .inl (same (congrArg Stacks.containers stacked))

/-- What a line does to the lines written: it adds some at the end, or adds base types to
the header of the innermost container. -/
theorem lines (effect : draft.Effect text after) :
    (∃ lines, after.output.toList = draft.output.toList ++ lines) ∧ draft.basesOf text = [] ∨
      ∃ container header, draft.nesting.container? = some container ∧
        draft.output[container.headerLine]? = some header ∧
        after.output = draft.output.setIfInBounds container.headerLine
          ((draft.basesOf text).foldl addBase header) := by
  cases effect with
  | writes lines stacked output unmatched idle bases => exact .inl ⟨⟨lines, output⟩, bases⟩
  | opens entry header stacked output unmatched opened bases headed =>
    exact .inl ⟨⟨_, output⟩, bases⟩
  | closes kind line stacked output unmatched closed bases => exact .inl ⟨⟨_, output⟩, bases⟩
  | adds container header bases innermost found stacked output unmatched idle stated =>
    rw [stated]
    exact .inr ⟨container, header, innermost, found, output⟩

/-- No line takes written lines away. -/
theorem size_le (effect : draft.Effect text after) : draft.output.size ≤ after.output.size := by
  rcases effect.lines with ⟨⟨lines, output⟩, -⟩ | ⟨container, header, -, -, output⟩
  · have sizes := congrArg List.length output
    rw [List.length_append, Array.length_toList, Array.length_toList] at sizes
    omega
  · have same : after.output.size = draft.output.size := by
      rw [output, Array.size_setIfInBounds]
    omega

/-- Lines added at the end leave the others as they are. -/
theorem getElem?_of_append {lines : List String} {index : Nat}
    (output : after.output.toList = draft.output.toList ++ lines)
    (written : index < draft.output.size) : after.output[index]? = draft.output[index]? := by
  rw [← Array.getElem?_toList, ← Array.getElem?_toList, output]
  exact List.getElem?_append_left (by simpa using written)

/-- A line that is there stays as it is, unless it is the header of the innermost
container. -/
theorem line_kept (effect : draft.Effect text after) {index : Nat}
    (written : index < draft.output.size)
    (apart : ∀ container, draft.nesting.container? = some container →
      container.headerLine ≠ index) :
    after.output[index]? = draft.output[index]? := by
  rcases effect.lines with ⟨⟨lines, output⟩, -⟩ | ⟨container, header, innermost, -, output⟩
  · exact getElem?_of_append output written
  · rw [output, Array.getElem?_setIfInBounds_ne (apart container innermost)]

/-- A line keeps the headers of open containers in order. -/
theorem headersInOrder (effect : draft.Effect text after) (before : draft.HeadersInOrder) :
    after.HeadersInOrder := by
  have size := effect.size_le
  rcases effect.containers with closed | ⟨container, header, opened, position, output, -⟩
  · exact ⟨before.ordered.sublist closed, fun container member =>
      Nat.lt_of_lt_of_le (before.written container (closed.subset member)) size⟩
  · have sizes := congrArg List.length output
    simp only [List.length_append, Array.length_toList, List.length_cons] at sizes
    constructor
    · rw [opened]
      exact List.pairwise_cons.mpr
        ⟨fun other member => position ▸ before.written other member, before.ordered⟩
    · rw [opened]
      refine List.forall_mem_cons.mpr ⟨by omega, fun other member => ?_⟩
      exact Nat.lt_of_lt_of_le (before.written other member) size

end Draft.Effect

/-- The header of a container stays, or takes the base types of the line. -/
theorem Stage.heads (stage : Stage) (effect : stage.before.Effect stage.text stage.after)
    {container : Container} {header : String} {bases : List String}
    (plain : lacksColon header = true)
    (before : stage.before.Heads container (withBases header bases)) :
    stage.after.Heads container (withBases header (bases ++ stage.basesFor container)) := by
  have written : container.headerLine < stage.before.output.size :=
    (Array.getElem?_eq_some_iff.mp before.line).1
  constructor
  · rcases effect.lines with ⟨⟨lines, output⟩, none⟩ | ⟨innermost, text, isInnermost, found, output⟩
    · rw [Draft.Effect.getElem?_of_append output written, before.line, basesFor_of_nil none,
        List.append_nil]
    · by_cases same : innermost = container
      · subst same
        obtain rfl : withBases header bases = text :=
          Option.some.inj (before.line.symm.trans found)
        rw [output, Array.getElem?_setIfInBounds_self_of_lt written, foldl_addBase plain,
          basesFor, if_pos isInnermost]
      · have apart : innermost.headerLine ≠ container.headerLine := fun line =>
          same (before.own innermost (List.mem_of_head? isInnermost) line)
        have none : stage.basesFor container = [] :=
          if_neg (by simpa [isInnermost] using same)
        rw [output, Array.getElem?_setIfInBounds_ne apart, before.line, none, List.append_nil]
  · intro other member same
    rcases effect.containers with closed | ⟨new, newHeader, opened, position, -, -⟩
    · exact before.own other (closed.subset member) same
    · rw [opened] at member
      rcases List.mem_cons.mp member with rfl | old
      · omega
      · exact before.own other old same

namespace Draft.Runs

variable {start draft : Draft} {stages : List Stage}

/-- A run keeps the headers of open containers in order. -/
theorem headersInOrder (run : start.Runs stages draft) (begun : start.HeadersInOrder) :
    draft.HeadersInOrder := by
  induction run with
  | start => exact begun
  | line earlier cursor line converted inductionHypothesis =>
    exact (convertLine_effect converted).headersInOrder
      ⟨inductionHypothesis.ordered, inductionHypothesis.written⟩

/-- Along a run, the header of a container takes the base types of all lines that are
accepted while it is innermost. -/
theorem heads (run : start.Runs stages draft) {container : Container} {header : String}
    {bases : List String} (plain : lacksColon header = true)
    (begun : start.Heads container (withBases header bases)) :
    draft.Heads container
      (withBases header (bases ++ stages.flatMap (·.basesFor container))) := by
  induction run with
  | start => simpa using begun
  | line earlier cursor line converted inductionHypothesis =>
    have effect := convertLine_effect converted
    rw [List.flatMap_append, List.flatMap_singleton, ← List.append_assoc]
    exact Stage.heads ⟨_, _, _⟩ effect plain ⟨inductionHypothesis.line, inductionHypothesis.own⟩

end Draft.Runs

namespace Draft

/-- A malformed line is reported when it is refused, and at no other time. -/
theorem refusal_of_reported {draft after : Draft} {text : String} {diagnostic : Diagnostic}
    {cause : Malformed} (converted : draft.convertLine text = .ok after)
    (reported : diagnostic ∈ after.diagnostics) (malformed : diagnostic.notice = .malformed cause) :
    diagnostic ∈ draft.diagnostics ∨ draft.refusal text = some cause := by
  rcases draft.convertLine_cases text with ⟨_, ran, same⟩ | ⟨found, ran, same⟩
  · obtain rfl := Except.ok.inj (converted.symm.trans same)
    obtain ⟨notices, continues, sound⟩ := Statement.rule_continues _ ran
    rw [continues.diagnostics, Array.mem_append] at reported
    rcases reported with old | new
    · exact .inl old
    · obtain ⟨notice, added, rfl⟩ : ∃ notice ∈ notices, ⟨draft.line, notice⟩ = diagnostic := by
        simpa using new
      exact absurd malformed (sound notice added cause)
  · obtain rfl := Except.ok.inj (converted.symm.trans same)
    obtain ⟨words, continues⟩ := Continues.passLine (draft.report (.malformed found))
      (lineTokens text)
    rw [continues.diagnostics, Array.mem_append, report_diagnostics, Array.mem_push] at reported
    rcases reported with (old | rfl) | word
    · exact .inl old
    · obtain rfl := Notice.malformed.inj malformed
      exact .inr (by simp [refusal, ran])
    · obtain ⟨found, -, rfl⟩ : ∃ found ∈ words,
          ⟨draft.line, .unregisteredWord found⟩ = diagnostic := by simpa [report] using word
      cases malformed

/-- A base list is not refused for want of the header it belongs to. -/
theorem HeadersInOrder.readInheritance_refuses {draft : Draft} (inOrder : draft.HeadersInOrder)
    (tokens : List Token) :
    Reading.RefusesFor (· ≠ .headerLineNotFound) (readInheritance draft tokens) := by
  unfold readInheritance
  refine (RefusesFor.require _ _ (by simp)).bindRead fun container innermost => ?_
  refine (RefusesFor.sliceFrom _ _).bind fun behind => ?_
  refine ((readBases_refuses _).weaken fun _ => Reason.ne_of_isOfLine).bind fun bases => ?_
  split
  · exact .refuse _ (by simp)
  · have written : container.headerLine < draft.output.size :=
      inOrder.written container (List.mem_of_head? (Reading.require_eq innermost))
    rw [Array.getElem?_eq_getElem written]
    exact (RefusesFor.ok _).bind fun _ => .ok _

/-- No line is refused because a header is not where it was written. -/
theorem HeadersInOrder.refusal {draft : Draft} (inOrder : draft.HeadersInOrder) {text : String}
    {cause : Malformed} (refused : draft.refusal text = some cause) :
    cause.reason ≠ .headerLineNotFound := by
  have stopped := run_of_refusal refused
  generalize lineStatement text = statement at stopped
  by_cases isBaseList : statement = .inheritance
  · subst isBaseList
    have settled := (Rule.inheritance_run (lineTokens text) draft).symm.trans stopped
    exact inOrder.readInheritance_refuses _ cause (settle_error settled).1
  · by_cases isAccessor : ∃ keyword, statement = .accessor keyword
    · obtain ⟨keyword, rfl⟩ := isAccessor
      have settled := (Rule.accessor_run (lineTokens text) keyword draft).symm.trans stopped
      exact AccessorHeader.read_refuses draft _ keyword cause (settle_error settled).1
    · exact Reason.ne_of_isOfLine
        (Statement.rule_refuses isBaseList (fun keyword is => isAccessor ⟨keyword, is⟩) stopped)

end Draft

/-- At the start there are no headers. -/
theorem Draft.start_headersInOrder (options : Options) (input : List SourceLine) :
    (Draft.start options input).HeadersInOrder := ⟨.nil, by simp [Draft.start]⟩

/-- Along a run from an empty draft, no report says that a header was not found. -/
theorem Draft.Runs.headers_found {options : Options} {input : List SourceLine}
    {stages : List Stage} {draft : Draft} (run : (Draft.start options input).Runs stages draft) :
    ∀ diagnostic ∈ draft.diagnostics, ∀ cause, diagnostic.notice = .malformed cause →
      cause.reason ≠ .headerLineNotFound := by
  induction run with
  | start => simp [Draft.start]
  | @line _ reached _ earlier cursor line converted inductionHypothesis =>
    intro diagnostic reported cause malformed
    rcases Draft.refusal_of_reported converted reported malformed with old | refused
    · exact inductionHypothesis diagnostic old cause malformed
    · have inOrder := earlier.headersInOrder (Draft.start_headersInOrder options input)
      have moved : (reached.moveTo cursor line).HeadersInOrder :=
        ⟨inOrder.ordered, inOrder.written⟩
      exact moved.refusal refused

/-- A container that a line opens has its header behind all lines written, and is the only
open one with its header there. -/
theorem Draft.Effect.heads_of_opened {draft after : Draft} {text : String} {container : Container}
    (effect : draft.Effect text after) (inOrder : draft.HeadersInOrder)
    (isOpen : container ∈ after.nesting.containers)
    (isNew : container ∉ draft.nesting.containers) :
    container.headerLine = draft.output.size ∧
      ∃ header, lacksColon header = true ∧ after.Heads container header := by
  rcases effect.containers with
    closed | ⟨opened, header, containers, position, output, keyword, reading⟩
  · exact absurd (closed.subset isOpen) isNew
  · obtain rfl : container = opened := by
      rw [containers] at isOpen
      exact (List.mem_cons.mp isOpen).resolve_right isNew
    refine ⟨position, header, ContainerHeader.read_lacksColon _ _ _ _ reading, ?_,
      fun other member same => ?_⟩
    · rw [← Array.getElem?_toList, output, position]
      simp
    · rw [containers] at member
      rcases List.mem_cons.mp member with rfl | old
      · rfl
      · have := inOrder.written other old
        omega

/-- Along every run from an empty draft: the headers of the open containers are among the
lines written, inner ones behind outer ones, and no line is refused because one is not
found; a line that is written stays as it is, unless it is the header of the container that
is innermost at the time; and the header of a container, from the stage on that opens it,
is what that stage has written, with the base types of all later lines that are accepted
while the container is innermost. -/
theorem headers_and_lines_kept {options : Options} {input : List SourceLine}
    {stages : List Stage} {draft : Draft}
    (run : (Draft.start options input).Runs stages draft) :
    (draft.nesting.containers.Pairwise (·.headerLine > ·.headerLine) ∧
      (∀ container ∈ draft.nesting.containers, container.headerLine < draft.output.size) ∧
      (∀ text cause, draft.refusal text = some cause → cause.reason ≠ .headerLineNotFound) ∧
      ∀ diagnostic ∈ draft.diagnostics, ∀ cause, diagnostic.notice = .malformed cause →
        cause.reason ≠ .headerLineNotFound) ∧
    (∀ stage ∈ stages, ∀ index < stage.before.output.size,
      (∀ container, stage.before.nesting.container? = some container →
        container.headerLine ≠ index) →
      stage.after.output[index]? = stage.before.output[index]?) ∧
    ∀ earlier stage later, stages = earlier ++ stage :: later →
      ∀ container ∈ stage.after.nesting.containers,
        container ∉ stage.before.nesting.containers →
        container.headerLine = stage.before.output.size ∧
        ∃ header, stage.after.output[container.headerLine]? = some header ∧
          draft.output[container.headerLine]? =
            some (withBases header (later.flatMap (·.basesFor container))) := by
  have begun := Draft.start_headersInOrder options input
  have inOrder := run.headersInOrder begun
  refine ⟨⟨inOrder.ordered, inOrder.written, fun text cause => inOrder.refusal,
    run.headers_found⟩, fun stage member index => (run.effect stage member).line_kept, ?_⟩
  rintro earlier stage later rfl container isOpen isNew
  have effect := run.effect stage (by simp)
  obtain ⟨reached, cursor, line, before, position, behind⟩ := run.around
  have inOrderThere := before.headersInOrder begun
  obtain ⟨place, header, plain, heads⟩ := effect.heads_of_opened
    (by rw [position]; exact ⟨inOrderThere.ordered, inOrderThere.written⟩) isOpen isNew
  have noBases : stage.after.Heads container (withBases header []) := heads
  exact ⟨place, header, heads.line, (behind.heads plain noBases).line⟩

/-- Here an inner class with base types of its own stands between the base lists of the
outer one. -/
theorem headers_kept_nested :
    let start := Draft.start {} []
    let lines := ["Public Class A", "Inherits B", "Class C(Of T)", "Inherits D", "End Class",
      "Implements E, F(Of T)"].map (SourceLine.mk 1)
    ∃ draft, start.Runs (start.trace 0 lines) draft ∧
      draft.output[0]? = some "public class A : B, E, F<T>" := by
  intro start lines
  obtain ⟨draft, converted⟩ := start.convertFrom_ok 0 lines
  have run := Draft.runs_trace converted
  have filled : start.trace 0 lines ≠ [] := by decide +kernel
  have first : (start.trace 0 lines).head?.map (fun stage => (stage.before.nesting.containers,
      stage.after.nesting.containers, stage.after.output[0]?)) =
      some ([], [⟨"A", .classBlock, 0⟩], some "public class A") := by decide +kernel
  have stated : (start.trace 0 lines).tail.flatMap (·.basesFor ⟨"A", .classBlock, 0⟩) =
      ["B", "E", "F<T>"] := by decide +kernel
  obtain ⟨stage, later, shape⟩ := List.exists_cons_of_ne_nil filled
  rw [shape] at first stated
  obtain ⟨none, opened, begun⟩ : stage.before.nesting.containers = [] ∧
      stage.after.nesting.containers = [⟨"A", .classBlock, 0⟩] ∧
      stage.after.output[0]? = some "public class A" := by
    simpa using first
  obtain ⟨-, header, written, kept⟩ := (headers_and_lines_kept run).2.2 [] stage later shape
    ⟨"A", .classBlock, 0⟩ (by simp [opened]) (by simp [none])
  obtain rfl : "public class A" = header := Option.some.inj (begun.symm.trans written)
  have bases : later.flatMap (·.basesFor ⟨"A", .classBlock, 0⟩) = ["B", "E", "F<T>"] := stated
  rw [bases] at kept
  exact ⟨draft, run, kept⟩

end BasicToSharp
