import BasicToSharp.Proofs.RefusalReason
import BasicToSharp.Proofs.Run

/-!
# The pending property header

A property header that waits for its accessors is remembered by its position among the source
lines and by nothing else. Each accessor reads the header again from there, after any number
of other lines. This is sound because the position is only ever set when the conversion stands
on that very line and has just read a signature from it, and because the source does not change:
whatever was read then is read again.

So an accessor is never refused because of what it finds at the position. It is refused when no
header is pending, or because of its own parameter list.
-/

namespace BasicToSharp

open Reading (RefusesFor)

/-- Reading the line at a position again finds the keyword of a property and behind it a
signature. -/
def ReadableProperty (input : List SourceLine) (index : Nat) : Prop :=
  ∃ line keyword signature, input[index]? = some line ∧
    Statement.declarationKeyword (lineTokens line.text) "Property" = some keyword ∧
    Signature.read .property (lineTokens line.text) keyword = .ok signature

/-- A pending header is at a line that the conversion has come to, and can be read again. -/
def Draft.PendingReadable (draft : Draft) : Prop :=
  ∀ index, draft.nesting.propertyHeader = some index →
    index ≤ draft.cursor ∧ ReadableProperty draft.input index

/-- The parameter list that an accessor states itself is refused: it is not closed, or a
parameter in it is malformed. -/
def OwnParametersRefused (tokens : List Token) (keyword : Nat) (cause : Malformed) : Prop :=
  tokenAt tokens (keyword + 1) = "(" ∧
    (Token.closing tokens (keyword + 1) = none ∧
        cause = ⟨.propertyAccessor, .unclosedParameters⟩ ∨
      ∃ close, Token.closing tokens (keyword + 1) = some close ∧
        readParameters ((tokens.take close).drop (keyword + 2)) = .error (.malformed cause))

/-- True of a reason that blames the pending header. -/
def Reason.isOfHeader : Reason → Bool
  | .propertyHeaderOutOfRange | .headerWithoutProperty => true
  | _ => false

/-- A reason that lies in a line does not lie in a header. -/
theorem Reason.isOfHeader_of_isOfLine {reason : Reason} (ofLine : reason.isOfLine = true) :
    reason.isOfHeader = false := by
  cases reason <;> first | rfl | cases ofLine

/-- A property line that can be read is a line of the source. -/
theorem ReadableProperty.lt_length {input : List SourceLine} {index : Nat}
    (readable : ReadableProperty input index) : index < input.length := by
  obtain ⟨line, -, -, present, -⟩ := readable
  exact (List.getElem?_eq_some_iff.mp present).1

/-- A property line can be read again as what it is. -/
theorem ReadableProperty.read {input : List SourceLine} {index : Nat}
    (readable : ReadableProperty input index) :
    ∃ header, PropertyHeader.read (some index) input = .ok header := by
  obtain ⟨line, keyword, signature, present, named, stated⟩ := readable
  have leads := Statement.leads_of_declarationKeyword (by decide) named
  have before : Reading.sliceUpTo (lineTokens line.text) keyword =
      .ok ((lineTokens line.text).take keyword) := by
    have within := leads.within
    rw [Reading.sliceUpTo, Reading.slice, if_pos ⟨Nat.zero_le _, by omega⟩, List.drop_zero]
  refine ⟨⟨signature, propertyModifiers ((lineTokens line.text).take keyword)⟩, ?_⟩
  simp only [PropertyHeader.read, Reading.require, present, Reading.ok_bind,
    ← lineTokens.eq_def, named, stated, before, Reading.pure_eq_ok]

/-- What a line does to the pending header: it leaves it, clears it, or is a property header
itself and is remembered as the pending one. -/
inductive HeaderChange (draft : Draft) (statement : Statement) (tokens : List Token)
    (after : Option Nat) : Prop
  | kept (same : after = draft.nesting.propertyHeader)
  | cleared (none : after = none)
  | set (keyword : Nat) (signature : Signature) (is : statement = .property keyword)
      (stated : Signature.read .property tokens keyword = .ok signature)
      (here : after = some draft.cursor)

/-- An `End` line for anything but a property keeps the pending header. -/
theorem Nesting.closeTarget_propertyHeader (nesting : Nesting) (target : Token) :
    (nesting.closeTarget target).1.propertyHeader = nesting.propertyHeader := by
  fun_cases closeTarget nesting target <;> rfl

/-- What a rule does to the pending header when it accepts its line. -/
theorem Statement.rule_propertyHeader (statement : Statement) {text : String}
    {tokens : List Token} {draft after : Draft}
    (ran : (statement.rule text tokens).run draft = .ok () after) :
    HeaderChange draft statement tokens after.nesting.propertyHeader := by
  cases makes_of_run ran with
  | declaration =>
    rw [Draft.register_frame]
    exact .kept rfl
  | endProperty => exact .cleared rfl
  | endBlock =>
    rw [Draft.reportUnless_eq, Draft.reportAll_eq]
    exact .kept (draft.nesting.closeTarget_propertyHeader _)
  | forLoop =>
    rw [Draft.reportAll_eq]
    exact .kept rfl
  | function =>
    rw [Draft.reportAll_eq, Draft.startFunction_frame]
    exact .kept rfl
  | accessor =>
    rw [Draft.startFunction_frame]
    exact .kept rfl
  | loopEnd =>
    rw [Draft.reportUnless_eq, Draft.reportAll_eq]
    exact .kept rfl
  | nextLoop =>
    rw [Draft.reportUnless_eq, Draft.reportAll_eq]
    exact .kept (by rw [Draft.emit, Draft.renest, Nesting.afterNext_frame])
  | pendingProperty accessors reading => exact .set _ _ rfl reading rfl
  | property =>
    rw [Draft.registerProperty_frame]
    exact .kept rfl
  | other => exact .kept (congrArg Nesting.propertyHeader (draft.passLine_nesting tokens))
  | _ => exact .kept rfl

namespace Draft

variable {draft after : Draft} {text : String}

/-- What a line does to the pending header, accepted or not, and that the conversion stays
where it is. -/
theorem convertLine_propertyHeader (converted : draft.convertLine text = .ok after) :
    HeaderChange draft (lineStatement text) (lineTokens text) after.nesting.propertyHeader ∧
      after.input = draft.input ∧ after.cursor = draft.cursor := by
  rcases draft.convertLine_cases text with ⟨accepted, ran, same⟩ | ⟨cause, -, same⟩
  · obtain rfl := Except.ok.inj (converted.symm.trans same)
    obtain ⟨notices, continues, -⟩ := Statement.rule_continues _ ran
    exact ⟨Statement.rule_propertyHeader _ ran, continues.input, continues.cursor⟩
  · obtain rfl := Except.ok.inj (converted.symm.trans same)
    obtain ⟨words, continues⟩ := Continues.passLine (draft.report (.malformed cause))
      (lineTokens text)
    have nesting := (draft.report (.malformed cause)).passLine_nesting (lineTokens text)
    exact ⟨.kept (congrArg Nesting.propertyHeader nesting), continues.input, continues.cursor⟩

/-- Converting the line that the draft has come to keeps the pending header readable. -/
theorem PendingReadable.convertLine {line : SourceLine} (valid : draft.PendingReadable)
    (here : draft.input[draft.cursor]? = some line)
    (converted : draft.convertLine line.text = .ok after) : after.PendingReadable := by
  obtain ⟨change, input, cursor⟩ := convertLine_propertyHeader converted
  intro index pending
  rw [input, cursor]
  cases change with
  | kept same => exact valid index (same.symm.trans pending)
  | cleared none =>
    rw [none] at pending
    cases pending
  | set keyword signature is stated header =>
    obtain rfl : draft.cursor = index := Option.some.inj (header.symm.trans pending)
    have form := Statement.classify_form line.text (lineTokens line.text)
    rw [← lineStatement, is] at form
    exact ⟨Nat.le_refl _, line, keyword, signature, here,
      Statement.declarationKeyword_of_opening form, stated⟩

/-- Going on to a later line keeps the pending header readable. -/
theorem PendingReadable.moveTo (valid : draft.PendingReadable) {cursor : Nat}
    (further : draft.cursor ≤ cursor) (line : SourceLine) :
    (draft.moveTo cursor line).PendingReadable := by
  intro index pending
  obtain ⟨passed, readable⟩ := valid index pending
  exact ⟨Nat.le_trans passed further, readable⟩

/-- Converting the rest of a source, line by line, keeps the pending header readable at every
stage. The induction is on the lines that are left, which are those of the source from the
cursor on. -/
theorem PendingReadable.trace {lines : List SourceLine} {cursor : Nat}
    (valid : draft.PendingReadable) (further : draft.cursor ≤ cursor)
    (rest : draft.input.drop cursor = lines) :
    ∀ stage ∈ draft.trace cursor lines,
      (stage.before.input = draft.input ∧ stage.before.PendingReadable) ∧
        stage.after.input = draft.input ∧ stage.after.PendingReadable := by
  induction lines generalizing draft cursor with
  | nil =>
    intro stage none
    exact absurd none List.not_mem_nil
  | cons line others inductionHypothesis =>
    have moved := valid.moveTo further line
    have here : (draft.moveTo cursor line).input[(draft.moveTo cursor line).cursor]? =
        some line := by
      change draft.input[cursor]? = some line
      rw [← List.head?_drop, rest, List.head?_cons]
    obtain ⟨after, converted⟩ := (draft.moveTo cursor line).convertLine_ok line.text
    have kept := moved.convertLine here converted
    obtain ⟨-, input, atCursor⟩ := convertLine_propertyHeader converted
    have behind : after.input.drop (cursor + 1) = others := by
      rw [input]
      change draft.input.drop (cursor + 1) = others
      rw [← List.tail_drop, rest, List.tail_cons]
    have passed : after.cursor ≤ cursor + 1 := by
      rw [atCursor]
      exact Nat.le_succ cursor
    have later := inductionHypothesis kept passed behind
    simp only [Draft.trace, converted]
    intro stage member
    rcases List.mem_cons.mp member with rfl | behind
    · exact ⟨⟨rfl, moved⟩, input, kept⟩
    · obtain ⟨⟨before, beforeValid⟩, behind, behindValid⟩ := later stage behind
      exact ⟨⟨before.trans input, beforeValid⟩, behind.trans input, behindValid⟩

/-- A conversion has one stage for every line. -/
theorem trace_texts (draft : Draft) (cursor : Nat) (lines : List SourceLine) :
    (draft.trace cursor lines).map Stage.text = lines.map SourceLine.text := by
  induction lines generalizing draft cursor with
  | nil => rfl
  | cons line rest inductionHypothesis =>
    obtain ⟨after, done⟩ := (draft.moveTo cursor line).convertLine_ok line.text
    simp only [trace, done, List.map_cons, inductionHypothesis]

end Draft

namespace Reading

variable {α β : Type}

/-- A reading in two steps is refused in the first or in the second. -/
theorem bind_refused {reading : Reading α} {next : α → Reading β} {obstacle : Obstacle}
    (refused : (reading >>= next) = .error obstacle) :
    reading = .error obstacle ∨ ∃ value, reading = .ok value ∧ next value = .error obstacle := by
  cases reading with
  | error found =>
    cases refused
    exact .inl rfl
  | ok value => exact .inr ⟨value, rfl, refused⟩

end Reading

/-- The parameter list that an accessor states is refused only because it is not closed or
because of a parameter in it. -/
theorem readAccessorParameters_refused {tokens : List Token} {keyword : Nat} {cause : Malformed}
    (refused : readAccessorParameters tokens keyword = .error (.malformed cause)) :
    OwnParametersRefused tokens keyword cause := by
  unfold readAccessorParameters at refused
  split at refused
  · next opened =>
    refine ⟨opened, ?_⟩
    cases closed : Token.closing tokens (keyword + 1) with
    | none =>
      rw [closed] at refused
      cases refused
      exact .inl ⟨rfl, rfl⟩
    | some close =>
      rw [closed] at refused
      simp only [Reading.require, Reading.ok_bind] at refused
      unfold Reading.slice at refused
      split at refused
      · exact .inr ⟨close, rfl, refused⟩
      · cases refused
  · cases refused

/-- Why an accessor is refused while what is pending can be read again: no header is pending,
or its own parameter list is at fault. -/
theorem AccessorHeader.read_refused {draft : Draft} {tokens : List Token} {keyword : Nat}
    {cause : Malformed} (valid : draft.PendingReadable)
    (refused : AccessorHeader.read draft tokens keyword = .error (.malformed cause)) :
    draft.nesting.propertyHeader = none ∧ cause = ⟨.propertyAccessor, .noPropertyHeader⟩ ∨
      draft.nesting.propertyHeader.isSome = true ∧ OwnParametersRefused tokens keyword cause := by
  cases pending : draft.nesting.propertyHeader with
  | none =>
    simp only [AccessorHeader.read, pending, PropertyHeader.read, Reading.require, Reading.refuse,
      Reading.error_bind] at refused
    cases refused
    exact .inl ⟨rfl, rfl⟩
  | some index =>
    refine .inr ⟨rfl, readAccessorParameters_refused ?_⟩
    obtain ⟨header, again⟩ := (valid index pending).2.read
    simp only [AccessorHeader.read, pending, again, Reading.ok_bind] at refused
    -- Asking for the keyword or for the words before it cannot refuse the line.
    have keywordRead : RefusesFor (fun _ => False) (Reading.token tokens keyword) :=
      .token tokens keyword
    have wordsRead : RefusesFor (fun _ => False) (Reading.sliceUpTo tokens keyword) :=
      .sliceUpTo tokens keyword
    rcases Reading.bind_refused refused with stopped | ⟨word, -, refused⟩
    · exact (keywordRead cause stopped).elim
    · rcases Reading.bind_refused refused with stopped | ⟨parameters, -, refused⟩
      · exact stopped
      · rcases Reading.bind_refused refused with stopped | ⟨words, -, ⟨⟩⟩
        exact (wordsRead cause stopped).elim

/-- An inheritance clause is refused for no reason that lies in a property header. -/
theorem readInheritance_refuses_line (draft : Draft) (tokens : List Token) :
    RefusesFor (·.isOfHeader = false) (readInheritance draft tokens) := by
  unfold readInheritance
  refine (RefusesFor.require _ _ (by rfl)).bind fun container => ?_
  refine (RefusesFor.sliceFrom _ _).bind fun behind => ?_
  refine ((readBases_refuses _).weaken fun _ => Reason.isOfHeader_of_isOfLine).bind fun bases => ?_
  split
  · exact .refuse _ rfl
  · exact (RefusesFor.require _ _ (by rfl)).bind fun _ => .ok _

namespace Draft.PendingReadable

variable {draft : Draft} {text : String} {cause : Malformed}

/-- An accessor is refused for want of a header or for its own parameters. -/
theorem accessor_refused (valid : draft.PendingReadable) {keyword : Nat}
    (is : lineStatement text = .accessor keyword) (refused : draft.refusal text = some cause) :
    draft.nesting.propertyHeader = none ∧ cause = ⟨.propertyAccessor, .noPropertyHeader⟩ ∨
      draft.nesting.propertyHeader.isSome = true ∧
        OwnParametersRefused (lineTokens text) keyword cause := by
  have stopped := run_of_refusal refused
  rw [is] at stopped
  have settled := (Rule.accessor_run (lineTokens text) keyword draft).symm.trans stopped
  exact AccessorHeader.read_refused valid (settle_error settled).1

/-- No line is refused for a reason that blames the pending header. -/
theorem refusal (valid : draft.PendingReadable) (refused : draft.refusal text = some cause) :
    cause.reason.isOfHeader = false := by
  have stopped := run_of_refusal refused
  by_cases isAccessor : ∃ keyword, lineStatement text = .accessor keyword
  · obtain ⟨keyword, is⟩ := isAccessor
    rcases valid.accessor_refused is refused with ⟨-, rfl⟩ | ⟨-, -, own⟩
    · rfl
    · rcases own with ⟨-, rfl⟩ | ⟨close, -, malformed⟩
      · rfl
      · exact Reason.isOfHeader_of_isOfLine (readParameters_refuses _ cause malformed)
  · by_cases isBaseList : lineStatement text = .inheritance
    · rw [isBaseList] at stopped
      have settled := (Rule.inheritance_run (lineTokens text) draft).symm.trans stopped
      exact readInheritance_refuses_line draft _ cause (settle_error settled).1
    · exact Reason.isOfHeader_of_isOfLine
        (Statement.rule_refuses isBaseList (fun keyword is => isAccessor ⟨keyword, is⟩) stopped)

end Draft.PendingReadable

/-- The stages of converting a source, one for every prepared line, all have the prepared
lines for their input. At each of them, before and behind the line, a pending property header
is at a line that the conversion has come to, and reading that line again finds the keyword of
a property and a signature. So a line that is an accessor is refused only while no header is
pending or because of its own parameter list, and no line is refused for a reason that blames
the header. -/
theorem pending_property_is_readable (source : String) (options : Options) :
    let input := SourceLine.prepare source options.splitDeclarations
    let stages := (Draft.start options input).trace 0 input
    (∃ last, (Draft.start options input).convertFrom 0 input = .ok last ∧
      (Draft.start options input).Runs stages last) ∧
    stages.map Stage.text = input.map SourceLine.text ∧
    ∀ stage ∈ stages,
      (∀ draft ∈ [stage.before, stage.after], draft.input = input ∧
        ∀ index, draft.nesting.propertyHeader = some index →
          index ≤ draft.cursor ∧ index < input.length ∧ ReadableProperty input index ∧
          ∃ header, PropertyHeader.read (some index) input = .ok header) ∧
      (∀ keyword cause, lineStatement stage.text = .accessor keyword →
        stage.before.refusal stage.text = some cause →
        stage.before.nesting.propertyHeader = none ∧
            cause = ⟨.propertyAccessor, .noPropertyHeader⟩ ∨
          stage.before.nesting.propertyHeader.isSome = true ∧
            OwnParametersRefused (lineTokens stage.text) keyword cause) ∧
      ∀ cause, stage.before.refusal stage.text = some cause →
        cause.reason ≠ .propertyHeaderOutOfRange ∧ cause.reason ≠ .headerWithoutProperty := by
  intro input stages
  obtain ⟨last, converted⟩ := (Draft.start options input).convertFrom_ok 0 input
  refine ⟨⟨last, converted, Draft.runs_trace converted⟩, Draft.trace_texts _ _ _, ?_⟩
  intro stage member
  have begun : (Draft.start options input).PendingReadable := nofun
  have along := begun.trace (Nat.le_refl 0) rfl stage member
  refine ⟨?_, fun keyword cause is refused => ?_, fun cause refused => ?_⟩
  · intro draft side
    obtain ⟨sameInput, valid⟩ : draft.input = input ∧ draft.PendingReadable := by
      have sides : draft = stage.before ∨ draft = stage.after := by simpa using side
      rcases sides with rfl | rfl
      · exact along.1
      · exact along.2
    refine ⟨sameInput, fun index pending => ?_⟩
    obtain ⟨passed, readable⟩ := valid index pending
    rw [sameInput] at readable
    exact ⟨passed, readable.lt_length, readable, readable.read⟩
  · exact along.1.2.accessor_refused is refused
  · have innocent := along.1.2.refusal refused
    constructor <;> intro blamed <;> simp [blamed, Reason.isOfHeader] at innocent

/-- The second accessor comes after two other lines. What it finds at the remembered position
is the property, and it is refused for its own parameter list. -/
theorem pending_property_is_readable_unclosed :
    let source := "Property P As Integer\nGet\nEnd Get\nFrob()\nSet(v"
    let input := SourceLine.prepare source true
    ∃ stage ∈ (Draft.start {} input).trace 0 input,
      lineStatement stage.text = .accessor 0 ∧ stage.before.cursor = 4 ∧
      stage.before.nesting.propertyHeader = some 0 ∧
      stage.before.refusal stage.text = some ⟨.propertyAccessor, .unclosedParameters⟩ ∧
      ReadableProperty input 0 ∧
      OwnParametersRefused (lineTokens stage.text) 0 ⟨.propertyAccessor, .unclosedParameters⟩ := by
  intro source input
  have known : (((Draft.start {} input).trace 0 input)[4]?.map fun stage =>
      (lineStatement stage.text, stage.before.cursor, stage.before.nesting.propertyHeader,
        stage.before.refusal stage.text)) =
      some (.accessor 0, 4, some 0, some ⟨.propertyAccessor, .unclosedParameters⟩) := by
    decide +kernel
  obtain ⟨stage, present, facts⟩ := Option.map_eq_some_iff.mp known
  obtain ⟨is, cursor, pending, refused⟩ : lineStatement stage.text = .accessor 0 ∧
      stage.before.cursor = 4 ∧ stage.before.nesting.propertyHeader = some 0 ∧
      stage.before.refusal stage.text = some ⟨.propertyAccessor, .unclosedParameters⟩ := by
    simpa using facts
  have member := List.mem_of_getElem? present
  obtain ⟨valid, accessor, -⟩ := (pending_property_is_readable source {}).2.2 stage member
  obtain ⟨-, -, readable, -⟩ := (valid stage.before (by simp)).2 0 pending
  rcases accessor 0 _ is refused with ⟨none, -⟩ | ⟨-, own⟩
  · rw [pending] at none
    cases none
  · exact ⟨stage, member, is, cursor, pending, refused, readable, own⟩

end BasicToSharp
