import BasicToSharp.Proofs.RuleAgreement

/-!
# Reasons for refusing a line

Most reasons for which a line is refused are found in the line itself. A few are not: they
say that something which the draft remembers of earlier lines, a header that was written or
a property that waits for its accessors, is not where it should be. Only base lists and
accessors go back to such things, so no other statement can be refused for these reasons.
The readers are gone through one by one, each from the readers it calls.
-/

namespace BasicToSharp

/-- True of a reason that is found in the line, and not in what is remembered of others. -/
def Reason.isOfLine : Reason → Bool
  | .headerLineNotFound | .noPropertyHeader => false
  | .propertyHeaderOutOfRange | .headerWithoutProperty => false
  | _ => true

namespace Reading

variable {α β : Type} {reasons : Reason → Prop}

/-- Every refusal of a reading is for one of these reasons. -/
def RefusesFor (reasons : Reason → Prop) (reading : Reading α) : Prop :=
  ∀ cause, reading = .error (.malformed cause) → reasons cause.reason

/-- Every refusal of a reading is for a reason found in the line. -/
abbrev RefusesLine (reading : Reading α) : Prop := RefusesFor (·.isOfLine = true) reading

namespace RefusesFor

/-- A reading that succeeds is not refused. -/
theorem ok (value : α) : RefusesFor reasons (.ok value) := nofun

/-- A reading in two steps, the second of which is given what the first has read. -/
theorem bindRead {reading : Reading α} {next : α → Reading β} (first : RefusesFor reasons reading)
    (rest : ∀ value, reading = .ok value → RefusesFor reasons (next value)) :
    RefusesFor reasons (reading >>= next) := by
  intro cause refused
  cases reading with
  | error obstacle =>
    cases refused
    exact first cause rfl
  | ok value => exact rest value rfl cause refused

/-- A reading in two steps is refused for the reasons of either. -/
theorem bind {reading : Reading α} {next : α → Reading β} (first : RefusesFor reasons reading)
    (rest : ∀ value, RefusesFor reasons (next value)) :
    RefusesFor reasons (reading >>= next) :=
  first.bindRead fun value _ => rest value

/-- A refusal has its own reason. -/
theorem refuse (construct : Construct) {reason : Reason} (allowed : reasons reason) :
    RefusesFor reasons (Reading.refuse construct reason : Reading α) := by
  rintro _ ⟨⟩
  exact allowed

/-- What is required is refused for want of it only. -/
theorem require (value : Option α) (construct : Construct) {reason : Reason}
    (allowed : reasons reason) : RefusesFor reasons (Reading.require value construct reason) := by
  cases value with
  | none => exact refuse construct allowed
  | some value => exact ok value

/-- Taking a slice is never refused for its form. -/
theorem slice (tokens : List Token) (first last : Nat) :
    RefusesFor reasons (Reading.slice tokens first last) := by
  unfold Reading.slice
  split <;> nofun

/-- Taking what follows a position is never refused for its form. -/
theorem sliceFrom (tokens : List Token) (first : Nat) :
    RefusesFor reasons (Reading.sliceFrom tokens first) := slice tokens first _

/-- Taking what precedes a position is never refused for its form. -/
theorem sliceUpTo (tokens : List Token) (last : Nat) :
    RefusesFor reasons (Reading.sliceUpTo tokens last) := slice tokens 0 last

/-- Reading a token is never refused for its form. -/
theorem token (tokens : List Token) (index : Nat) :
    RefusesFor reasons (Reading.token tokens index) := by
  unfold Reading.token
  split <;> nofun

/-- A list is refused for the reasons of its members. -/
theorem mapM {read : α → Reading β} (each : ∀ value, RefusesFor reasons (read value))
    (values : List α) : RefusesFor reasons (values.mapM read) := by
  induction values with
  | nil => exact ok []
  | cons value rest inductionHypothesis =>
    rw [List.mapM_cons]
    exact (each value).bind fun _ => inductionHypothesis.bind fun _ => ok _

/-- What is refused for some reasons is refused for any wider class of them. -/
theorem weaken {others : Reason → Prop} {reading : Reading α} (refuses : RefusesFor reasons reading)
    (weaker : ∀ reason, reasons reason → others reason) : RefusesFor others reading :=
  fun cause refused => weaker _ (refuses cause refused)

end RefusesFor

/-- A type is refused for reasons that lie in the line. -/
theorem typeRef_refuses (tokens : List Token) : RefusesLine (typeRef tokens) := by
  intro cause refused
  unfold typeRef at refused
  split at refused
  · cases refused
  · next reading =>
    cases refused
    rcases TypeRef.refusal_of_read reading with rfl | ⟨found, rfl⟩ <;> rfl

/-- A written type is refused for reasons that lie in the line. -/
theorem typeText_refuses (tokens : List Token) : RefusesLine (typeText tokens) :=
  (typeRef_refuses tokens).bind fun _ => .ok _

/-- An `As` clause is refused for reasons that lie in the line. -/
theorem asClause_refuses (tokens : List Token) (index : Nat) :
    RefusesLine (asClause tokens index) := by
  unfold asClause
  split
  · exact (RefusesFor.sliceFrom _ _).bind fun _ => (typeText_refuses _).bind fun _ => .ok _
  · exact .ok _

end Reading

open Reading (RefusesFor RefusesLine typeText_refuses asClause_refuses)

section Headers

/-- A container header is refused for reasons that lie in the line. -/
theorem ContainerHeader.read_refuses (kind : ContainerKind) (tokens : List Token) (keyword : Nat) :
    RefusesLine (ContainerHeader.read kind tokens keyword) := by
  unfold ContainerHeader.read
  simp only
  split
  · split
    · exact (RefusesFor.sliceFrom _ _).bind fun _ => (typeText_refuses _).bind fun _ =>
        (RefusesFor.sliceUpTo _ _).bind fun _ => .ok _
    · exact (RefusesFor.sliceUpTo _ _).bind fun _ => .ok _
  · exact .refuse _ rfl

/-- A namespace header is refused for reasons that lie in the line. -/
theorem readNamespace_refuses (tokens : List Token) : RefusesLine (readNamespace tokens) := by
  unfold readNamespace
  split
  · exact .refuse _ rfl
  · exact .ok _

/-- Base types are refused for reasons that lie in the line. -/
theorem readBases_refuses (parts : List (List Token)) : RefusesLine (readBases parts) := by
  induction parts with
  | nil => exact .ok []
  | cons part rest inductionHypothesis =>
    refine (typeText_refuses part).bind fun ⟨base, used⟩ => ?_
    simp only
    split
    · exact inductionHypothesis.bind fun _ => .ok _
    · exact .refuse _ rfl

/-- An enum header is refused for reasons that lie in the line. -/
theorem EnumHeader.read_refuses (tokens : List Token) (keyword : Nat) :
    RefusesLine (EnumHeader.read tokens keyword) := by
  unfold EnumHeader.read
  simp only
  split
  · split
    · exact (RefusesFor.sliceUpTo _ _).bind fun _ => .ok _
    · split
      · exact (RefusesFor.sliceFrom _ _).bind fun _ => (typeText_refuses _).bind fun _ =>
          (RefusesFor.sliceUpTo _ _).bind fun _ => .ok _
      · exact .refuse _ rfl
  · exact .refuse _ rfl

end Headers

section Blocks

/-- A condition is refused for reasons that lie in the line. -/
theorem readCondition_refuses (construct : Construct) (tokens : List Token) :
    RefusesLine (readCondition construct tokens) := by
  unfold readCondition stripParentheses
  refine .bind ?_ fun inner => ?_
  · split
    · exact .slice _ _ _
    · exact .ok _
  · split
    · exact .refuse _ rfl
    · exact .ok _

/-- However it is written, a condition is refused for reasons that lie in the line. -/
theorem conditionBy_refuses (write : List Token → String) (construct : Construct)
    (tokens : List Token) : RefusesLine (conditionBy write construct tokens) :=
  (readCondition_refuses construct tokens).bind fun _ => .ok _

/-- A `Return` is refused for reasons that lie in the line. -/
theorem returnStatement_refuses (tokens : List Token) : RefusesLine (returnStatement tokens) := by
  refine (RefusesFor.sliceFrom _ _).bind fun value => ?_
  split <;> exact .ok _

/-- An `Exit` is refused for reasons that lie in the line. -/
theorem exitStatement_refuses (tokens : List Token) : RefusesLine (exitStatement tokens) := by
  unfold exitStatement
  split
  case h_7 => exact .refuse _ rfl
  all_goals exact .ok _

/-- The statement of a branch is refused for reasons that lie in the line. -/
theorem branchStatement_refuses (tokens : List Token) : RefusesLine (branchStatement tokens) := by
  unfold branchStatement
  split
  · exact .refuse _ rfl
  · exact returnStatement_refuses tokens
  · exact exitStatement_refuses tokens
  · exact .ok _

/-- The branches behind `Then` are refused for reasons that lie in the line. -/
theorem branchesText_refuses (tokens : List Token) : RefusesLine (branchesText tokens) := by
  unfold branchesText
  split
  · exact (RefusesFor.sliceUpTo _ _).bind fun _ => (branchStatement_refuses _).bind fun _ =>
      (RefusesFor.sliceFrom _ _).bind fun _ => (branchStatement_refuses _).bind fun _ => .ok _
  · exact branchStatement_refuses tokens

/-- An `If` line is refused for reasons that lie in it. -/
theorem IfLine.read_refuses (tokens : List Token) : RefusesLine (IfLine.read tokens) := by
  unfold IfLine.read
  split
  · exact (RefusesFor.sliceFrom _ _).bind fun _ => (conditionBy_refuses _ _ _).bind fun _ => .ok _
  · refine (RefusesFor.slice _ _ _).bind fun _ => (conditionBy_refuses _ _ _).bind fun _ =>
      (RefusesFor.sliceFrom _ _).bind fun rest => ?_
    split
    · exact .ok _
    · exact (branchesText_refuses rest).bind fun _ => .ok _

/-- The header of a further branch is refused for reasons that lie in the line. -/
theorem elseIfHeader_refuses (tokens : List Token) : RefusesLine (elseIfHeader tokens) :=
  (RefusesFor.token _ _).bind fun _ => (RefusesFor.slice _ _ _).bind fun _ =>
    (conditionBy_refuses _ _ _).bind fun _ => .ok _

/-- The range of a loop is refused for reasons that lie in the line. -/
theorem LoopRange.read_refuses (tokens : List Token) (equals : Nat) :
    RefusesLine (LoopRange.read tokens equals) := by
  have checked : ∀ (range : LoopRange) (isMissing : Bool), RefusesLine
      (if isMissing then Reading.refuse .forLoop .missingBound else .ok range) := by
    intro range isMissing
    split
    · exact .refuse _ rfl
    · exact .ok _
  unfold LoopRange.read
  refine (RefusesFor.require _ _ (by rfl)).bind fun toIndex => ?_
  refine (RefusesFor.slice _ _ _).bind fun start => (RefusesFor.slice _ _ _).bind fun stop => ?_
  simp only
  split
  · exact (RefusesFor.sliceFrom _ _).bind fun _ => checked _ _
  · exact checked _ _

/-- A counted loop is refused for reasons that lie in the line. -/
theorem LoopHeader.readFor_refuses (nesting : Nesting) (tokens : List Token) :
    RefusesLine (LoopHeader.readFor nesting tokens) := by
  unfold LoopHeader.readFor
  simp only
  split
  · refine (asClause_refuses _ _).bind fun clause => ?_
    split
    · exact (LoopRange.read_refuses _ _).bind fun _ => .ok _
    · exact .refuse _ rfl
  · exact .refuse _ rfl

/-- A loop over a collection is refused for reasons that lie in the line. -/
theorem LoopHeader.readForEach_refuses (tokens : List Token) :
    RefusesLine (LoopHeader.readForEach tokens) := by
  unfold LoopHeader.readForEach
  simp only
  split
  · refine (asClause_refuses _ _).bind fun clause => ?_
    split
    · refine (RefusesFor.sliceFrom _ _).bind fun collection => ?_
      split
      · exact .refuse _ rfl
      · exact .ok _
    · exact .refuse _ rfl
  · exact .refuse _ rfl

/-- A loop header is refused for reasons that lie in the line. -/
theorem LoopHeader.read_refuses (nesting : Nesting) (tokens : List Token) :
    RefusesLine (LoopHeader.read nesting tokens) := by
  unfold LoopHeader.read
  split
  · exact LoopHeader.readForEach_refuses tokens
  · exact LoopHeader.readFor_refuses nesting tokens

/-- A `Do` line is refused for reasons that lie in it. -/
theorem readDo_refuses (tokens : List Token) : RefusesLine (readDo tokens) := by
  unfold readDo
  simp only
  split
  · exact .ok _
  · split
    · exact (RefusesFor.sliceFrom _ _).bind fun _ => (conditionBy_refuses _ _ _).bind fun _ => .ok _
    · split
      · exact (RefusesFor.sliceFrom _ _).bind fun _ =>
          (conditionBy_refuses _ _ _).bind fun _ => .ok _
      · exact .refuse _ rfl

/-- A `Loop` line is refused for reasons that lie in it. -/
theorem readLoopEnd_refuses (kind : Option DoKind) (tokens : List Token) :
    RefusesLine (readLoopEnd kind tokens) := by
  unfold readLoopEnd
  simp only
  split
  · exact .ok _
  · split
    · exact .ok _
    · split
      · exact (RefusesFor.sliceFrom _ _).bind fun _ =>
          (conditionBy_refuses _ _ _).bind fun _ => .ok _
      · split
        · exact (RefusesFor.sliceFrom _ _).bind fun _ =>
            (conditionBy_refuses _ _ _).bind fun _ => .ok _
        · exact .refuse _ rfl

end Blocks

section Members

/-- The type of a parameter is refused for reasons that lie in the line. -/
theorem readParameterType_refuses (tokens : List Token) (index : Nat) :
    RefusesLine (readParameterType tokens index) :=
  (asClause_refuses tokens index).bind fun _ => .ok _

/-- A default value is refused for reasons that lie in the line. -/
theorem readDefault_refuses (tokens : List Token) (index : Nat) :
    RefusesLine (readDefault tokens index) := by
  unfold readDefault
  split
  · refine (RefusesFor.sliceFrom _ _).bind fun value => ?_
    split
    · exact .refuse _ rfl
    · exact .ok _
  · split
    · exact (RefusesFor.token _ _).bind fun _ => .refuse _ rfl
    · exact .ok _

/-- A parameter is refused for reasons that lie in the line. -/
theorem readParameter_refuses (tokens : List Token) : RefusesLine (readParameter tokens) := by
  unfold readParameter
  simp only
  split
  · exact (readParameterType_refuses _ _).bind fun _ =>
      (readDefault_refuses _ _).bind fun _ => .ok _
  · exact .refuse _ rfl

/-- Parameters are refused for reasons that lie in the line. -/
theorem readParameters_refuses (tokens : List Token) : RefusesLine (readParameters tokens) :=
  .mapM readParameter_refuses _

/-- A signature is refused for reasons that lie in the line. -/
theorem Signature.read_refuses (construct : Construct) (tokens : List Token) (keyword : Nat) :
    RefusesLine (Signature.read construct tokens keyword) := by
  have generics : ∀ index, RefusesLine (readGenerics construct tokens index) := by
    intro index
    unfold readGenerics
    split
    · exact (RefusesFor.require _ _ (by rfl)).bind fun _ =>
        (RefusesFor.slice _ _ _).bind fun _ => .ok _
    · exact .ok _
  have list : ∀ index, RefusesLine (readParameterList construct tokens index) := by
    intro index
    unfold readParameterList
    split
    · exact (RefusesFor.require _ _ (by rfl)).bind fun _ => (RefusesFor.slice _ _ _).bind fun _ =>
        (readParameters_refuses _).bind fun _ => .ok _
    · exact .ok _
  unfold Signature.read
  simp only
  split
  · exact (generics _).bind fun _ => (list _).bind fun _ =>
      (asClause_refuses _ _).bind fun _ => .ok _
  · exact .refuse _ rfl

/-- A function header is refused for reasons that lie in the line. -/
theorem FunctionHeader.read_refuses (nesting : Nesting) (tokens : List Token) (keyword : Nat)
    (isSub : Bool) : RefusesLine (FunctionHeader.read nesting tokens keyword isSub) := by
  have head : ∀ signature modifiers,
      RefusesLine (nesting.functionHead signature isSub modifiers) := by
    intro signature modifiers
    unfold Nesting.functionHead
    split
    · split
      · exact .ok _
      · split
        · exact (RefusesFor.require _ _ (by rfl)).bind fun _ => .ok _
        · exact .ok _
    · exact .ok _
  unfold FunctionHeader.read
  exact (Signature.read_refuses _ _ _).bind fun _ => (RefusesFor.sliceUpTo _ _).bind fun _ =>
    (head _ _).bind fun _ => (RefusesFor.sliceFrom _ _).bind fun _ => .ok _

/-- An automatic property is refused for reasons that lie in the line. -/
theorem PropertyLine.read_refuses (nesting : Nesting) (tokens : List Token) (keyword : Nat) :
    RefusesLine (PropertyLine.read nesting tokens keyword) := by
  have type : ∀ index, RefusesLine (readPropertyType tokens index) := by
    intro index
    unfold readPropertyType
    split
    · refine (RefusesFor.sliceFrom _ _).bind fun _ => (typeText_refuses _).bind fun found => ?_
      simp only
      split
      · split
        · exact (RefusesFor.require _ _ (by rfl)).bind fun _ =>
            (RefusesFor.slice _ _ _).bind fun _ => .ok _
        · exact .ok _
      · exact .ok _
    · exact .ok _
  have value : ∀ construction index, RefusesLine (readPropertyValue construction tokens index) := by
    intro construction index
    unfold readPropertyValue
    split
    · split
      · exact .refuse _ rfl
      · exact (RefusesFor.sliceFrom _ _).bind fun _ => .ok _
    · split
      · exact (RefusesFor.token _ _).bind fun _ => .refuse _ rfl
      · exact .ok _
  unfold PropertyLine.read
  simp only
  split
  · exact (type _).bind fun _ => (value _ _).bind fun _ => (RefusesFor.sliceUpTo _ _).bind fun _ =>
      .ok _
  · exact .refuse _ rfl

/-- A construction is refused for reasons that lie in the line. -/
theorem Construction.read_refuses (tokens : List Token) :
    RefusesLine (Construction.read tokens) := by
  unfold Construction.read
  refine (typeText_refuses _).bind fun found => ?_
  simp only
  split
  · exact (RefusesFor.require _ _ (by rfl)).bind fun _ =>
      (RefusesFor.slice _ _ _).bind fun _ => .ok _
  · exact .ok _

/-- What a variable is given is refused for reasons that lie in the line. -/
theorem Given.read_refuses (symbols : Symbols) (hasDimensions : Bool) (clause : TypeClause)
    (tokens : List Token) : RefusesLine (Given.read symbols hasDimensions clause tokens) := by
  have whole : ∀ value, RefusesLine (wholeConstruction value) := by
    intro value
    unfold wholeConstruction
    split
    · exact (RefusesFor.sliceFrom _ _).bind fun _ => (Construction.read_refuses _).bind fun _ =>
        .ok _
    · exact .ok _
  have literal : ∀ value, RefusesLine (arrayLiteral value) := by
    intro value
    unfold arrayLiteral
    split
    · refine (RefusesFor.sliceFrom _ _).bind fun _ => ?_
      split
      · exact .ok _
      · exact (RefusesFor.sliceFrom _ _).bind fun _ => .ok _
    · exact .ok _
  have value : ∀ (given : Given) value,
      RefusesLine (given.withValue symbols hasDimensions value) := by
    intro given value
    unfold Given.withValue
    refine (whole value).bind fun built => ?_
    split
    · exact .ok _
    · refine (literal value).bind fun found => ?_
      split <;> exact .ok _
  unfold Given.read
  simp only
  split
  · refine (RefusesFor.sliceFrom _ _).bind fun found => ?_
    split
    · exact .refuse _ rfl
    · exact value _ _
  · split
    · exact (RefusesFor.token _ _).bind fun _ => .refuse _ rfl
    · exact .ok _

/-- A declaration is refused for reasons that lie in the line. -/
theorem DeclarationLine.read_refuses (symbols : Symbols) (nesting : Nesting) (tokens : List Token) :
    RefusesLine (DeclarationLine.read symbols nesting tokens) := by
  have dimensions : ∀ index, RefusesLine (readDimensions tokens index) := by
    intro index
    unfold readDimensions
    split
    · exact (RefusesFor.require _ _ (by rfl)).bind fun _ =>
        (RefusesFor.slice _ _ _).bind fun _ => .ok _
    · exact .ok _
  have clause : ∀ type index, RefusesLine (TypeClause.read type tokens index) := by
    intro type index
    unfold TypeClause.read
    split
    · split
      · exact (RefusesFor.sliceFrom _ _).bind fun _ => (Construction.read_refuses _).bind fun _ =>
          .ok _
      · exact (RefusesFor.sliceFrom _ _).bind fun _ => (typeText_refuses _).bind fun _ => .ok _
    · exact .ok _
  have array : ∀ base found, RefusesLine (arrayType base found) := by
    intro base found
    unfold arrayType
    split <;> nofun
  unfold DeclarationLine.read
  simp only
  split
  · refine (dimensions _).bind fun found => (clause _ _).bind fun _ =>
      (Given.read_refuses _ _ _ _).bind fun _ => ?_
    split
    · exact (array _ _).bind fun _ => .ok _
    · exact .ok _
  · exact .refuse _ rfl

/-- That a header line is not found is no reason that lies in a line. -/
theorem Reason.ne_of_isOfLine {reason : Reason} (ofLine : reason.isOfLine = true) :
    reason ≠ .headerLineNotFound := by
  rintro rfl
  cases ofLine

/-- An accessor goes back to its property: what it finds there may be refused for a reason
that is not of the line, but never for want of a container's header. -/
theorem AccessorHeader.read_refuses (draft : Draft) (tokens : List Token) (keyword : Nat) :
    RefusesFor (· ≠ .headerLineNotFound) (AccessorHeader.read draft tokens keyword) := by
  have property : RefusesFor (· ≠ .headerLineNotFound)
      (PropertyHeader.read draft.nesting.propertyHeader draft.input) :=
    (RefusesFor.require _ _ (by simp)).bind fun _ =>
      (RefusesFor.require _ _ (by simp)).bind fun _ =>
      (RefusesFor.require _ _ (by simp)).bind fun _ =>
        ((Signature.read_refuses _ _ _).weaken fun _ => Reason.ne_of_isOfLine).bind fun _ =>
          (RefusesFor.sliceUpTo _ _).bind fun _ => .ok _
  have parameters : RefusesLine (readAccessorParameters tokens keyword) := by
    unfold readAccessorParameters
    split
    · exact (RefusesFor.require _ _ (by rfl)).bind fun _ => (RefusesFor.slice _ _ _).bind fun _ =>
        readParameters_refuses _
    · exact .ok _
  exact property.bind fun _ => (RefusesFor.token _ _).bind fun _ =>
    (parameters.weaken fun _ => Reason.ne_of_isOfLine).bind fun _ =>
      (RefusesFor.sliceUpTo _ _).bind fun _ => .ok _

end Members

/-- Only base lists and accessors are refused for reasons that are not of the line. -/
theorem Statement.rule_refuses {statement : Statement} {text : String} {tokens : List Token}
    {draft left : Draft} {cause : Malformed} (isBaseList : statement ≠ .inheritance)
    (isAccessor : ∀ keyword, statement ≠ .accessor keyword)
    (stopped : (statement.rule text tokens).run draft = .error (.malformed cause) left) :
    cause.reason.isOfLine = true := by
  -- What is refused is what the reader of the rule refuses.
  have settled : ∀ {α : Type} {reading : Reading α} {write : α → Draft} {rule : Rule Unit},
      rule.run draft = draft.settle reading write → RefusesLine reading →
      rule.run draft = .error (.malformed cause) left → cause.reason.isOfLine = true := by
    intro α reading write rule run refuses stopped
    exact refuses cause (Draft.settle_error (run.symm.trans stopped)).1
  cases statement with
  | blank => cases stopped
  | comment => cases stopped
  | container kind keyword =>
    exact settled (Rule.containerHeader_run ..) (ContainerHeader.read_refuses _ _ _) stopped
  | declaration =>
    exact settled (Rule.declaration_run ..) (DeclarationLine.read_refuses _ _ _) stopped
  | doLoop => exact settled (Rule.doLoop_run ..) (readDo_refuses _) stopped
  | endBlock => cases (Rule.endBlock_run tokens draft).symm.trans stopped
  | exitJump => exact settled (Rule.exitJump_run ..) (exitStatement_refuses _) stopped
  | enumHeader keyword =>
    exact settled (Rule.enumHeader_run ..) (EnumHeader.read_refuses _ _) stopped
  | forLoop => exact settled (Rule.forLoop_run ..) (LoopHeader.read_refuses _ _) stopped
  | function keyword isSub =>
    exact settled (Rule.function_run ..) (FunctionHeader.read_refuses _ _ _ _) stopped
  | accessor keyword => exact absurd rfl (isAccessor keyword)
  | ifBranch => exact settled (Rule.ifBranch_run ..) (IfLine.read_refuses _) stopped
  | elseIfBranch => exact settled (Rule.elseIfBranch_run ..) (elseIfHeader_refuses _) stopped
  | elseBranch =>
    refine settled (Rule.elseBranch_run ..) ?_ stopped
    split
    · exact elseIfHeader_refuses _
    · exact .ok _
  | loopEnd => exact settled (Rule.loopEnd_run ..) (readLoopEnd_refuses _ _) stopped
  | namespaceHeader =>
    exact settled (Rule.namespaceHeader_run ..) (readNamespace_refuses _) stopped
  | nextLoop => exact settled (Rule.nextLoop_run ..) (.token _ _) stopped
  | property keyword =>
    have run := Rule.property_run tokens keyword draft
    split at run
    · exact settled run (Signature.read_refuses _ _ _) stopped
    · exact settled run (PropertyLine.read_refuses _ _ _) stopped
  | returnJump => exact settled (Rule.returnJump_run ..) (returnStatement_refuses _) stopped
  | whileLoop keyword =>
    refine settled (Rule.whileLoop_run ..) ?_ stopped
    exact (RefusesFor.sliceFrom _ _).bind fun _ => conditionBy_refuses _ _ _
  | inheritance => exact absurd rfl isBaseList
  | other => cases (Rule.passThrough_run tokens draft).symm.trans stopped

end BasicToSharp
