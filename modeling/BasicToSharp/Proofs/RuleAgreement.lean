import BasicToSharp.Conversion
import BasicToSharp.Proofs.DraftShape
import BasicToSharp.Proofs.StatementForm

/-!
# Rules on lines that are alike

Every rule is run, on one draft, with two lines that are alike. Since its reader agrees on
them, both runs are accepted and leave drafts of one shape, or both are refused for the
same cause. Rules are compared one by one, each through the agreement of its reader.

A line is alike to itself, and so no rule asks for a part that its line does not have: the
conversion of a line always gives a draft.
-/

namespace BasicToSharp

open Token (Alike AlikeFrom Outside)
open Reading (Agree AgreeLoosely)

/-- Two outcomes of a rule on one draft: both accept and leave drafts of one shape, or both
refuse for the same cause and leave the draft. -/
inductive SameOutcome (draft : Draft) :
    EStateM.Result Obstacle Draft Unit → EStateM.Result Obstacle Draft Unit → Prop
  | accepted {after after' : Draft} (same : after.shape = after'.shape) :
      SameOutcome draft (.ok () after) (.ok () after')
  | refused (cause : Malformed) :
      SameOutcome draft (.error (.malformed cause) draft) (.error (.malformed cause) draft)

section Rules

variable {α β : Type} {draft : Draft} {left right : List Token} {text : String}

/-- Readings that agree settle alike. -/
theorem settle_same {related : α → β → Prop} {one : Reading α} {other : Reading β}
    {write : α → Draft} {write' : β → Draft} (agree : Agree related one other)
    (same : ∀ value value', related value value' → (write value).shape = (write' value').shape) :
    SameOutcome draft (draft.settle one write) (draft.settle other write') := by
  rcases agree.cases with ⟨value, value', rfl, rfl, related⟩ | ⟨cause, rfl, rfl⟩
  · exact .accepted (same value value' related)
  · exact .refused cause

/-- An inheritance clause is added to a line that is there already. -/
theorem readInheritance_agree (draft : Draft) (alike : Alike left right)
    (isClause : tokenAt left 0 = "Inherits" ∨ tokenAt left 0 = "Implements") :
    Agree (fun one other => one = other) (readInheritance draft left)
      (readInheritance draft right) := by
  have start := Token.outside_zero left
  have leading : Outside left 1 ∧ 0 < left.length := by
    rcases isClause with isWord | isWord
    · exact ⟨outside_behind_token start isWord (by decide), lt_length_of_token isWord (by decide)⟩
    · exact ⟨outside_behind_token start isWord (by decide), lt_length_of_token isWord (by decide)⟩
  unfold readInheritance
  apply Agree.bind (Reading.agree_require _ _ _)
  rintro container _ ⟨rfl, -⟩
  apply Agree.bind (sliceFrom_agree alike leading.1 leading.2)
  rintro _ behind ⟨rfl, alikeBehind⟩
  apply Agree.bind (readBases_agree (Alike.commaParts_alike alikeBehind))
  rintro bases _ rfl
  split
  · exact Reading.agree_refuse _ _ _
  · apply Agree.bind (Reading.agree_require _ _ _)
    rintro header _ ⟨rfl, -⟩
    exact rfl

/-- Namespace headers that are alike are accepted, or refused for the same cause. -/
theorem readNamespace_agree (alike : Alike left right) :
    AgreeLoosely (readNamespace left) (readNamespace right) := by
  unfold readNamespace
  rw [AlikeFrom.length_eq alike]
  split
  · exact Reading.agree_refuse _ _ _
  · trivial

/-- The condition of a `While` line, whose keyword may stand anywhere outside literals. -/
theorem whileCondition_agree {keyword : Nat} (alike : Alike left right)
    (found : Token.position left "While" = some keyword) :
    AgreeLoosely (do conditionText .whileLoop (← Reading.sliceFrom left (keyword + 1)))
      (do conditionText .whileLoop (← Reading.sliceFrom right (keyword + 1))) := by
  obtain ⟨within, outside, plain, -⟩ := Token.findUnquoted_some found
  apply Agree.bind (sliceFrom_agree alike (outside.succ plain) within)
  rintro _ behind ⟨rfl, alikeBehind⟩
  exact conditionBy_agree _ _ alikeBehind

/-- The first line of a container has its keyword behind plain words. -/
theorem leads_of_container {kind : ContainerKind} {keyword : Nat}
    (form : (Statement.container kind keyword).Form text left) : Token.Leads left keyword := by
  cases kind with
  | classBlock => exact Statement.leads_of_openingKeyword (by decide) form
  | moduleBlock => exact Statement.leads_of_openingKeyword (by decide) form

/-- Plain words lead to the keyword of a function. -/
theorem leads_of_function {keyword : Nat} {isSub : Bool}
    (form : (Statement.function keyword isSub).Form text left) : Token.Leads left keyword := by
  cases isSub with
  | true => exact Statement.leads_of_openingKeyword (by decide) form
  | false => exact Statement.leads_of_openingKeyword (by decide) form

/-- What is noticed about a clause is that it is there. -/
theorem trailingClause_kinds {clause clause' : Option String} (line : Nat)
    (same : clause.isSome = clause'.isSome) :
    ((clause.toList.map Notice.trailingClause).map fun notice => (line, notice.kind)) =
      (clause'.toList.map Notice.trailingClause).map fun notice => (line, notice.kind) := by
  cases clause with
  | none =>
    cases clause' with
    | none => rfl
    | some _ => cases same
  | some _ =>
    cases clause' with
    | none => cases same
    | some _ => rfl

/-- A rule for a statement proper, run on two lines that are alike, has outcomes of one
kind. -/
theorem Statement.rule_same (statement : Statement) (draft : Draft) (text' : String)
    (alike : Alike left right) (form : statement.Form text left) (code : statement ≠ .comment)
    (known : statement ≠ .other) :
    SameOutcome draft ((statement.rule text left).run draft)
      ((statement.rule text' right).run draft) := by
  have start := Token.outside_zero left
  cases statement with
  | blank => exact .accepted rfl
  | comment => exact absurd rfl code
  | container kind keyword =>
    simp only [rule, Rule.containerHeader_run]
    apply settle_same (ContainerHeader.read_agree kind alike (leads_of_container form))
    intro header header' sameName
    simp [Draft.shape, Draft.openBrace, Draft.emit, Draft.renest, Draft.resymbol, sameName]
  | declaration =>
    simp only [rule, Rule.declaration_run]
    apply settle_same (DeclarationLine.read_agree _ _ alike)
    intro line line' sameName
    rw [Draft.shape_emit, Draft.shape_emit, draft.shape_register sameName]
  | doLoop =>
    simp only [rule, Rule.doLoop_run]
    apply settle_same (readDo_agree alike form)
    intro found found' sameKind
    simp [Draft.shape, Draft.openBrace, Draft.emit, Draft.renest, sameKind]
  | endBlock =>
    simp only [rule, Rule.endBlock_run]
    rw [← Alike.tokenAt_eq alike (outside_behind_token start form (by decide))]
    exact .accepted rfl
  | exitJump =>
    simp only [rule, Rule.exitJump_run]
    apply settle_same (exitStatement_agree alike (outside_behind_token start form (by decide)))
    intro line line' _
    rw [Draft.shape_emit, Draft.shape_emit]
  | enumHeader keyword =>
    simp only [rule, Rule.enumHeader_run]
    apply settle_same (EnumHeader.read_agree alike (leads_of_openingKeyword (by decide) form))
    rintro header _ rfl
    rfl
  | forLoop =>
    simp only [rule, Rule.forLoop_run]
    apply settle_same (LoopHeader.read_agree draft.nesting alike form)
    rintro header header' ⟨sameCounter, sameCertainty⟩
    simp [Draft.shape, Draft.openBrace, Draft.emit, Draft.renest, Draft.reportAll_eq, sameCounter,
      sameCertainty]
  | function keyword isSub =>
    simp only [rule, Rule.function_run]
    apply settle_same (FunctionHeader.read_agree draft.nesting isSub alike (leads_of_function form))
    rintro header header' ⟨sameHead, sameClause⟩
    rw [Draft.shape_reportAll, Draft.shape_reportAll, Draft.startFunction_line,
      Draft.startFunction_line,
      draft.shape_startFunction sameHead _ header'.generics _ header'.clause,
      trailingClause_kinds draft.line sameClause]
  | accessor keyword =>
    simp only [rule, Rule.accessor_run]
    apply settle_same (AccessorHeader.read_agree draft alike (leads_of_accessorKeyword form))
    intro header header' sameHead
    exact draft.shape_startFunction sameHead _ _ _ _
  | ifBranch =>
    simp only [rule, Rule.ifBranch_run]
    apply settle_same (IfLine.read_agree alike form)
    rintro (header | line) (header' | line') sameForm
    · simp [Draft.shape, Draft.openBrace, Draft.emit, Draft.renest]
    · cases sameForm
    · cases sameForm
    · simp [Draft.shape, Draft.emit]
  | elseIfBranch =>
    simp only [rule, Rule.elseIfBranch_run]
    apply settle_same (elseIfHeader_agree alike (.inl form))
    intro header header' _
    rw [Draft.shape_openBrace, Draft.shape_openBrace]
  | elseBranch =>
    have isElse : tokenAt left 0 = "Else" := form
    simp only [rule, Rule.elseBranch_run]
    rw [← Alike.tokenAt_eq alike (outside_behind_token start isElse (by decide))]
    have agree : AgreeLoosely
        (if tokenAt left 1 = "If" then elseIfHeader left else .ok "else")
        (if tokenAt left 1 = "If" then elseIfHeader right else .ok "else") := by
      split
      · next isIf => exact elseIfHeader_agree alike (.inr ⟨isElse, isIf⟩)
      · trivial
    apply settle_same agree
    intro header header' _
    rw [Draft.shape_openBrace, Draft.shape_openBrace]
  | loopEnd =>
    simp only [rule, Rule.loopEnd_run]
    apply settle_same (readLoopEnd_agree _ alike form)
    intro footer footer' _
    rw [Draft.shape_emit, Draft.shape_emit]
  | namespaceHeader =>
    simp only [rule, Rule.namespaceHeader_run]
    apply settle_same (readNamespace_agree alike)
    intro header header' _
    rw [Draft.shape_openBrace, Draft.shape_openBrace]
  | nextLoop =>
    simp only [rule, Rule.nextLoop_run]
    have filled : 0 < left.length := by
      rcases form with isWord | isWord <;> exact lt_length_of_token isWord (by decide)
    apply settle_same (token_agree alike start filled)
    rintro keyword _ ⟨rfl, -⟩
    rfl
  | property keyword =>
    have leads : Token.Leads left keyword := leads_of_openingKeyword (by decide) form
    simp only [rule, Rule.property_run]
    split
    · apply settle_same (Signature.read_agree .property alike leads)
      intro signature signature' _
      rfl
    · apply settle_same (PropertyLine.read_agree draft.nesting alike leads)
      intro line line' sameVariable
      rw [Draft.shape_emit, Draft.shape_emit, sameVariable]
  | returnJump =>
    simp only [rule, Rule.returnJump_run]
    apply settle_same (returnStatement_agree alike (lt_length_of_token form (by decide)))
    intro line line' _
    rw [Draft.shape_emit, Draft.shape_emit]
  | whileLoop keyword =>
    simp only [rule, Rule.whileLoop_run]
    apply settle_same (whileCondition_agree alike form)
    intro condition condition' _
    rw [Draft.shape_openBrace, Draft.shape_openBrace]
  | inheritance =>
    simp only [rule, Rule.inheritance_run]
    apply settle_same (readInheritance_agree draft alike form)
    rintro found _ rfl
    rfl
  | other => exact absurd rfl known

/-- No rule that a line is given asks for a part that the line does not have. -/
theorem lineRule_in_range (draft left : Draft) (text : String) :
    ((lineStatement text).rule text (lineTokens text)).run draft ≠ .error .outOfRange left := by
  have form := Statement.classify_form text (lineTokens text)
  intro stopped
  by_cases comment : lineStatement text = .comment
  · rw [comment] at stopped
    cases stopped
  · by_cases unknown : lineStatement text = .other
    · rw [unknown] at stopped
      simp only [Statement.rule, Rule.passThrough_run] at stopped
      cases stopped
    · have outcomes := (lineStatement text).rule_same draft text
        (AlikeFrom.refl false (lineTokens text)) form comment unknown
      rw [stopped] at outcomes
      cases outcomes

end Rules

/-- Why the rule for a line refuses it, if it does. -/
def Draft.refusal (draft : Draft) (text : String) : Option Malformed :=
  match ((lineStatement text).rule text (lineTokens text)).run draft with
  | .error (.malformed cause) _ => some cause
  | _ => none

section Lines

variable {draft left after : Draft} {text : String} {cause : Malformed}

/-- Where a rule accepts a line, its draft is the result. -/
theorem Draft.convertLine_accepted
    (ran : ((lineStatement text).rule text (lineTokens text)).run draft = .ok () after) :
    draft.convertLine text = .ok after := by
  simp [convertLine, ran]

/-- A refused line is reported and passed through, from the draft before it. -/
theorem Draft.convertLine_refused
    (ran : ((lineStatement text).rule text (lineTokens text)).run draft =
      .error (.malformed cause) left) :
    draft.convertLine text =
      .ok ((draft.report (.malformed cause)).passLine (lineTokens text)) := by
  have unchanged : left = draft := Statement.rule_error _ ran
  simp [convertLine, ran, unchanged, Rule.passMalformed, Rule.passThrough_run]

/-- Converting a line always gives a draft: that of its rule, or the line passed through
under a report of why it was refused. -/
theorem Draft.convertLine_cases (draft : Draft) (text : String) :
    (∃ after, ((lineStatement text).rule text (lineTokens text)).run draft = .ok () after ∧
        draft.convertLine text = .ok after) ∨
      ∃ cause, ((lineStatement text).rule text (lineTokens text)).run draft =
          .error (.malformed cause) draft ∧
        draft.convertLine text =
          .ok ((draft.report (.malformed cause)).passLine (lineTokens text)) := by
  match ran : ((lineStatement text).rule text (lineTokens text)).run draft with
  | .ok () after => exact .inl ⟨after, rfl, convertLine_accepted ran⟩
  | .error .outOfRange left => exact absurd ran (lineRule_in_range draft left text)
  | .error (.malformed cause) left =>
    obtain rfl : left = draft := Statement.rule_error _ ran
    exact .inr ⟨cause, rfl, convertLine_refused ran⟩

/-- Every line is converted, whatever it says. -/
theorem Draft.convertLine_ok (draft : Draft) (text : String) :
    ∃ after, draft.convertLine text = .ok after := by
  rcases draft.convertLine_cases text with ⟨after, -, done⟩ | ⟨cause, -, done⟩
  · exact ⟨after, done⟩
  · exact ⟨_, done⟩

/-- A line that is refused has stopped its rule. -/
theorem Draft.run_of_refusal (refused : draft.refusal text = some cause) :
    ((lineStatement text).rule text (lineTokens text)).run draft =
      .error (.malformed cause) draft := by
  rcases draft.convertLine_cases text with ⟨_, ran, -⟩ | ⟨found, ran, -⟩
  · simp [refusal, ran] at refused
  · obtain rfl : found = cause := by simpa [refusal, ran] using refused
    exact ran

/-- A line that is not refused is converted by its rule. -/
theorem Draft.accepted_of_refusal (accepted : draft.refusal text = none) :
    ∃ after, ((lineStatement text).rule text (lineTokens text)).run draft = .ok () after ∧
      draft.convertLine text = .ok after := by
  rcases draft.convertLine_cases text with done | ⟨cause, ran, -⟩
  · exact done
  · simp [Draft.refusal, ran] at accepted

/-- A line that is refused is reported. -/
theorem Draft.reported_of_refusal (refused : draft.refusal text = some cause)
    (converted : draft.convertLine text = .ok after) :
    ⟨draft.line, .malformed cause⟩ ∈ after.diagnostics := by
  have same := convertLine_refused (run_of_refusal refused)
  obtain rfl := Except.ok.inj (converted.symm.trans same)
  obtain ⟨words, continues⟩ := Continues.passLine (draft.report (.malformed cause))
    (lineTokens text)
  rw [continues.diagnostics]
  exact Array.mem_append_left _ (Array.mem_push_self)

/-- Converting a line keeps the options and the source, and keeps the names of enums and
enumerators plain. -/
theorem Draft.convertLine_frame (converted : draft.convertLine text = .ok after) :
    after.options = draft.options ∧ after.input = draft.input ∧
      (draft.PlainEnums → after.PlainEnums) := by
  rcases draft.convertLine_cases text with ⟨_, ran, same⟩ | ⟨cause, -, same⟩
  · obtain rfl := Except.ok.inj (converted.symm.trans same)
    obtain ⟨notices, continues, -⟩ := Statement.rule_continues _ ran
    exact ⟨continues.options, continues.input, continues.enums⟩
  · obtain rfl := Except.ok.inj (converted.symm.trans same)
    obtain ⟨words, continues⟩ := Continues.passLine (draft.report (.malformed cause))
      (lineTokens text)
    exact ⟨continues.options, continues.input, continues.enums⟩

/-- Lines are converted in turn: the first ones, and the others from where those lead. -/
theorem Draft.convertFrom_append {reached : Draft} {cursor : Nat} {first : List SourceLine}
    (later : List SourceLine) (converted : draft.convertFrom cursor first = .ok reached) :
    draft.convertFrom cursor (first ++ later) =
      reached.convertFrom (cursor + first.length) later := by
  induction first generalizing draft cursor with
  | nil =>
    cases converted
    rfl
  | cons line rest inductionHypothesis =>
    simp only [convertFrom] at converted
    simp only [List.cons_append, convertFrom, List.length_cons]
    split at converted
    · next after done =>
      have position : cursor + 1 + rest.length = cursor + (rest.length + 1) := by omega
      simp only [inductionHypothesis converted, position]
    · cases converted

/-- Lines can always be converted. -/
theorem Draft.convertFrom_ok (draft : Draft) (cursor : Nat) (lines : List SourceLine) :
    ∃ after, draft.convertFrom cursor lines = .ok after := by
  induction lines generalizing draft cursor with
  | nil => exact ⟨draft, rfl⟩
  | cons line rest inductionHypothesis =>
    obtain ⟨after, done⟩ := (draft.moveTo cursor line).convertLine_ok line.text
    simpa only [convertFrom, done] using inductionHypothesis after (cursor + 1)

/-- Converting lines keeps the options. -/
theorem Draft.convertFrom_options {cursor : Nat} {lines : List SourceLine}
    (converted : draft.convertFrom cursor lines = .ok after) : after.options = draft.options := by
  induction lines generalizing draft cursor with
  | nil =>
    cases converted
    rfl
  | cons line rest inductionHypothesis =>
    simp only [convertFrom] at converted
    split at converted
    · next middle done => exact (inductionHypothesis converted).trans (convertLine_frame done).1
    · cases converted

end Lines

end BasicToSharp
