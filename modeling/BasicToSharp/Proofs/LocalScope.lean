import BasicToSharp.Proofs.RuleAgreement

/-!
# The scope of a function

A name is known if the file declares it, or if it is the current function, one of its
parameters and locals, or the counter of an open loop. Only the first of these lasts. While a
function is converted, what its lines declare goes to the current function and never to the
file, and the line that ends it takes the current function away, together with all counters.

So a step of the body keeps two things: the names that the file declares, and that a function
of the same name is current. Nothing else about the body matters, neither whether its loops
and branches are closed nor whether its lines are accepted.
-/

namespace BasicToSharp

/-- True of a name that the file declares: a type, a function, a variable, or a field of any
class. -/
def Symbols.declares (symbols : Symbols) (name : String) : Bool :=
  symbols.isUserType name || symbols.isFunction name || symbols.globals.contains name ||
    symbols.isField name

/-- The words behind `End` that end a function or an accessor. -/
def functionEnds : List String := ["Function", "Sub", "Get", "Set"]

/-- True of an `End` target that leaves the current function: those of functions and accessors,
of an operator, and of a property. -/
def leavesFunction (target : Token) : Bool :=
  functionEnds.contains target || target == "Operator" || target == "Property"

/-- True of a statement that can stand in the body of a function: it declares no type, function
or property, and it does not leave the function. -/
def Statement.isBody (statement : Statement) (tokens : List Token) : Bool :=
  match statement with
  | .container _ _ | .enumHeader _ | .function _ _ | .accessor _ | .property _ => false
  | .endBlock => !leavesFunction (tokenAt tokens 1)
  | _ => true

/-- True of a line that can stand in the body of a function. -/
def isBodyLine (text : String) : Bool := (lineStatement text).isBody (lineTokens text)

/-- True of the header of a function, a sub or an accessor. -/
def opensFunction (text : String) : Bool :=
  match lineStatement text with
  | .function _ _ | .accessor _ => true
  | _ => false

/-- True of a line that ends a function, a sub or an accessor. -/
def endsFunction (text : String) : Bool :=
  lineStatement text == .endBlock && functionEnds.contains (tokenAt (lineTokens text) 1)

/-- Outside functions and loops a name is known exactly if the file declares it. -/
theorem Draft.knows_of_outside {draft : Draft} (outside : draft.nesting.function = none)
    (noLoop : draft.nesting.counters = []) (name : String) :
    draft.knows name = draft.symbols.declares name := by
  simp [knows, Symbols.declares, outside, noLoop]

/-- The file declares the same names, and the current function has the same name. -/
structure Draft.SameScope (draft after : Draft) : Prop where
  declared : ∀ name, after.symbols.declares name = draft.symbols.declares name
  function : after.nesting.function.map FunctionRecord.name =
    draft.nesting.function.map FunctionRecord.name

/-- A change of a value adds and removes no name. -/
theorem Table.contains_adjust {α : Type} (table : Table α) (name other : String)
    (change : α → α) : (table.adjust other change).contains name = table.contains name := by
  rw [contains, get?_adjust, contains]
  split
  · rw [Option.isSome_map]
  · rfl

namespace Draft.SameScope

variable {draft middle after : Draft}

/-- A draft has its own scope. -/
theorem refl (draft : Draft) : draft.SameScope draft := ⟨fun _ => rfl, rfl⟩

/-- A scope that is kept twice is kept. -/
theorem trans (former : draft.SameScope middle) (latter : middle.SameScope after) :
    draft.SameScope after :=
  ⟨fun name => (latter.declared name).trans (former.declared name),
    latter.function.trans former.function⟩

/-- Written lines declare nothing. -/
theorem emit (same : draft.SameScope middle) (line : String) :
    draft.SameScope (middle.emit line) :=
  ⟨same.declared, same.function⟩

/-- Notices declare nothing. -/
theorem reportAll (same : draft.SameScope middle) (notices : List Notice) :
    draft.SameScope (middle.reportAll notices) := by
  rw [reportAll_eq]
  exact ⟨same.declared, same.function⟩

/-- The complaint about a closer declares nothing. -/
theorem reportUnless (same : draft.SameScope middle) (closed : Bool) (keyword : String) :
    draft.SameScope (middle.reportUnless closed keyword) := by
  rw [reportUnless_eq]
  exact same.reportAll _

/-- Inside a function a variable is declared among its locals. -/
theorem register (inside : draft.nesting.insideFunction = true) (declared : Variable) :
    draft.SameScope (draft.register declared) := by
  obtain ⟨record, current⟩ := Option.isSome_iff_exists.mp inside
  have registered : draft.register declared =
      draft.renest fun nesting => { nesting with function := some (record.declare declared) } := by
    rw [Draft.register, current]
    rfl
  rw [registered]
  refine ⟨fun _ => rfl, ?_⟩
  simp [renest, current, FunctionRecord.declare_eq]

/-- An enumerator is none of the names that the file declares. -/
theorem recordEnumerator (draft : Draft) (name : Token) (value : Option String) :
    draft.SameScope (draft.recordEnumerator name value) := by
  fun_cases Draft.recordEnumerator draft name value with
  | case1 current =>
    refine ⟨fun name => ?_, rfl⟩
    simp [Symbols.declares, Symbols.isUserType, Symbols.isClass, Symbols.isEnum,
      Symbols.isFunction, Symbols.isField, Table.contains_adjust]
  | case2 => exact refl draft
  | case3 => exact refl draft

/-- A line that is passed through declares nothing. -/
theorem passLine (draft : Draft) (tokens : List Token) :
    draft.SameScope (draft.passLine tokens) := by
  by_cases enum : draft.nesting.insideEnum = true
  · rw [Draft.passLine, if_pos enum]
    exact (recordEnumerator draft _ _).emit _
  · rw [Draft.passLine, if_neg enum]
    exact ((refl draft).reportAll _).emit _

end Draft.SameScope

/-- An `End` line leaves the current function only for the targets of functions. -/
theorem Nesting.closeTarget_function (nesting : Nesting) {target : Token}
    (stays : leavesFunction target = false) :
    (nesting.closeTarget target).1.function = nesting.function := by
  fun_cases closeTarget nesting target <;> first | rfl | exact absurd stays (by decide)

/-- The end of a function or accessor leaves it. -/
theorem Nesting.closeTarget_functionEnd (nesting : Nesting) {target : Token}
    (ends : functionEnds.contains target = true) :
    (nesting.closeTarget target).1 = nesting.leaveFunction := by
  have word : target = "Function" ∨ target = "Sub" ∨ target = "Get" ∨ target = "Set" := by
    simpa [functionEnds] using ends
  rcases word with rfl | rfl | rfl | rfl <;> rfl

/-- A statement of the body keeps the scope of its function. -/
theorem Statement.rule_sameScope (statement : Statement) {text : String} {tokens : List Token}
    {draft after : Draft} (inside : draft.nesting.insideFunction = true)
    (body : statement.isBody tokens = true)
    (ran : (statement.rule text tokens).run draft = .ok () after) : draft.SameScope after := by
  -- A closer keeps the scope if what it does to the open blocks keeps the current function.
  have closed : ∀ {change : Nesting → Nesting} (closed : Bool) (keyword line : String),
      (change draft.nesting).function = draft.nesting.function →
      draft.SameScope (((draft.renest change).reportUnless closed keyword).emit line) := by
    intro change closed keyword line kept
    have within : draft.SameScope (draft.renest change) := ⟨fun _ => rfl, congrArg _ kept⟩
    exact (within.reportUnless closed keyword).emit line
  cases makes_of_run ran with
  | container | enumHeader | function | accessor | pendingProperty | property => cases body
  | declaration => exact (Draft.SameScope.register inside _).emit _
  | endProperty target =>
    have stays : leavesFunction (tokenAt tokens 1) = false := by simpa [isBody] using body
    rw [target] at stays
    exact absurd stays (by decide)
  | endBlock =>
    have stays : leavesFunction (tokenAt tokens 1) = false := by simpa [isBody] using body
    exact closed _ _ _ (draft.nesting.closeTarget_function stays)
  | forLoop =>
    rw [Draft.reportAll_eq]
    exact ⟨fun _ => rfl, rfl⟩
  | loopEnd => exact closed _ _ _ rfl
  | nextLoop => exact closed _ _ _ (by rw [Nesting.afterNext_frame])
  | other => exact .passLine draft tokens
  | _ => exact ⟨fun _ => rfl, rfl⟩

namespace Draft

variable {draft after : Draft} {text : String} {cursor : Nat}

/-- Where the scope is kept, one stays inside the function. -/
theorem SameScope.insideFunction (same : draft.SameScope after)
    (inside : draft.nesting.insideFunction = true) : after.nesting.insideFunction = true := by
  have named := congrArg Option.isSome same.function
  rw [Option.isSome_map, Option.isSome_map] at named
  exact named.trans inside

/-- A line of the body keeps the scope of its function, accepted or not. -/
theorem convertLine_sameScope (inside : draft.nesting.insideFunction = true)
    (body : isBodyLine text = true) (converted : draft.convertLine text = .ok after) :
    draft.SameScope after := by
  rcases draft.convertLine_cases text with ⟨accepted, ran, same⟩ | ⟨cause, -, same⟩
  · obtain rfl := Except.ok.inj (converted.symm.trans same)
    exact Statement.rule_sameScope _ inside body ran
  · obtain rfl := Except.ok.inj (converted.symm.trans same)
    have passed := SameScope.passLine (draft.report (.malformed cause)) (lineTokens text)
    exact ⟨passed.declared, passed.function⟩

/-- A whole body keeps the scope of its function. -/
theorem convertFrom_sameScope {body : List SourceLine}
    (inside : draft.nesting.insideFunction = true)
    (within : ∀ line ∈ body, isBodyLine line.text = true)
    (converted : draft.convertFrom cursor body = .ok after) : draft.SameScope after := by
  induction body generalizing draft cursor with
  | nil =>
    cases converted
    exact .refl _
  | cons line rest inductionHypothesis =>
    obtain ⟨here, later⟩ := List.forall_mem_cons.mp within
    obtain ⟨middle, done⟩ := (draft.moveTo cursor line).convertLine_ok line.text
    simp only [convertFrom, done] at converted
    have arrived : (draft.moveTo cursor line).nesting.insideFunction = true := inside
    have same := convertLine_sameScope arrived here done
    have step : draft.SameScope middle := ⟨same.declared, same.function⟩
    exact step.trans (inductionHypothesis (step.insideFunction inside) later converted)

end Draft

/-- A table has the name that is entered and those it had. -/
theorem Table.contains_enter {α : Type} (table : Table α) (name other : String) (value : α) :
    (table.enter other value).contains name = (table.contains name || name == other) := by
  rw [contains, get?_enter, contains]
  by_cases same : name = other <;> simp [same]

/-- A function that is entered adds its own name and no other. -/
theorem Symbols.declares_addFunction (symbols : Symbols) (record : FunctionRecord)
    (name : String) : (symbols.addFunction record).declares name = true ↔
      symbols.declares name = true ∨ name = record.name := by
  simp only [declares, isUserType, isClass, isEnum, isFunction, isField, addFunction,
    Table.contains_enter, Bool.or_eq_true, beq_iff_eq]
  grind

/-- A header that is accepted makes its function the current one and declares it. -/
theorem Draft.convertLine_opensFunction {draft : Draft} {text : String}
    (opens : opensFunction text = true) (accepted : draft.refusal text = none) :
    ∃ after record, draft.convertLine text = .ok after ∧ after.nesting.function = some record ∧
      after.symbols = draft.symbols.addFunction record := by
  obtain ⟨after, ran, converted⟩ := accepted_of_refusal accepted
  have made := Statement.makes_of_run ran
  unfold opensFunction at opens
  generalize lineStatement text = statement at made opens
  cases made with
  | @function keyword isSub header =>
    refine ⟨_, header.record.bindParameters, converted, ?_⟩
    rw [reportAll_eq, startFunction_frame]
    exact ⟨rfl, rfl⟩
  | @accessor keyword header =>
    refine ⟨_, header.record.bindParameters, converted, ?_⟩
    rw [startFunction_frame]
    exact ⟨rfl, rfl⟩
  | _ => cases opens

/-- The line that ends a function takes it away, with all counters. -/
theorem Draft.convertLine_endsFunction (draft : Draft) {text : String}
    (ends : endsFunction text = true) :
    ∃ after, draft.convertLine text = .ok after ∧ after.nesting.function = none ∧
      after.nesting.counters = [] ∧ after.symbols = draft.symbols := by
  obtain ⟨is, target⟩ : lineStatement text = .endBlock ∧
      functionEnds.contains (tokenAt (lineTokens text) 1) = true := by
    simpa [endsFunction] using ends
  have named : tokenAt (lineTokens text) 1 ≠ "" := by
    intro bare
    rw [bare] at target
    exact absurd target (by decide)
  have other : tokenAt (lineTokens text) 1 ≠ "Property" := by
    intro isProperty
    rw [isProperty] at target
    exact absurd target (by decide)
  have rule : (lineStatement text).rule text (lineTokens text) =
      Rule.endBlock (lineTokens text) := by rw [is, Statement.rule]
  have ran := Rule.endBlock_run (lineTokens text) draft
  rw [if_neg named, if_neg other, reportUnless_eq, reportAll_eq, ← rule] at ran
  have left := draft.nesting.closeTarget_functionEnd target
  have converted := convertLine_accepted ran
  refine ⟨_, converted, ?_⟩
  simp only [emit, renest, left, Nesting.leaveFunction, and_self]

/-- From any draft outside functions and loops, convert the header of a function, if it is
accepted, then any lines that can stand in its body, and then a line that ends it. Behind that,
outside functions and loops again, the names that are known are those that were known before
the header, and the name of the function. -/
theorem locals_stay_local {draft : Draft} {cursor : Nat} {header closing : SourceLine}
    {body : List SourceLine} (outside : draft.nesting.function = none)
    (noLoop : draft.nesting.counters = []) (opens : opensFunction header.text = true)
    (accepted : (draft.moveTo cursor header).refusal header.text = none)
    (within : ∀ line ∈ body, isBodyLine line.text = true)
    (ends : endsFunction closing.text = true) :
    ∃ entered record after,
      (draft.moveTo cursor header).convertLine header.text = .ok entered ∧
      entered.nesting.function = some record ∧
      draft.convertFrom cursor (header :: body ++ [closing]) = .ok after ∧
      after.nesting.function = none ∧ after.nesting.counters = [] ∧
      ∀ name, after.knows name = true ↔ draft.knows name = true ∨ name = record.name := by
  obtain ⟨entered, record, started, current, declared⟩ :=
    Draft.convertLine_opensFunction opens accepted
  obtain ⟨inner, convertedBody⟩ := entered.convertFrom_ok (cursor + 1) body
  have inside : entered.nesting.insideFunction = true := by
    rw [Nesting.insideFunction, current, Option.isSome_some]
  have same := Draft.convertFrom_sameScope inside within convertedBody
  obtain ⟨after, ended, left, noCounter, kept⟩ :=
    (inner.moveTo (cursor + 1 + body.length) closing).convertLine_endsFunction ends
  refine ⟨entered, record, after, started, current, ?_, left, noCounter, fun name => ?_⟩
  · have behind := Draft.convertFrom_append [closing] convertedBody
    simp only [Draft.convertFrom, ended] at behind
    simp only [List.cons_append, Draft.convertFrom, started, behind]
  · rw [Draft.knows_of_outside left noCounter, Draft.knows_of_outside outside noLoop, kept]
    calc inner.symbols.declares name = true
      _ ↔ entered.symbols.declares name = true := by rw [same.declared name]
      _ ↔ draft.symbols.declares name = true ∨ name = record.name := by
        rw [declared]
        exact draft.symbols.declares_addFunction record name

/-- A variable of the file is declared; then a function with a parameter, a local, a loop that is
never closed and a branch that is refused. Of all these the function alone is added. -/
theorem locals_stay_local_unclosed :
    let draft : Draft := { output := #["int g;"], line := 1, symbols :=
      ({} : Symbols).addVariable { name := "g", type := "int" } }
    let header : SourceLine := ⟨2, "Function F(ByVal p As Integer) As Integer"⟩
    let body : List SourceLine := [⟨3, "Dim x As Integer"⟩, ⟨4, "For i = 1 To p"⟩, ⟨5, "If"⟩]
    let closing : SourceLine := ⟨6, "End Function"⟩
    (Draft.start {} []).convertFrom 0 [⟨1, "Dim g As Integer"⟩] = .ok draft ∧
      draft.refusal "If" ≠ none ∧
      ∃ after, draft.convertFrom 1 (header :: body ++ [closing]) = .ok after ∧
        after.knows "F" = true ∧ after.knows "g" = true ∧ after.knows "p" = false ∧
        after.knows "x" = false ∧ after.knows "i" = false := by
  intro draft header body closing
  have function : ((draft.moveTo 1 header).convertLine header.text).toOption.map
      (fun entered => entered.nesting.function.map FunctionRecord.name) = some (some "F") := by
    decide +kernel
  have begun : ((Draft.start {} []).convertFrom 0 [⟨1, "Dim g As Integer"⟩]).toOption =
      some draft := by decide +kernel
  obtain ⟨reached, done⟩ := (Draft.start {} []).convertFrom_ok 0 [⟨1, "Dim g As Integer"⟩]
  rw [done] at begun
  obtain ⟨entered, record, after, started, current, converted, -, -, known⟩ :=
    @locals_stay_local draft 1 header closing body rfl rfl (by decide +kernel)
      (by decide +kernel) (by decide +kernel) (by decide +kernel)
  rw [started] at function
  have named : record.name = "F" := by simpa [Except.toOption, current] using function
  have before : ∀ name ∈ ["p", "x", "i"], draft.knows name = false ∧ name ≠ "F" := by
    decide +kernel
  have hidden : ∀ name ∈ ["p", "x", "i"], after.knows name = false := by
    intro name member
    rw [Bool.eq_false_iff, ne_eq, known, named]
    simp [before name member]
  refine ⟨?_, by decide +kernel, after, converted, ?_, ?_, ?_, ?_, ?_⟩
  · exact done.trans (congrArg Except.ok (Option.some.inj begun))
  · exact (known "F").mpr (.inr named.symm)
  · exact (known "g").mpr (.inl (by decide +kernel))
  · exact hidden "p" (by simp)
  · exact hidden "x" (by simp)
  · exact hidden "i" (by simp)

end BasicToSharp
