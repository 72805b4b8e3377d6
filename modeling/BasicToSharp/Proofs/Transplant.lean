import BasicToSharp.Proofs.RuleAgreement
import Mathlib.Data.List.Forall2

/-!
# Drafts in other surroundings

A draft carries the options, the source and what was noticed so far along with it. None of
them steers the conversion: the options only say whether unknown words are reported, the
source is only asked what follows a property header and what such a header says, and notices
are only added. So a draft may be moved into other surroundings (`Draft.transplant`) and its
lines are converted as before: each is accepted or refused alike, and what is left is the
draft of before in the other surroundings, with the same notices but for unknown words.
-/

namespace BasicToSharp

/-- True of a report of a word that nobody knows. -/
def Notice.isUnregistered : Notice → Bool
  | .unregisteredWord _ => true
  | _ => false

namespace Draft

/-- A draft in other surroundings. -/
def transplant (draft : Draft) (options : Options) (input : List SourceLine)
    (diagnostics : Array Diagnostic) : Draft :=
  { draft with options := options, input := input, diagnostics := diagnostics }

/-- The source says the same about the properties that a draft is concerned with: whether
accessors follow the current line, and what the pending header says. -/
structure SameProperties (draft : Draft) (input : List SourceLine) : Prop where
  follows : BasicToSharp.accessorFollows (input.drop (draft.cursor + 1)) = draft.accessorFollows
  header : PropertyHeader.read draft.nesting.propertyHeader input =
    PropertyHeader.read draft.nesting.propertyHeader draft.input

/-- What is recorded of notices about the current line and of unknown words, which are
reported only where the options ask for it. -/
def noticed (draft : Draft) (options : Options) (notices : List Notice) (words : List Token) :
    Array Diagnostic :=
  ((notices ++ if options.reportUnregistered then words.map Notice.unregisteredWord else []).map
    (Diagnostic.mk draft.line)).toArray

/-- Outcomes of one rule on a draft and on the draft in other surroundings. -/
inductive Parallel (draft : Draft) (options : Options) (input : List SourceLine)
    (diagnostics : Array Diagnostic) :
    EStateM.Result Obstacle Draft Unit → EStateM.Result Obstacle Draft Unit → Prop
  | refused (obstacle : Obstacle) :
      Parallel draft options input diagnostics (.error obstacle draft)
        (.error obstacle (draft.transplant options input diagnostics))
  | accepted {after : Draft} (notices : List Notice) (words : List Token)
      (known : ∀ notice ∈ notices, notice.isUnregistered = false)
      (reported : after.diagnostics =
        draft.diagnostics ++ draft.noticed draft.options notices words) :
      Parallel draft options input diagnostics (.ok () after)
        (.ok () (after.transplant options input
          (diagnostics ++ draft.noticed options notices words)))

section Writing

variable (draft : Draft) (options : Options) (input : List SourceLine)
  (diagnostics : Array Diagnostic)

/-- Without notices nothing is noticed. -/
@[simp] theorem noticed_nil : draft.noticed options [] [] = #[] := by simp [noticed]

/-- A notice comes before the words that are noticed. -/
theorem push_noticed (notice : Notice) (words : List Token) :
    diagnostics.push ⟨draft.line, notice⟩ ++ draft.noticed options [] words =
      diagnostics ++ draft.noticed options [notice] words := by
  simp [noticed]

/-- Notices are recorded in a transplanted draft as they are in its own. -/
theorem reportAll_transplant (notices : List Notice) :
    (draft.transplant options input diagnostics).reportAll notices =
      (draft.reportAll notices).transplant options input
        (diagnostics ++ draft.noticed options notices []) := by
  simp [reportAll_eq, transplant, noticed]

/-- Notices are recorded behind the earlier ones. -/
theorem reportAll_diagnostics (notices : List Notice) :
    (draft.reportAll notices).diagnostics =
      draft.diagnostics ++ draft.noticed draft.options notices [] := by
  simp [reportAll_eq, noticed]

/-- A variable is entered in a transplanted draft as in its own. -/
theorem register_transplant (declared : Variable) :
    (draft.transplant options input diagnostics).register declared =
      (draft.register declared).transplant options input diagnostics := by
  cases current : draft.nesting.function with
  | some record => simp [register, transplant, current]
  | none =>
    cases innermost : draft.nesting.container? with
    | none => simp [register, transplant, current, innermost]
    | some container =>
      obtain ⟨name, kind, position⟩ := container
      cases kind with
      | moduleBlock => simp [register, transplant, current, innermost]
      | classBlock =>
        by_cases isClass : draft.symbols.isClass name = true
        · simp [register, transplant, current, innermost, isClass]
        · simp [register, transplant, current, innermost, isClass]

/-- A property is entered in a transplanted draft as in its own. -/
theorem registerProperty_transplant (declared : Variable) :
    (draft.transplant options input diagnostics).registerProperty declared =
      (draft.registerProperty declared).transplant options input diagnostics := by
  cases innermost : draft.nesting.container? with
  | none => simp [registerProperty, transplant, innermost]
  | some container =>
    by_cases isClass : draft.symbols.isClass container.name = true
    · simp [registerProperty, transplant, innermost, isClass]
    · simp [registerProperty, transplant, innermost, isClass]

/-- An enumerator is recorded in a transplanted draft as in its own. -/
theorem recordEnumerator_transplant (name : Token) (value : Option String) :
    (draft.transplant options input diagnostics).recordEnumerator name value =
      (draft.recordEnumerator name value).transplant options input diagnostics := by
  cases current : draft.nesting.enums.head? with
  | none => simp [recordEnumerator, transplant, current]
  | some enum =>
    by_cases named : Token.isIdentifier name = true
    · simp [recordEnumerator, transplant, current, named]
    · simp [recordEnumerator, transplant, current, named]

/-- A function is started in a transplanted draft as in its own. -/
theorem startFunction_transplant (record : FunctionRecord) (generics : String)
    (comment : Option String) :
    (draft.transplant options input diagnostics).startFunction record generics comment =
      (draft.startFunction record generics comment).transplant options input diagnostics := by
  have same : (draft.transplant options input diagnostics).needsGap = draft.needsGap := rfl
  by_cases gap : draft.needsGap = true
  · simp only [startFunction, same, gap, if_true]
    rfl
  · simp only [startFunction, same, gap, Bool.false_eq_true, if_false]
    rfl

/-- A line that is passed through takes up nothing of the surroundings but whether unknown
words are to be reported. -/
theorem passLine_transplant (tokens : List Token) :
    ∃ words, (draft.passLine tokens).diagnostics =
        draft.diagnostics ++ draft.noticed draft.options [] words ∧
      (draft.transplant options input diagnostics).passLine tokens =
        (draft.passLine tokens).transplant options input
          (diagnostics ++ draft.noticed options [] words) := by
  have sameEnum : (draft.transplant options input diagnostics).nesting.insideEnum =
      draft.nesting.insideEnum := rfl
  have sameWords : (draft.transplant options input diagnostics).unknownWords tokens =
      draft.unknownWords tokens := rfl
  unfold passLine
  rw [sameEnum, sameWords]
  by_cases enum : draft.nesting.insideEnum = true
  · refine ⟨[], ?_, ?_⟩
    · rw [if_pos enum, recordEnumerator_frame]
      simp [emit]
    · rw [if_pos enum, if_pos enum, recordEnumerator_transplant, noticed_nil, Array.append_empty]
      rfl
  · refine ⟨draft.unknownWords tokens, ?_, ?_⟩
    · rw [if_neg enum]
      simp [reportAll_eq, noticed, emit]
    · rw [if_neg enum, if_neg enum, reportAll_eq, reportAll_eq]
      rfl

end Writing

section Rules

variable {α : Type} {draft : Draft} {options : Options} {input : List SourceLine}
  {diagnostics : Array Diagnostic}

/-- Two runs that notice the same are parallel. -/
theorem Parallel.reporting {after after' : Draft} (notices : List Notice)
    (known : ∀ notice ∈ notices, notice.isUnregistered = false)
    (reported : after.diagnostics =
      draft.diagnostics ++ draft.noticed draft.options notices [])
    (same : after' = after.transplant options input
      (diagnostics ++ draft.noticed options notices [])) :
    draft.Parallel options input diagnostics (.ok () after) (.ok () after') :=
  same ▸ .accepted notices [] known reported

/-- Two runs that notice nothing are parallel. -/
theorem Parallel.silent {after after' : Draft} (silent : after.diagnostics = draft.diagnostics)
    (same : after' = after.transplant options input diagnostics) :
    draft.Parallel options input diagnostics (.ok () after) (.ok () after') :=
  .reporting [] (by simp) (by simpa using silent) (by simpa using same)

/-- A step that reads alike is taken alike if what is written is. -/
theorem Parallel.settle {reading : Reading α} {write write' : α → Draft}
    (each : ∀ value, draft.Parallel options input diagnostics (.ok () (write value))
      (.ok () (write' value))) :
    draft.Parallel options input diagnostics (draft.settle reading write)
      ((draft.transplant options input diagnostics).settle reading write') := by
  cases reading with
  | error obstacle => exact .refused obstacle
  | ok value => exact each value

/-- What is reported of a closer depends on the open blocks only. -/
theorem Parallel.closer (change : Nesting → Nesting) (closed : Bool) (keyword line : String) :
    draft.Parallel options input diagnostics
      (.ok () (((draft.renest change).reportUnless closed keyword).emit line))
      (.ok () ((((draft.transplant options input diagnostics).renest change).reportUnless closed
        keyword).emit line)) := by
  rw [reportUnless_eq, reportUnless_eq]
  refine .reporting (if closed then [] else [.unmatchedClose keyword]) ?_
    (reportAll_diagnostics (draft.renest change) _)
    (congrArg (emit · line) (reportAll_transplant (draft.renest change) _ _ _ _))
  cases closed <;> simp [Notice.isUnregistered]

end Rules

end Draft

section Lines

variable {draft : Draft} {input : List SourceLine} (options : Options)
  (diagnostics : Array Diagnostic)

/-- An accessor is read alike where the property headers are. -/
theorem AccessorHeader.read_transplant (same : draft.SameProperties input) (tokens : List Token)
    (keyword : Nat) :
    AccessorHeader.read (draft.transplant options input diagnostics) tokens keyword =
      AccessorHeader.read draft tokens keyword := by
  simp only [AccessorHeader.read, Draft.transplant, same.header]

/-- A rule is taken alike in other surroundings. -/
theorem Statement.rule_parallel (same : draft.SameProperties input) (statement : Statement)
    (text : String) (tokens : List Token) :
    draft.Parallel options input diagnostics ((statement.rule text tokens).run draft)
      ((statement.rule text tokens).run (draft.transplant options input diagnostics)) := by
  cases statement with
  | blank => exact .silent rfl rfl
  | comment => exact .silent rfl rfl
  | container kind keyword =>
    simp only [Statement.rule, Rule.containerHeader_run]
    exact .settle fun _ => .silent rfl rfl
  | declaration =>
    simp only [Statement.rule, Rule.declaration_run]
    refine .settle fun line => .silent ?_ ?_
    · rw [Draft.register_frame]
      rfl
    · rw [Draft.register_transplant]
      rfl
  | doLoop =>
    simp only [Statement.rule, Rule.doLoop_run]
    exact .settle fun _ => .silent rfl rfl
  | endBlock =>
    simp only [Statement.rule, Rule.endBlock_run]
    split
    · exact .silent rfl rfl
    · split
      · exact .silent rfl rfl
      · exact .closer _ _ _ _
  | exitJump =>
    simp only [Statement.rule, Rule.exitJump_run]
    exact .settle fun _ => .silent rfl rfl
  | enumHeader keyword =>
    simp only [Statement.rule, Rule.enumHeader_run]
    exact .settle fun _ => .silent rfl rfl
  | forLoop =>
    simp only [Statement.rule, Rule.forLoop_run]
    refine .settle fun header => .reporting
      (if header.isAssumed then [.assumedIntegerBounds header.counter] else []) ?_
      (draft.reportAll_diagnostics _) ?_
    · split <;> simp [Notice.isUnregistered]
    · rw [Draft.reportAll_transplant]
      rfl
  | function keyword isSub =>
    simp only [Statement.rule, Rule.function_run]
    refine .settle fun header => .reporting (header.clause.toList.map .trailingClause) ?_ ?_ ?_
    · simp [Notice.isUnregistered]
    · rw [Draft.reportAll_diagnostics, Draft.startFunction_frame]
      rfl
    · rw [Draft.startFunction_transplant, Draft.reportAll_transplant, Draft.startFunction_frame]
      rfl
  | accessor keyword =>
    simp only [Statement.rule, Rule.accessor_run,
      AccessorHeader.read_transplant options diagnostics same]
    refine .settle fun header => .silent ?_ ?_
    · rw [Draft.startFunction_frame]
    · rw [Draft.startFunction_transplant]
  | ifBranch =>
    simp only [Statement.rule, Rule.ifBranch_run]
    refine .settle fun line => ?_
    cases line with
    | block header => exact .silent rfl rfl
    | statement line => exact .silent rfl rfl
  | elseIfBranch =>
    simp only [Statement.rule, Rule.elseIfBranch_run]
    exact .settle fun _ => .silent rfl rfl
  | elseBranch =>
    simp only [Statement.rule, Rule.elseBranch_run]
    exact .settle fun _ => .silent rfl rfl
  | loopEnd =>
    simp only [Statement.rule, Rule.loopEnd_run]
    exact .settle fun _ => .closer _ _ _ _
  | namespaceHeader =>
    simp only [Statement.rule, Rule.namespaceHeader_run]
    exact .settle fun _ => .silent rfl rfl
  | nextLoop =>
    simp only [Statement.rule, Rule.nextLoop_run]
    exact .settle fun _ => .closer _ _ _ _
  | property keyword =>
    have follows : (draft.transplant options input diagnostics).accessorFollows =
        draft.accessorFollows := same.follows
    simp only [Statement.rule, Rule.property_run, follows]
    split
    · exact .settle fun _ => .silent rfl rfl
    · refine .settle fun line => .silent ?_ ?_
      · rw [Draft.registerProperty_frame]
        rfl
      · rw [Draft.registerProperty_transplant]
        rfl
  | returnJump =>
    simp only [Statement.rule, Rule.returnJump_run]
    exact .settle fun _ => .silent rfl rfl
  | whileLoop keyword =>
    simp only [Statement.rule, Rule.whileLoop_run]
    exact .settle fun _ => .silent rfl rfl
  | inheritance =>
    simp only [Statement.rule, Rule.inheritance_run]
    exact .settle fun _ => .silent rfl rfl
  | other =>
    simp only [Statement.rule, Rule.passThrough_run]
    obtain ⟨words, reported, taken⟩ :=
      draft.passLine_transplant options input diagnostics tokens
    rw [taken]
    exact .accepted [] words (by simp) reported

/-- A line is converted alike in other surroundings. -/
theorem Draft.convertLine_transplant (same : draft.SameProperties input) (text : String) :
    ∃ after notices words, (∀ notice ∈ notices, notice.isUnregistered = false) ∧
      after.diagnostics = draft.diagnostics ++ draft.noticed draft.options notices words ∧
      draft.convertLine text = .ok after ∧
      (draft.transplant options input diagnostics).convertLine text =
        .ok (after.transplant options input
          (diagnostics ++ draft.noticed options notices words)) := by
  have parallel := Statement.rule_parallel options diagnostics same (lineStatement text) text
    (lineTokens text)
  generalize twin : ((lineStatement text).rule text (lineTokens text)).run
    (draft.transplant options input diagnostics) = outcome at parallel
  rcases draft.convertLine_cases text with ⟨after, ran, done⟩ | ⟨cause, ran, done⟩
  · rw [ran] at parallel
    cases parallel with
    | accepted notices words known reported =>
      exact ⟨after, notices, words, known, reported, done, convertLine_accepted twin⟩
  · rw [ran] at parallel
    cases parallel with
    | refused =>
      -- Both lines are passed through under the same report.
      obtain ⟨words, reported, taken⟩ := (draft.report (.malformed cause)).passLine_transplant
        options input (diagnostics.push ⟨draft.line, .malformed cause⟩) (lineTokens text)
      refine ⟨_, [.malformed cause], words, by simp [Notice.isUnregistered], ?_, done, ?_⟩
      · rw [reported]
        exact draft.push_noticed _ _ _ _
      · rw [convertLine_refused twin]
        refine congrArg Except.ok (taken.trans ?_)
        exact congrArg _ (draft.push_noticed _ _ _ _)

end Lines

/-- Two prepared lines that are read alike: they have the same number and the same tokens,
both or neither are empty or start with an apostrophe, and comments are the same. -/
structure SourceLine.ReadsAlike (line line' : SourceLine) : Prop where
  number : line'.number = line.number
  tokens : Token.tokenize line'.text = Token.tokenize line.text
  isEmpty : line'.text.isEmpty = line.text.isEmpty
  apostrophe : (line'.text.toList.head? == some Token.apostrophe) =
    (line.text.toList.head? == some Token.apostrophe)
  comment : lineStatement line.text = .comment → line'.text = line.text

namespace SourceLine.ReadsAlike

variable {line line' : SourceLine} {input input' : List SourceLine}

/-- Every line is read as itself. -/
theorem refl (line : SourceLine) : line.ReadsAlike line := ⟨rfl, rfl, rfl, rfl, fun _ => rfl⟩

/-- Lines that are read alike have the same tokens. -/
theorem lineTokens_eq (alike : line.ReadsAlike line') :
    lineTokens line'.text = lineTokens line.text := congrArg Token.concatenations alike.tokens

/-- Lines that are read alike are of one kind. -/
theorem lineStatement_eq (alike : line.ReadsAlike line') :
    lineStatement line'.text = lineStatement line.text := by
  have comment : Statement.isComment line'.text (lineTokens line.text) =
      Statement.isComment line.text (lineTokens line.text) := by
    simp only [Statement.isComment, alike.apostrophe]
  unfold lineStatement Statement.classify
  rw [alike.lineTokens_eq, comment]

/-- Lines that are read alike are given the same rule. -/
theorem convertLine_eq (alike : line.ReadsAlike line') (draft : Draft) :
    draft.convertLine line'.text = draft.convertLine line.text := by
  have rule : (lineStatement line'.text).rule line'.text (lineTokens line'.text) =
      (lineStatement line.text).rule line.text (lineTokens line.text) := by
    rw [alike.lineStatement_eq, alike.lineTokens_eq]
    by_cases comment : lineStatement line.text = .comment
    · rw [alike.comment comment]
    · generalize lineStatement line.text = statement at comment
      cases statement with
      | comment => exact absurd rfl comment
      | _ => rfl
  simp only [Draft.convertLine]
  rw [rule, alike.lineTokens_eq]

/-- Lines that are read alike look alike ahead. -/
theorem accessorFollows_eq (alike : List.Forall₂ ReadsAlike input input') :
    accessorFollows input' = accessorFollows input := by
  unfold accessorFollows
  induction alike with
  | nil => rfl
  | @cons line line' _ _ here _ inductionHypothesis =>
    have shown : (!line'.text.isEmpty && line'.text.toList.head? != some Token.apostrophe) =
        (!line.text.isEmpty && line.text.toList.head? != some Token.apostrophe) := by
      rw [bne, bne, here.isEmpty, here.apostrophe]
    rw [List.find?_cons, List.find?_cons, shown]
    cases !line.text.isEmpty && line.text.toList.head? != some Token.apostrophe with
    | true => simp only [here.tokens]
    | false => exact inductionHypothesis

/-- Lines that are read alike hold the same property headers. -/
theorem propertyHeader_eq (alike : List.Forall₂ ReadsAlike input input') (pending : Option Nat) :
    PropertyHeader.read pending input' = PropertyHeader.read pending input := by
  have tokens : input'.map (Token.tokenize ·.text) = input.map (Token.tokenize ·.text) := by
    induction alike with
    | nil => rfl
    | cons here _ inductionHypothesis =>
      rw [List.map_cons, List.map_cons, here.tokens, inductionHypothesis]
  cases pending with
  | none => rfl
  | some index =>
    have here := congrArg (·[index]?) tokens
    simp only [List.getElem?_map] at here
    cases found : input[index]? with
    | none =>
      rw [found, Option.map_none, Option.map_eq_none_iff] at here
      simp only [PropertyHeader.read, Reading.require, Reading.ok_bind, here, found]
    | some line =>
      rw [found, Option.map_some, Option.map_eq_some_iff] at here
      obtain ⟨line', found', same⟩ := here
      simp only [PropertyHeader.read, Reading.require, Reading.ok_bind, found', found, same]

/-- Sources whose lines are read alike say the same about properties. -/
theorem sameProperties (alike : List.Forall₂ ReadsAlike input input') {draft : Draft}
    (source : draft.input = input) : draft.SameProperties input' := by
  subst source
  exact ⟨accessorFollows_eq (List.forall₂_drop _ alike), propertyHeader_eq alike _⟩

end SourceLine.ReadsAlike

/-- Diagnostics of two conversions that are the same but for unknown words, which are there
only where the options ask for them. -/
structure SameNotices (one other : Options) (diagnostics diagnostics' : Array Diagnostic) :
    Prop where
  known : diagnostics'.toList.filter (!·.notice.isUnregistered) =
    diagnostics.toList.filter (!·.notice.isUnregistered)
  equal : other.reportUnregistered = one.reportUnregistered → diagnostics' = diagnostics
  silent : one.reportUnregistered = false →
    ∀ diagnostic ∈ diagnostics, diagnostic.notice.isUnregistered = false
  silent' : other.reportUnregistered = false →
    ∀ diagnostic ∈ diagnostics', diagnostic.notice.isUnregistered = false

section Runs

variable {draft : Draft} {options : Options} {diagnostics : Array Diagnostic}

/-- Without unknown words, all that is recorded is known. -/
theorem Draft.noticed_known {notices : List Notice}
    (known : ∀ notice ∈ notices, notice.isUnregistered = false)
    (unasked : options.reportUnregistered = false) (words : List Token) :
    ∀ diagnostic ∈ draft.noticed options notices words,
      diagnostic.notice.isUnregistered = false := by
  simpa [noticed, unasked] using known

/-- Without the unregistered words, the other notices are left. -/
theorem Draft.filter_noticed {notices : List Notice}
    (known : ∀ notice ∈ notices, notice.isUnregistered = false) (words : List Token) :
    (draft.noticed options notices words).toList.filter (!·.notice.isUnregistered) =
      notices.map (Diagnostic.mk draft.line) := by
  have dropped : (words.map Notice.unregisteredWord).filter (!·.isUnregistered) = [] := by
    simp [Notice.isUnregistered]
  have kept : notices.filter (!·.isUnregistered) = notices := by
    simpa [List.filter_eq_self] using known
  unfold noticed
  rw [List.toList_toArray, List.filter_map, List.filter_append]
  change List.map _ (notices.filter (!·.isUnregistered) ++ List.filter (!·.isUnregistered) _) = _
  rw [kept]
  split
  · rw [dropped, List.append_nil]
  · rw [List.filter_nil, List.append_nil]

/-- What is noticed under both options is the same again. -/
theorem SameNotices.append (draft : Draft) {one other : Options}
    {diagnostics diagnostics' : Array Diagnostic}
    (same : SameNotices one other diagnostics diagnostics') {notices : List Notice}
    (known : ∀ notice ∈ notices, notice.isUnregistered = false) (words : List Token) :
    SameNotices one other (diagnostics ++ draft.noticed one notices words)
      (diagnostics' ++ draft.noticed other notices words) := by
  constructor
  · rw [Array.toList_append, Array.toList_append, List.filter_append, List.filter_append,
      same.known, Draft.filter_noticed known, Draft.filter_noticed known]
  · intro equal
    rw [same.equal equal, Draft.noticed, Draft.noticed, equal]
  · intro unasked diagnostic member
    rcases Array.mem_append.mp member with old | new
    · exact same.silent unasked diagnostic old
    · exact Draft.noticed_known known unasked words diagnostic new
  · intro unasked diagnostic member
    rcases Array.mem_append.mp member with old | new
    · exact same.silent' unasked diagnostic old
    · exact Draft.noticed_known known unasked words diagnostic new

/-- Lines that are read alike, converted in their own surroundings, leave the same draft. -/
theorem Draft.convertFrom_transplant (draft : Draft) (cursor : Nat)
    {input' lines lines' : List SourceLine}
    (source : List.Forall₂ SourceLine.ReadsAlike draft.input input')
    (alike : List.Forall₂ SourceLine.ReadsAlike lines lines')
    (begun : SameNotices draft.options options draft.diagnostics diagnostics) :
    ∃ after diagnostics', SameNotices draft.options options after.diagnostics diagnostics' ∧
      draft.convertFrom cursor lines = .ok after ∧
      (draft.transplant options input' diagnostics).convertFrom cursor lines' =
        .ok (after.transplant options input' diagnostics') := by
  induction alike generalizing draft diagnostics cursor with
  | nil => exact ⟨draft, diagnostics, begun, rfl, rfl⟩
  | @cons line line' rest rest' here _ inductionHypothesis =>
    have properties : (draft.moveTo cursor line).SameProperties input' :=
      SourceLine.ReadsAlike.sameProperties source rfl
    obtain ⟨middle, notices, words, known, reported, converted, parallel⟩ :=
      convertLine_transplant options diagnostics properties line.text
    obtain ⟨sameOptions, sameInput, -⟩ := convertLine_frame converted
    have moved : (draft.transplant options input' diagnostics).moveTo cursor line' =
        (draft.moveTo cursor line).transplant options input' diagnostics := by
      simp only [moveTo, transplant, here.number]
    have next : SameNotices middle.options options middle.diagnostics
        (diagnostics ++ (draft.moveTo cursor line).noticed options notices words) := by
      rw [sameOptions, reported]
      exact begun.append _ known words
    rw [← here.convertLine_eq, ← moved] at parallel
    obtain ⟨after, diagnostics', same, done, done'⟩ :=
      inductionHypothesis middle (cursor + 1) (sameInput ▸ source) next
    rw [sameOptions] at same
    refine ⟨after, diagnostics', same, ?_, ?_⟩
    · simpa only [convertFrom, converted] using done
    · simpa only [convertFrom, parallel] using done'

end Runs

end BasicToSharp
