import BasicToSharp.Proofs.AlikeHeader
import BasicToSharp.Proofs.RuleEffect

/-!
# The shape of a draft

The shape of a draft is what later lines can be steered by: how many lines are written,
which blocks are open, which function is current, which names every table holds, and what
was noticed, by line and kind. The texts of the lines, the values of variables and the
wording of notices are not part of it.

Two results of reading that agree lead to drafts of one shape. Each such fact is about one
way in which rules write, and rules are put together from them.
-/

namespace BasicToSharp

namespace Table

variable {α β : Type}

/-- The names of a table, each with what is looked at of its value. -/
def view (look : α → β) (table : Table α) : List (String × β) :=
  table.entries.map fun (name, value) => (name, look value)

/-- Which names a table holds after an entry does not depend on the value. -/
theorem keys_enter (table : Table α) (name : String) (value value' : α) :
    (table.enter name value).keys = (table.enter name value').keys := by
  unfold enter
  split
  · rfl
  · simp [keys]

/-- A change of a value enters no name. -/
theorem keys_adjust (table : Table α) (name : String) (change : α → α) :
    (table.adjust name change).keys = table.keys := by
  simp only [keys, adjust, Entries.adjust, List.map_map]
  apply List.map_congr_left
  rintro ⟨key, value⟩ -
  simp only [Function.comp]
  split <;> rfl

/-- Values that look the same are entered alike. -/
theorem view_enter {look : α → β} (table : Table α) (name : String) {value value' : α}
    (same : look value = look value') :
    (table.enter name value).view look = (table.enter name value').view look := by
  unfold enter
  split
  · rfl
  · simp [view, same]

/-- Two changes that cannot be told apart on the values of a table. -/
theorem view_adjust {look : α → β} (table : Table α) (name : String) {change change' : α → α}
    (same : ∀ entry ∈ table.entries, look (change entry.2) = look (change' entry.2)) :
    (table.adjust name change).view look = (table.adjust name change').view look := by
  simp only [view, adjust, Entries.adjust, List.map_map]
  apply List.map_congr_left
  rintro ⟨key, value⟩ member
  simp only [Function.comp]
  split
  · rw [same ⟨key, value⟩ member]
  · rfl

/-- A value under a name is one of the entries. -/
theorem mem_entries_of_get? {table : Table α} {name : String} {value : α}
    (found : table.get? name = some value) : (name, value) ∈ table.entries := by
  unfold get? at found
  obtain ⟨before, after, split, -⟩ := List.lookup_eq_some_iff.mp found
  rw [split]
  simp

end Table

/-- What is compared of a function. The names of its locals are left out where a parameter
takes its default value for its name. -/
structure FunctionOutline where
  name : String
  modifiers : List String
  returnType : Option String
  parameters : List (List Token)
  locals : Option (List String)
  deriving DecidableEq, Repr

/-- True of a parameter with a default value whose type and name are both words for passing
it: they are skipped, and the default value is bound in the place of the name. -/
def bindsDefault (parameter : List Token) : Bool :=
  (parameter.dropWhile fun token => token == "ref" || token == "params").head? == some "="

-- `ref As ref = "a"`: the local of this parameter is named by the literal.
example : bindsDefault ["ref", "ref", "=", "\"a\""] = true ∧
    parameterBinding ["ref", "ref", "=", "\"a\""] = some ("=", "\"a\"") := by decide

/-- The outline of a function: its header without default values, and its locals. -/
def FunctionRecord.outline (record : FunctionRecord) : FunctionOutline where
  name := record.name
  modifiers := record.modifiers
  returnType := record.returnType
  parameters := record.parameters.map parameterHead
  locals :=
    if record.parameters.any fun parameter => bindsDefault (parameterHead parameter)
    then none else some record.locals.keys

/-- The names that a file has declared: each class with its fields, each enum with its
enumerators, each function with its outline, and the variables outside them. -/
structure SymbolOutline where
  classes : List (String × List String)
  enums : List (String × List String)
  functions : List (String × FunctionOutline)
  globals : List String
  deriving DecidableEq, Repr

/-- The outline of the declared symbols. -/
def Symbols.outline (symbols : Symbols) : SymbolOutline where
  classes := symbols.classes.view fun record => record.fields.keys
  enums := symbols.enums.view fun record => record.values.keys
  functions := symbols.functions.view FunctionRecord.outline
  globals := symbols.globals.keys

/-- The shape of a draft. -/
structure Shape where
  written : Nat
  containers : List Container
  enums : List String
  doLoops : List DoKind
  blocks : List BlockKind
  counters : List String
  function : Option FunctionOutline
  propertyHeader : Option Nat
  symbols : SymbolOutline
  notices : List (Nat × String)
  deriving DecidableEq, Repr

/-- The line and the kind of a diagnostic. -/
def Diagnostic.mark (diagnostic : Diagnostic) : Nat × String :=
  (diagnostic.line, diagnostic.notice.kind)

/-- The shape of a draft. -/
def Draft.shape (draft : Draft) : Shape where
  written := draft.output.size
  containers := draft.nesting.containers
  enums := draft.nesting.enums
  doLoops := draft.nesting.doLoops
  blocks := draft.nesting.blocks
  counters := draft.nesting.counters
  function := draft.nesting.function.map FunctionRecord.outline
  propertyHeader := draft.nesting.propertyHeader
  symbols := draft.symbols.outline
  notices := draft.diagnostics.toList.map Diagnostic.mark

section Records

variable {record one other : FunctionRecord} {declared declared' : Variable}

/-- A parameter is bound as its head says, unless it binds its default value. -/
theorem parameterBinding_of_head {parameter : List Token}
    (named : bindsDefault (parameterHead parameter) = false) :
    parameterBinding parameter = parameterBinding (parameterHead parameter) := by
  induction parameter with
  | nil => rfl
  | cons token rest inductionHypothesis =>
    by_cases isEquals : token = "="
    · simp [bindsDefault, parameterHead, isEquals] at named
    simp only [parameterHead, if_neg isEquals] at named ⊢
    cases passes : token == "ref" || token == "params" with
    | true =>
      simp only [bindsDefault, parameterBinding, List.dropWhile_cons, passes, if_true] at named ⊢
      exact inductionHypothesis named
    | false =>
      -- The type is reached, and the head holds whatever stands in the place of the name.
      simp only [parameterBinding, List.dropWhile_cons, passes, Bool.false_eq_true, if_false]
      cases rest with
      | nil => rfl
      | cons name behind =>
        by_cases noName : name = "="
        · simp [parameterHead, noName]
        · simp [parameterHead, noName]

/-- The bindings of parameters come from their heads alone, unless one of them binds its
default value. -/
theorem bindings_of_heads {parameters : List (List Token)}
    (named : (parameters.map parameterHead).any bindsDefault = false) :
    parameters.filterMap parameterBinding =
      (parameters.map parameterHead).filterMap parameterBinding := by
  induction parameters with
  | nil => rfl
  | cons parameter rest inductionHypothesis =>
    simp only [List.map_cons, List.any_cons, Bool.or_eq_false_iff] at named
    simp only [List.map_cons, List.filterMap_cons, parameterBinding_of_head named.1,
      inductionHypothesis named.2]

/-- Locals after one more is declared. -/
def Table.redeclare (locals : Table Variable) (declared : Variable) : Table Variable :=
  if locals.contains declared.name then
    locals.adjust declared.name ({ · with type := declared.type })
  else locals.enter declared.name declared

/-- Declaring a variable in a function touches its locals only. -/
theorem FunctionRecord.declare_eq (record : FunctionRecord) (declared : Variable) :
    record.declare declared = { record with locals := record.locals.redeclare declared } := by
  unfold FunctionRecord.declare Table.redeclare
  split <;> rfl

/-- Which names are declared does not depend on their types. -/
theorem Table.keys_redeclare (locals : Table Variable) (same : declared.name = declared'.name) :
    (locals.redeclare declared).keys = (locals.redeclare declared').keys := by
  unfold Table.redeclare
  rw [same]
  split
  · rw [Table.keys_adjust, Table.keys_adjust]
  · exact Table.keys_enter _ _ _ _

/-- Variables of one name are declared alike in a function. -/
theorem FunctionRecord.outline_declare (record : FunctionRecord)
    (same : declared.name = declared'.name) :
    (record.declare declared).outline = (record.declare declared').outline := by
  simp only [declare_eq, outline, Table.keys_redeclare record.locals same]

/-- Binding parameters only adds locals. -/
theorem FunctionRecord.bindParameters_eq (record : FunctionRecord) :
    record.bindParameters = { record with
      locals := (record.parameters.filterMap parameterBinding).foldl
        (fun locals (type, name) => locals.redeclare { name := name, type := type })
        record.locals } := by
  unfold bindParameters
  generalize record.parameters.filterMap parameterBinding = bindings
  induction bindings generalizing record with
  | nil => rfl
  | cons binding rest inductionHypothesis =>
    rw [List.foldl_cons, inductionHypothesis]
    simp only [declare_eq, List.foldl_cons]

/-- Functions with the same head have one outline when their parameters are bound. -/
theorem FunctionRecord.SameHead.outline_eq (same : one.SameHead other) :
    one.bindParameters.outline = other.bindParameters.outline := by
  obtain ⟨name, modifiers, returnType, parameters, locals⟩ := same
  have asHeads : ∀ parameters : List (List Token),
      (parameters.any fun parameter => bindsDefault (parameterHead parameter)) =
        (parameters.map parameterHead).any bindsDefault := by
    intro parameters
    simp [List.any_map, Function.comp_def]
  simp only [bindParameters_eq, outline, asHeads, name, modifiers, returnType, locals, ← parameters]
  congr 1
  split
  · rfl
  · next named =>
    have named := eq_false_of_ne_true named
    have named' : (other.parameters.map parameterHead).any bindsDefault = false := by
      rwa [← parameters]
    rw [bindings_of_heads named, bindings_of_heads named', parameters]

end Records

section Writing

variable {draft : Draft} {declared declared' : Variable} {record record' : FunctionRecord}

/-- A written line counts, whatever it says. -/
theorem Draft.shape_emit (draft : Draft) (line : String) :
    (draft.emit line).shape = { draft.shape with written := draft.shape.written + 1 } := by
  simp [shape, emit]

/-- A header and its brace count as two lines. -/
theorem Draft.shape_openBrace (draft : Draft) (header : String) :
    (draft.openBrace header).shape =
      { draft.shape with written := draft.shape.written + 2 } := by
  simp [openBrace, shape_emit]

/-- A notice counts by its line and kind. -/
theorem Draft.shape_reportAll (draft : Draft) (notices : List Notice) :
    (draft.reportAll notices).shape = { draft.shape with
      notices := draft.shape.notices ++ notices.map fun notice => (draft.line, notice.kind) } := by
  simp [shape, reportAll_eq, Diagnostic.mark, Function.comp_def]

/-- Variables of one name are entered alike outside classes. -/
theorem Symbols.outline_addVariable (symbols : Symbols) (same : declared.name = declared'.name) :
    (symbols.addVariable declared).outline = (symbols.addVariable declared').outline := by
  simp only [addVariable, outline, same, Table.keys_enter symbols.globals _ declared declared']

/-- Variables of one name are entered alike in a class. -/
theorem Symbols.outline_addField (symbols : Symbols) (className : String)
    (same : declared.name = declared'.name) :
    (symbols.addField className declared).outline =
      (symbols.addField className declared').outline := by
  simp only [addField, outline]
  rw [Table.view_adjust symbols.classes className]
  intro entry _
  simp only [ClassRecord.declare, same, Table.keys_enter entry.2.fields _ declared declared']

/-- Functions of one name and outline are entered alike. -/
theorem Symbols.outline_addFunction (symbols : Symbols) (same : record.name = record'.name)
    (sameOutline : record.outline = record'.outline) :
    (symbols.addFunction record).outline = (symbols.addFunction record').outline := by
  simp only [addFunction, outline, same]
  rw [Table.view_enter symbols.functions _ sameOutline]

/-- Variables of one name are entered alike. -/
theorem Draft.shape_register (draft : Draft) (same : declared.name = declared'.name) :
    (draft.register declared).shape = (draft.register declared').shape := by
  unfold register
  split
  · next record _ => simp only [shape, Option.map_some, record.outline_declare same]
  · split
    · split
      · simp only [shape, draft.symbols.outline_addField _ same]
      · simp only [shape, draft.symbols.outline_addVariable same]
    · simp only [shape, draft.symbols.outline_addVariable same]

/-- Functions with the same head are started alike, whatever comment stands behind them. -/
theorem Draft.shape_startFunction (draft : Draft) (same : record.SameHead record')
    (generics generics' : String) (comment comment' : Option String) :
    (draft.startFunction record generics comment).shape =
      (draft.startFunction record' generics' comment').shape := by
  have outlines := same.outline_eq
  have names : record.bindParameters.name = record'.bindParameters.name :=
    congrArg FunctionOutline.name outlines
  simp only [startFunction]
  split
  · simp [shape, resymbol, renest, openBrace, emit, Nesting.enterFunction, outlines,
      draft.symbols.outline_addFunction names outlines]
  · simp [shape, resymbol, renest, openBrace, emit, Nesting.enterFunction, outlines,
      draft.symbols.outline_addFunction names outlines]

end Writing

section Enumerators

/-- Two value texts that cannot be told apart when an enumerator is recorded: the same
text, or both with a quote in them, or none at all. -/
def SameValue (one other : Option String) : Prop :=
  one = other ∨ ∃ text text', one = some text ∧ other = some text' ∧
    Token.quoteChar ∈ text.toList ∧ Token.quoteChar ∈ text'.toList

/-- A text with a quote in it is the name of nothing. -/
theorem not_isIdentifier_of_quoted {text : String} (quoted : Token.quoteChar ∈ text.toList) :
    Token.isIdentifier text = false := by
  unfold Token.isIdentifier
  split
  · rfl
  · next first rest shape =>
    rw [shape] at quoted
    rw [Bool.and_eq_false_iff]
    rcases List.mem_cons.mp quoted with rfl | behind
    · exact .inl (by decide)
    · refine .inr ?_
      rw [List.all_eq_false]
      exact ⟨Token.quoteChar, behind, by decide⟩

/-- A value that is no number and names no enumerator is not recorded. -/
theorem EnumRecord.record_quoted {record : EnumRecord} {text : String} (name : String)
    (plain : record.Plain) (quoted : Token.quoteChar ∈ text.toList) :
    record.record name (some text) = record := by
  have unknown : record.value? text = none := by
    cases found : record.value? text with
    | none => rfl
    | some value =>
      have key : text ∈ record.values.keys :=
        List.mem_map.mpr ⟨_, Table.mem_entries_of_get? found, rfl⟩
      exact absurd (plain text key) (by simp [not_isIdentifier_of_quoted quoted])
  simp [EnumRecord.record, Token.readInteger_quoted quoted, unknown]

/-- An enumerator is recorded alike for two values that cannot be told apart. -/
theorem Draft.shape_recordEnumerator {draft : Draft} {value value' : Option String}
    (name : Token) (plain : draft.PlainEnums) (same : SameValue value value') :
    (draft.recordEnumerator name value).shape = (draft.recordEnumerator name value').shape := by
  rcases same with rfl | ⟨text, text', rfl, rfl, quoted, quoted'⟩
  · rfl
  · unfold recordEnumerator
    split
    · split
      · simp only [shape, Symbols.outline]
        rw [Table.view_adjust draft.symbols.enums]
        intro entry member
        rw [EnumRecord.record_quoted name (plain entry member).2 quoted,
          EnumRecord.record_quoted name (plain entry member).2 quoted']
      · rfl
    · rfl

end Enumerators

section PassedThrough

variable {inside : Bool} {left right : List Token}

/-- Words are collected outside literals, so lines that are alike give the same ones. -/
theorem Token.AlikeFrom.collectWords_eq (test : Token → Bool) (alike : AlikeFrom inside left right)
    (found : List Token) {previous previous' : Token}
    (same : inside = false → previous = previous') :
    collectWords test found previous (markFrom inside left) =
      collectWords test found previous' (markFrom inside right) := by
  induction alike generalizing found previous previous' with
  | nil => rfl
  | toggle _ inductionHypothesis =>
    simp only [markFrom, if_true, collectWords, Bool.not_true, Bool.false_and, Bool.false_eq_true,
      if_false]
    exact inductionHypothesis found fun _ => rfl
  | @code token _ _ plain _ inductionHypothesis =>
    simp only [markFrom, plain, if_false, collectWords, same rfl,
      inductionHypothesis found fun _ => rfl, inductionHypothesis (token :: found) fun _ => rfl]
  | literal plain plain' _ inductionHypothesis =>
    simp only [markFrom, plain, plain', if_false, collectWords, Bool.not_true, Bool.false_and,
      Bool.false_eq_true]
    exact inductionHypothesis found (by simp)

/-- The unknown words of a line are found outside literals. -/
theorem Draft.unknownWords_alike (draft : Draft) (alike : Token.Alike left right) :
    draft.unknownWords left = draft.unknownWords right :=
  Token.AlikeFrom.collectWords_eq _ alike [] fun _ => rfl

/-- Enumerators that are alike state values that cannot be told apart. -/
theorem enumeratorValue_alike (alike : Token.Alike left right)
    (named : Token.isIdentifier (tokenAt left 0) = true) :
    SameValue (enumeratorValue left) (enumeratorValue right) := by
  have behindName := outside_behind_name (Token.outside_zero left) named
  unfold enumeratorValue
  rw [← Token.Alike.tokenAt_eq alike behindName]
  split
  · next isEquals =>
    have behindEquals := outside_behind_token behindName isEquals (by decide)
    rcases Token.AlikeFrom.eq_or_mem (Token.Alike.drop alike behindEquals) rfl with
      same | ⟨quoted, quoted'⟩
    · exact .inl (by rw [same])
    · exact .inr ⟨_, _, rfl, rfl, Token.quoteChar_mem_join quoted, Token.quoteChar_mem_join quoted'⟩
  · exact .inl rfl

/-- A line that is passed through leaves a draft of one shape, whatever is in its literals. -/
theorem Draft.shape_passLine {draft : Draft} (plain : draft.PlainEnums)
    (alike : Token.Alike left right) :
    (draft.passLine left).shape = (draft.passLine right).shape := by
  unfold passLine
  split
  · rw [Draft.shape_emit, Draft.shape_emit,
      ← Token.Alike.tokenAt_eq alike (Token.outside_zero left)]
    by_cases named : Token.isIdentifier (tokenAt left 0) = true
    · rw [Draft.shape_recordEnumerator _ plain (enumeratorValue_alike alike named)]
    · have unchanged : ∀ value, draft.recordEnumerator (tokenAt left 0) value = draft := by
        intro value
        simp only [Draft.recordEnumerator, named]
        split <;> simp
      rw [unchanged, unchanged]
  · rw [Draft.shape_emit, Draft.shape_emit, draft.unknownWords_alike alike]

end PassedThrough

end BasicToSharp
