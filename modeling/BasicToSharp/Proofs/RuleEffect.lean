import BasicToSharp.Proofs.RuleOutcome

/-!
# What every accepted rule has in common

Whatever statement a rule accepts, it goes on with the same options, source and position,
it only adds to what was noticed, and what it adds says nothing of a malformed line. It
records enums and enumerators under plain names only. These facts are said once for all rules, from
what the ways of writing have in common.
-/

namespace BasicToSharp

/-- The names of a table, in the order of entry. -/
def Table.keys {α : Type} (table : Table α) : List String := table.entries.map Prod.fst

/-- The enumerators recorded so far all have plain names. -/
def EnumRecord.Plain (record : EnumRecord) : Prop :=
  ∀ name ∈ record.values.keys, Token.isIdentifier name = true

/-- All enums and their enumerators have plain names. -/
def Draft.PlainEnums (draft : Draft) : Prop :=
  ∀ entry ∈ draft.symbols.enums.entries, Token.isIdentifier entry.1 = true ∧ entry.2.Plain

section Enumerators

variable {draft after : Draft} {held : EnumRecord}

/-- An enumerator with a plain name is added. -/
theorem EnumRecord.Plain.addValue {name : String} (plain : held.Plain)
    (named : Token.isIdentifier name = true) (value : Int) : (held.addValue name value).Plain := by
  unfold EnumRecord.addValue
  split
  · exact plain
  · next fresh =>
    intro key member
    simp only [Table.keys, Table.enter, fresh, Bool.false_eq_true, if_false, List.map_append,
      List.mem_append, List.map_cons, List.map_nil, List.mem_singleton] at member
    rcases member with old | rfl
    · exact plain key old
    · exact named

/-- An enumerator with a plain name is recorded, whatever value it states. -/
theorem EnumRecord.Plain.record {name : String} (plain : held.Plain)
    (named : Token.isIdentifier name = true) (value : Option String) :
    (held.record name value).Plain := by
  unfold EnumRecord.record
  split
  · exact plain.addValue named _
  · split
    · exact plain.addValue named _
    · split
      · exact plain.addValue named _
      · exact plain

/-- Collecting modifiers gives an enum nothing but modifiers, each of which was given. -/
theorem EnumRecord.addModifiers_frame (modifiers : List String) (record : EnumRecord) :
    ∃ kept, modifiers.foldl addModifier record = { record with modifiers := kept } ∧
      ∀ modifier ∈ kept, modifier ∈ record.modifiers ∨ modifier ∈ modifiers := by
  induction modifiers generalizing record with
  | nil => exact ⟨record.modifiers, rfl, fun modifier member => .inl member⟩
  | cons first rest inductionHypothesis =>
    obtain ⟨kept, same, known⟩ := inductionHypothesis (record.addModifier first)
    refine ⟨kept, ?_, fun modifier member => ?_⟩
    · rw [List.foldl_cons, same]
      unfold addModifier
      split <;> rfl
    · rcases known modifier member with old | later
      · unfold addModifier at old
        split at old
        · exact .inl old
        · rcases List.mem_append.mp old with old | new
          · exact .inl old
          · exact .inr (List.mem_singleton.mp new ▸ List.mem_cons_self)
      · exact .inr (List.mem_cons_of_mem first later)

/-- The record that an enum header starts. -/
theorem EnumRecord.setName_addModifiers (modifiers : List String) (name : String) :
    ∃ kept, (modifiers.foldl addModifier {}).setName name = { name := name, modifiers := kept } ∧
      ∀ modifier ∈ kept, modifier ∈ modifiers := by
  obtain ⟨kept, same, known⟩ := addModifiers_frame modifiers {}
  refine ⟨kept, by rw [same]; rfl, fun modifier member => ?_⟩
  rcases known modifier member with old | given
  · cases old
  · exact given

/-- An enum header starts a record without enumerators, under the name behind its keyword. -/
theorem EnumHeader.read_record (tokens : List Token) (keyword : Nat) :
    Reading.Yields
      (fun header => Token.isIdentifier (tokenAt tokens (keyword + 1)) = true ∧
        ∃ kept, header.record = { name := tokenAt tokens (keyword + 1), modifiers := kept })
      (EnumHeader.read tokens keyword) := by
  have fresh : ∀ (modifiers : List String) (name : String), ∃ kept,
      (modifiers.foldl EnumRecord.addModifier {}).setName name =
        { name := name, modifiers := kept } := by
    intro modifiers name
    obtain ⟨kept, same, -⟩ := EnumRecord.setName_addModifiers modifiers name
    exact ⟨kept, same⟩
  unfold EnumHeader.read
  simp only
  split
  · next named =>
    split
    · exact .bind fun _ _ => .bind fun _ _ => .ok ⟨named, fresh _ _⟩
    · split
      · exact .bind fun _ _ => .bind fun _ _ => .bind fun _ _ => .bind fun _ _ =>
          .ok ⟨named, fresh _ _⟩
      · exact Reading.yields_refuse _ _ _
  · exact Reading.yields_refuse _ _ _

/-- A new enum has a plain name, and no enumerators yet. -/
theorem EnumHeader.read_plain (tokens : List Token) (keyword : Nat) :
    Reading.Yields
      (fun header => Token.isIdentifier header.record.name = true ∧ header.record.Plain)
      (EnumHeader.read tokens keyword) := by
  intro header reading
  obtain ⟨named, kept, same⟩ := EnumHeader.read_record tokens keyword header reading
  rw [same]
  exact ⟨named, nofun⟩

/-- An enumerator is recorded only under a plain name. -/
theorem Draft.PlainEnums.recordEnumerator (plain : draft.PlainEnums) (name : Token)
    (value : Option String) : (draft.recordEnumerator name value).PlainEnums := by
  unfold Draft.recordEnumerator
  split
  · next current _ =>
    split
    · next named =>
      intro entry member
      obtain ⟨⟨key, record⟩, old, rfl⟩ := List.mem_map.mp member
      obtain ⟨plainName, plainRecord⟩ := plain _ old
      by_cases isCurrent : key = current
      · simp only [isCurrent, if_true]
        exact ⟨isCurrent ▸ plainName, plainRecord.record named value⟩
      · simp only [isCurrent, if_false]
        exact ⟨plainName, plainRecord⟩
    · exact plain
  · exact plain

/-- An enum with a plain name is entered. -/
theorem Draft.PlainEnums.enter (plain : draft.PlainEnums) {name : String}
    (named : Token.isIdentifier name = true) (record : held.Plain) :
    ∀ entry ∈ (draft.symbols.enums.enter name held).entries,
      Token.isIdentifier entry.1 = true ∧ entry.2.Plain := by
  unfold Table.enter
  split
  · exact plain
  · intro entry member
    rcases List.mem_append.mp member with old | new
    · exact plain entry old
    · rw [List.mem_singleton.mp new]
      exact ⟨named, record⟩

/-- A declared variable is no enum. -/
theorem Draft.register_enums (draft : Draft) (declared : Variable) :
    (draft.register declared).symbols.enums = draft.symbols.enums := by
  unfold register
  split
  · rfl
  · split
    · split <;> rfl
    · rfl

/-- A declared property is no enum. -/
theorem Draft.registerProperty_enums (draft : Draft) (declared : Variable) :
    (draft.registerProperty declared).symbols.enums = draft.symbols.enums := by
  unfold registerProperty
  split
  · split <;> rfl
  · rfl

end Enumerators

section OpenBlocks

/-- A line that is passed through opens and closes nothing. -/
theorem Draft.passLine_nesting (draft : Draft) (tokens : List Token) :
    (draft.passLine tokens).nesting = draft.nesting := by
  by_cases enum : draft.nesting.insideEnum = true
  · rw [passLine, if_pos enum, recordEnumerator_frame]
    rfl
  · rw [passLine, if_neg enum, reportAll_eq]
    rfl

/-- A `Next` or `Wend` line changes the stack of blocks and the counters, and nothing else that
is open. -/
theorem Nesting.afterNext_frame (nesting : Nesting) (kind : BlockKind) :
    nesting.afterNext kind =
      { nesting with
        blocks := (nesting.afterNext kind).blocks
        counters := (nesting.afterNext kind).counters } := by
  fun_cases afterNext nesting kind <;> rfl

end OpenBlocks

/-- A draft that has gone on from another at the same place, with these notices added. -/
structure Draft.Continues (draft after : Draft) (notices : List Notice) : Prop where
  options : after.options = draft.options
  input : after.input = draft.input
  cursor : after.cursor = draft.cursor
  line : after.line = draft.line
  diagnostics : after.diagnostics =
    draft.diagnostics ++ (notices.map (Diagnostic.mk draft.line)).toArray
  enums : draft.PlainEnums → after.PlainEnums

namespace Draft.Continues

variable {draft after : Draft} {notices : List Notice}

/-- A draft continues itself, without notices. -/
theorem refl (draft : Draft) : draft.Continues draft [] :=
  ⟨rfl, rfl, rfl, rfl, by simp, id⟩

/-- Writing a line brings no notice. -/
theorem emit (continues : draft.Continues after notices) (line : String) :
    draft.Continues (after.emit line) notices :=
  ⟨continues.options, continues.input, continues.cursor, continues.line, continues.diagnostics,
    continues.enums⟩

/-- Writing a header and its brace brings no notice. -/
theorem openBrace (continues : draft.Continues after notices) (header : String) :
    draft.Continues (after.openBrace header) notices :=
  (continues.emit header).emit _

/-- Opening and closing blocks brings no notice. -/
theorem renest (continues : draft.Continues after notices) (change : Nesting → Nesting) :
    draft.Continues (after.renest change) notices :=
  ⟨continues.options, continues.input, continues.cursor, continues.line, continues.diagnostics,
    continues.enums⟩

/-- More notices come behind the earlier ones. -/
theorem reportAll (continues : draft.Continues after notices) (more : List Notice) :
    draft.Continues (after.reportAll more) (notices ++ more) := by
  rw [reportAll_eq]
  refine ⟨continues.options, continues.input, continues.cursor, continues.line, ?_,
    continues.enums⟩
  simp [continues.diagnostics, continues.line, Array.append_assoc]

/-- A closer is noticed exactly if it closes nothing. -/
theorem reportUnless (continues : draft.Continues after notices) (closed : Bool)
    (keyword : String) :
    draft.Continues (after.reportUnless closed keyword)
      (notices ++ if closed then [] else [.unmatchedClose keyword]) := by
  rw [reportUnless_eq]
  exact continues.reportAll _

/-- A change of symbols that records no new enumerator. -/
theorem resymbol (continues : draft.Continues after notices) {change : Symbols → Symbols}
    (kept : (change after.symbols).enums = after.symbols.enums) :
    draft.Continues (after.resymbol change) notices := by
  refine ⟨continues.options, continues.input, continues.cursor, continues.line,
    continues.diagnostics, fun plain => ?_⟩
  unfold PlainEnums Draft.resymbol
  rw [kept]
  exact continues.enums plain

/-- Declaring a variable brings no notice. -/
theorem register (draft : Draft) (declared : Variable) :
    draft.Continues (draft.register declared) [] := by
  refine ⟨?_, ?_, ?_, ?_, ?_, fun plain => ?_⟩
  iterate 4 rw [register_frame]
  · rw [register_frame]
    simp
  · unfold PlainEnums
    rwa [register_enums]

/-- Declaring a property brings no notice. -/
theorem registerProperty (draft : Draft) (declared : Variable) :
    draft.Continues (draft.registerProperty declared) [] := by
  refine ⟨?_, ?_, ?_, ?_, ?_, fun plain => ?_⟩
  iterate 4 rw [registerProperty_frame]
  · rw [registerProperty_frame]
    simp
  · unfold PlainEnums
    rwa [registerProperty_enums]

/-- Recording an enumerator brings no notice. -/
theorem recordEnumerator (draft : Draft) (name : Token) (value : Option String) :
    draft.Continues (draft.recordEnumerator name value) [] := by
  refine ⟨?_, ?_, ?_, ?_, ?_, fun plain => plain.recordEnumerator name value⟩
  iterate 4 rw [recordEnumerator_frame]
  rw [recordEnumerator_frame]
  simp

/-- Starting a function brings no notice. -/
theorem startFunction (draft : Draft) (record : FunctionRecord) (generics : String)
    (comment : Option String) :
    draft.Continues (draft.startFunction record generics comment) [] := by
  rw [startFunction_frame]
  exact ⟨rfl, rfl, rfl, rfl, by simp, id⟩

/-- A line that is passed through adds nothing but unknown words. -/
theorem passLine (draft : Draft) (tokens : List Token) :
    ∃ words : List Token,
      draft.Continues (draft.passLine tokens) (words.map .unregisteredWord) := by
  unfold Draft.passLine
  split
  · exact ⟨[], (recordEnumerator draft _ _).emit _⟩
  · split
    · exact ⟨_, ((refl draft).reportAll _).emit _⟩
    · exact ⟨[], ((refl draft).reportAll _).emit _⟩

end Draft.Continues

/-- True of a notice that is not about a malformed line. -/
def Notice.Sound (notice : Notice) : Prop := ∀ cause, notice ≠ .malformed cause

/-- What every accepted rule does. -/
theorem Statement.rule_continues (statement : Statement) {text : String} {tokens : List Token}
    {draft after : Draft} (ran : (statement.rule text tokens).run draft = .ok () after) :
    ∃ notices, draft.Continues after notices ∧ ∀ notice ∈ notices, notice.Sound := by
  have silent : ∀ {after : Draft}, draft.Continues after [] →
      ∃ notices, draft.Continues after notices ∧ ∀ notice ∈ notices, notice.Sound :=
    fun continues => ⟨[], continues, by simp⟩
  have unclosed : ∀ (closed : Bool) (keyword : String),
      ∀ notice ∈ (if closed then [] else [Notice.unmatchedClose keyword]), notice.Sound := by
    rintro (_ | _) keyword notice member
    · rw [List.mem_singleton.mp member]
      rintro cause ⟨⟩
    · cases member
  have start := Draft.Continues.refl draft
  cases makes_of_run ran with
  | blank | comment | endProgram | exitJump | ifStatement | returnJump =>
    exact silent (start.emit _)
  | doLoop | ifBlock | namespaceHeader | whileLoop => exact silent ((start.renest _).openBrace _)
  | elseIfBranch | elseBranch => exact silent ((start.emit _).openBrace _)
  | endProperty | pendingProperty => exact silent (start.renest _)
  | endBlock | loopEnd | nextLoop =>
    exact ⟨_, ((start.renest _).reportUnless _ _).emit _, unclosed _ _⟩
  | container => exact silent (((start.resymbol rfl).renest _).openBrace _)
  | declaration => exact silent ((Draft.Continues.register draft _).emit _)
  | enumHeader reading =>
    obtain ⟨named, record⟩ := EnumHeader.read_plain tokens _ _ reading
    refine silent (Draft.Continues.openBrace (Draft.Continues.renest ?_ _) _)
    exact ⟨rfl, rfl, rfl, rfl, by simp [Draft.resymbol], fun plain => plain.enter named record⟩
  | forLoop =>
    refine ⟨_, ((start.reportAll _).renest _).openBrace _, ?_⟩
    intro notice member
    split at member
    · rw [List.mem_singleton.mp member]
      rintro cause ⟨⟩
    · cases member
  | function =>
    refine ⟨_, (Draft.Continues.startFunction draft _ _ _).reportAll _, ?_⟩
    intro notice member
    obtain ⟨clause, -, rfl⟩ := List.mem_map.mp member
    rintro cause ⟨⟩
  | accessor => exact silent (Draft.Continues.startFunction draft _ _ _)
  | property => exact silent ((Draft.Continues.registerProperty draft _).emit _)
  | inheritance => exact silent ⟨rfl, rfl, rfl, rfl, by simp, id⟩
  | other =>
    obtain ⟨words, continues⟩ := Draft.Continues.passLine draft tokens
    refine ⟨_, continues, ?_⟩
    intro notice member
    obtain ⟨word, -, rfl⟩ := List.mem_map.mp member
    rintro cause ⟨⟩

end BasicToSharp
