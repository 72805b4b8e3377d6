import BasicToSharp.Proofs.Run

/-!
# Declared symbols are kept

A line may enter a class, an enum, a function or a variable of the file, add a field to a
class or record an enumerator of an enum. Nothing else is ever done to the symbols, whatever
the line is and whether or not its rule accepts it (`Draft.convertLine_symbols`).

Each of these adds at most one name and leaves what is known as it is: of two declarations
of one name the first is kept. So along a run no name is lost, functions and variables keep
their records, classes keep their fields and enums their enumerators, and every record is
found under the name it bears. The locals of the current function are not among the symbols;
they may change while the function that was entered for it does not.
-/

namespace BasicToSharp

namespace Table

variable {α : Type} {keeps : α → α → Prop} {holds : String → α → Prop}
  {table earlier middle later : Table α}

/-- Every name of the earlier table has a value in the later one, which keeps what the
earlier value held. -/
def Grows (keeps : α → α → Prop) (earlier later : Table α) : Prop :=
  ∀ name held, earlier.get? name = some held → ∃ now, later.get? name = some now ∧ keeps held now

/-- Something holds of every name together with its value. -/
def Each (holds : String → α → Prop) (table : Table α) : Prop :=
  ∀ name held, table.get? name = some held → holds name held

/-- A table has grown from itself. -/
theorem Grows.refl (same : ∀ held, keeps held held) (table : Table α) :
    Grows keeps table table := by
  intro name held found
  exact ⟨held, found, same held⟩

/-- What has grown twice has grown. -/
theorem Grows.trans (compose : ∀ {first second third}, keeps first second → keeps second third →
      keeps first third)
    (former : Grows keeps earlier middle) (latter : Grows keeps middle later) :
    Grows keeps earlier later := by
  intro name held found
  obtain ⟨between, foundBetween, keptFirst⟩ := former name held found
  obtain ⟨now, foundNow, keptThen⟩ := latter name between foundBetween
  exact ⟨now, foundNow, compose keptFirst keptThen⟩

/-- An entry leaves the values that are there. -/
theorem grows_enter (same : ∀ held, keeps held held) (table : Table α) (name : String)
    (value : α) : Grows keeps table (table.enter name value) := by
  intro other held found
  refine ⟨held, ?_, same held⟩
  rw [get?_enter, found, Option.some_or]

/-- A change that keeps what every value holds keeps what the table holds. -/
theorem grows_adjust (same : ∀ held, keeps held held) {change : α → α}
    (kept : ∀ held, keeps held (change held)) (table : Table α) (name : String) :
    Grows keeps table (table.adjust name change) := by
  intro other held found
  by_cases here : other = name
  · exact ⟨change held, by rw [get?_adjust, if_pos here, found, Option.map_some], kept held⟩
  · exact ⟨held, by rw [get?_adjust, if_neg here, found], same held⟩

/-- Anything holds of each value of the empty table. -/
theorem each_empty : Each holds ({} : Table α) := by
  intro name held found
  cases found

/-- What holds of each value goes on to hold with a value of which it holds. -/
theorem Each.enter (each : table.Each holds) {name : String} {value : α}
    (here : holds name value) : (table.enter name value).Each holds := by
  intro other held found
  rw [get?_enter] at found
  rcases Option.or_eq_some_iff.mp found with old | ⟨-, new⟩
  · exact each other held old
  · split at new
    · next same =>
      obtain rfl := Option.some.inj new
      exact same ▸ here
    · cases new

/-- What holds of each value goes on to hold under a change that keeps it. -/
theorem Each.adjust (each : table.Each holds) {name : String} {change : α → α}
    (kept : ∀ held, holds name held → holds name (change held)) :
    (table.adjust name change).Each holds := by
  intro other held found
  rw [get?_adjust] at found
  split at found
  · next same =>
    obtain ⟨old, foundOld, rfl⟩ := Option.map_eq_some_iff.mp found
    subst same
    exact kept old (each other old foundOld)
  · exact each other held found

end Table

/-- A class keeps its name and every field, with the same content. -/
structure ClassRecord.Keeps (earlier later : ClassRecord) : Prop where
  name : later.name = earlier.name
  fields : earlier.fields.Grows (· = ·) later.fields

/-- An enum keeps its name, its modifiers and every recorded enumerator, with the same value. -/
structure EnumRecord.Keeps (earlier later : EnumRecord) : Prop where
  name : later.name = earlier.name
  modifiers : later.modifiers = earlier.modifiers
  values : earlier.values.Grows (· = ·) later.values

namespace ClassRecord.Keeps

/-- A class keeps what it has. -/
theorem refl (record : ClassRecord) : record.Keeps record :=
  ⟨rfl, .refl (fun _ => rfl) _⟩

/-- A class that keeps twice keeps. -/
theorem trans {first second third : ClassRecord} (former : first.Keeps second)
    (latter : second.Keeps third) : first.Keeps third :=
  ⟨latter.name.trans former.name, former.fields.trans Eq.trans latter.fields⟩

/-- A new field takes nothing from a class. -/
theorem declare (record : ClassRecord) (declared : Variable) :
    record.Keeps (record.declare declared) :=
  ⟨rfl, Table.grows_enter (fun _ => rfl) _ _ _⟩

end ClassRecord.Keeps

namespace EnumRecord.Keeps

/-- An enum keeps what it has. -/
theorem refl (record : EnumRecord) : record.Keeps record :=
  ⟨rfl, rfl, .refl (fun _ => rfl) _⟩

/-- An enum that keeps twice keeps. -/
theorem trans {first second third : EnumRecord} (former : first.Keeps second)
    (latter : second.Keeps third) : first.Keeps third :=
  ⟨latter.name.trans former.name, latter.modifiers.trans former.modifiers,
    former.values.trans Eq.trans latter.values⟩

/-- A new enumerator takes nothing from an enum. -/
theorem addValue (record : EnumRecord) (name : String) (value : Int) :
    record.Keeps (record.addValue name value) := by
  by_cases known : record.values.contains name = true
  · rw [EnumRecord.addValue, if_pos known]
    exact refl record
  · rw [EnumRecord.addValue, if_neg known]
    exact ⟨rfl, rfl, Table.grows_enter (fun _ => rfl) _ _ _⟩

/-- Recording an enumerator adds one value or none. -/
theorem record (record : EnumRecord) (name : String) (value : Option String) :
    record.Keeps (record.record name value) := by
  fun_cases EnumRecord.record record name value with
  | case1 => exact addValue record name record.next
  | case2 text integer => exact addValue record name integer
  | case3 text _ integer => exact addValue record name integer
  | case4 => exact refl record

end EnumRecord.Keeps

namespace Symbols

/-- What one line can do to the symbols. -/
inductive Change (before : Symbols) : Symbols → Prop
  | keep : Change before before
  | addClass (name : String) : Change before (before.addClass name)
  | addField (className : String) (declared : Variable) :
      Change before (before.addField className declared)
  | addEnum (record : EnumRecord) : Change before (before.addEnum record)
  | addEnumerator (enum name : String) (value : Option String) :
      Change before { before with enums := before.enums.adjust enum (·.record name value) }
  | addFunction (record : FunctionRecord) : Change before (before.addFunction record)
  | addVariable (declared : Variable) : Change before (before.addVariable declared)

/-- All symbols are still there: functions and variables with the same records, classes with
all their fields and enums with all their enumerators. -/
structure Grows (earlier later : Symbols) : Prop where
  classes : earlier.classes.Grows ClassRecord.Keeps later.classes
  enums : earlier.enums.Grows EnumRecord.Keeps later.enums
  functions : earlier.functions.Grows (· = ·) later.functions
  globals : earlier.globals.Grows (· = ·) later.globals

/-- Every record is found under the name it bears, and so is every field of a class. -/
structure OwnNames (symbols : Symbols) : Prop where
  classes : symbols.classes.Each fun name record => record.name = name
  fields : symbols.classes.Each fun _ record =>
    record.fields.Each fun name declared => declared.name = name
  enums : symbols.enums.Each fun name record => record.name = name
  functions : symbols.functions.Each fun name record => record.name = name
  globals : symbols.globals.Each fun name declared => declared.name = name

variable {before after earlier middle later : Symbols}

/-- The symbols have grown from themselves. -/
theorem Grows.refl (symbols : Symbols) : symbols.Grows symbols :=
  ⟨.refl ClassRecord.Keeps.refl _, .refl EnumRecord.Keeps.refl _, .refl (fun _ => rfl) _,
    .refl (fun _ => rfl) _⟩

/-- Symbols that have grown twice have grown. -/
theorem Grows.trans (former : earlier.Grows middle) (latter : middle.Grows later) :
    earlier.Grows later :=
  ⟨former.classes.trans ClassRecord.Keeps.trans latter.classes,
    former.enums.trans EnumRecord.Keeps.trans latter.enums,
    former.functions.trans Eq.trans latter.functions,
    former.globals.trans Eq.trans latter.globals⟩

/-- What one line does to the symbols leaves all of them there. -/
theorem Change.grows (change : Change before after) : before.Grows after := by
  have still := Grows.refl before
  cases change with
  | keep => exact still
  | addClass name =>
    exact { still with classes := Table.grows_enter ClassRecord.Keeps.refl _ _ _ }
  | addField className declared =>
    have kept := fun record => ClassRecord.Keeps.declare record declared
    exact { still with classes := Table.grows_adjust ClassRecord.Keeps.refl kept _ _ }
  | addEnum record =>
    exact { still with enums := Table.grows_enter EnumRecord.Keeps.refl _ _ _ }
  | addEnumerator enum name value =>
    have kept := fun record => EnumRecord.Keeps.record record name value
    exact { still with enums := Table.grows_adjust EnumRecord.Keeps.refl kept _ _ }
  | addFunction record =>
    exact { still with functions := Table.grows_enter (fun _ => rfl) _ _ _ }
  | addVariable declared =>
    exact { still with globals := Table.grows_enter (fun _ => rfl) _ _ _ }

/-- What one line does to the symbols leaves every record under its own name: records are
entered under their names, and a change of a record does not change its name. -/
theorem Change.ownNames (change : Change before after) (own : before.OwnNames) :
    after.OwnNames := by
  cases change with
  | keep => exact own
  | addClass name =>
    exact { own with
      classes := own.classes.enter rfl
      fields := own.fields.enter Table.each_empty }
  | addField className declared =>
    exact { own with
      classes := own.classes.adjust fun _ same => same
      fields := own.fields.adjust fun _ each => each.enter rfl }
  | addEnum record => exact { own with enums := own.enums.enter rfl }
  | addEnumerator enum name value =>
    have kept := fun record => (EnumRecord.Keeps.record record name value).name
    exact { own with enums := own.enums.adjust fun record same => (kept record).trans same }
  | addFunction record => exact { own with functions := own.functions.enter rfl }
  | addVariable declared => exact { own with globals := own.globals.enter rfl }

end Symbols

namespace Draft

variable {draft after : Draft} {text : String}

/-- A declared variable is entered at most once among the symbols. -/
theorem register_symbols (draft : Draft) (declared : Variable) :
    draft.symbols.Change (draft.register declared).symbols := by
  fun_cases register draft declared with
  | case1 => exact .keep
  | case2 => exact .addField _ _
  | case3 => exact .addVariable _
  | case4 => exact .addVariable _

/-- A declared property is entered once among the symbols. -/
theorem registerProperty_symbols (draft : Draft) (declared : Variable) :
    draft.symbols.Change (draft.registerProperty declared).symbols := by
  fun_cases registerProperty draft declared with
  | case1 => exact .addField _ _
  | case2 => exact .addVariable _
  | case3 => exact .addVariable _

/-- An enumerator is entered at most once among the symbols. -/
theorem recordEnumerator_symbols (draft : Draft) (name : Token) (value : Option String) :
    draft.symbols.Change (draft.recordEnumerator name value).symbols := by
  fun_cases recordEnumerator draft name value with
  | case1 => exact .addEnumerator _ _ _
  | case2 => exact .keep
  | case3 => exact .keep

/-- A started function is entered among the symbols. -/
theorem startFunction_symbols (draft : Draft) (record : FunctionRecord) (generics : String)
    (comment : Option String) :
    draft.symbols.Change (draft.startFunction record generics comment).symbols := by
  rw [startFunction_frame]
  exact .addFunction _

/-- A line that is passed through enters one enumerator at most. -/
theorem passLine_symbols (draft : Draft) (tokens : List Token) :
    draft.symbols.Change (draft.passLine tokens).symbols := by
  by_cases enum : draft.nesting.insideEnum = true
  · rw [passLine, if_pos enum]
    exact draft.recordEnumerator_symbols _ _
  · rw [passLine, if_neg enum, reportAll_eq]
    exact .keep

end Draft

/-- What a rule does to the symbols when it accepts its line. -/
theorem Statement.rule_symbols (statement : Statement) {text : String} {tokens : List Token}
    {draft after : Draft} (ran : (statement.rule text tokens).run draft = .ok () after) :
    draft.symbols.Change after.symbols := by
  cases makes_of_run ran with
  | container => exact .addClass _
  | declaration => exact draft.register_symbols _
  | enumHeader => exact .addEnum _
  | function =>
    rw [Draft.reportAll_eq]
    exact draft.startFunction_symbols _ _ _
  | accessor => exact draft.startFunction_symbols _ _ _
  | property => exact draft.registerProperty_symbols _
  | other => exact draft.passLine_symbols tokens
  | forLoop =>
    rw [Draft.reportAll_eq]
    exact .keep
  | endBlock | loopEnd | nextLoop =>
    rw [Draft.reportUnless_eq, Draft.reportAll_eq]
    exact .keep
  | _ => exact .keep

namespace Draft

variable {draft after : Draft} {text : String}

/-- What a line does to the symbols, accepted or not. -/
theorem convertLine_symbols (converted : draft.convertLine text = .ok after) :
    draft.symbols.Change after.symbols := by
  rcases draft.convertLine_cases text with ⟨accepted, ran, same⟩ | ⟨cause, -, same⟩
  · obtain rfl := Except.ok.inj (converted.symm.trans same)
    exact Statement.rule_symbols _ ran
  · obtain rfl := Except.ok.inj (converted.symm.trans same)
    exact (draft.report (.malformed cause)).passLine_symbols (lineTokens text)

namespace Runs

variable {start draft : Draft} {stages : List Stage}

/-- Along a run the symbols only grow. -/
theorem symbols_grow (run : start.Runs stages draft) : start.symbols.Grows draft.symbols := by
  induction run with
  | start => exact .refl _
  | line earlier cursor line converted inductionHypothesis =>
    exact inductionHypothesis.trans (convertLine_symbols converted).grows

/-- Along a run every record is under its own name. -/
theorem symbols_ownNames (run : start.Runs stages draft) (own : start.symbols.OwnNames) :
    draft.symbols.OwnNames := by
  induction run with
  | start => exact own
  | line earlier cursor line converted inductionHypothesis =>
    exact (convertLine_symbols converted).ownNames inductionHypothesis

end Runs

/-- At the start there are no records. -/
theorem start_ownNames (options : Options) (input : List SourceLine) :
    (Draft.start options input).symbols.OwnNames :=
  ⟨Table.each_empty, Table.each_empty, Table.each_empty, Table.each_empty, Table.each_empty⟩

end Draft

/-- Let a run from an empty draft come to some draft and go on from there. Every class, enum,
function and variable that is known there is known at the end: functions and variables with
the same records, classes with all their fields as they were, and enums with their name, their
modifiers and all their enumerators as they were. At both places every record, and every field
of a class, is found under the name it bears. -/
theorem symbols_only_grow {options : Options} {input : List SourceLine}
    {first second : List Stage} {middle draft : Draft}
    (reached : (Draft.start options input).Runs first middle)
    (later : middle.Runs second draft) :
    middle.symbols.Grows draft.symbols ∧ middle.symbols.OwnNames ∧ draft.symbols.OwnNames := by
  have begun := Draft.start_ownNames options input
  have there := reached.symbols_ownNames begun
  exact ⟨later.symbols_grow, there, later.symbols_ownNames there⟩

/-- Here a class, its field, an enum, its enumerator and a function are all declared a second
time, in another way and badly nested. -/
theorem symbols_only_grow_redeclared :
    let start := Draft.start {} []
    let lines := ["Class A", "Dim x As Integer", "Enum E", "Red = 5", "End Enum",
      "Function F(n As Long) As Long"].map (SourceLine.mk 1)
    let more := ["End Function", "Enum E", "Class A", "Red = 7", "Blue", "Dim x As String",
      "Sub F()", "Dim n As String"].map (SourceLine.mk 2)
    ∃ middle draft, start.Runs (start.trace 0 lines) middle ∧
      middle.Runs (middle.trace 6 more) draft ∧
      (∃ record, draft.symbols.classes.get? "A" = some record ∧ record.name = "A" ∧
        record.fields.get? "x" = some { name := "x", type := "int" }) ∧
      (∃ record, draft.symbols.enums.get? "E" = some record ∧ record.value? "Red" = some 5) ∧
      ∃ record, draft.symbols.functions.get? "F" = some record ∧
        record.returnType = some "long" ∧ record.local? "n" = some { name := "n", type := "long" } := by
  intro start lines more
  obtain ⟨middle, converted⟩ := start.convertFrom_ok 0 lines
  obtain ⟨draft, converted'⟩ := middle.convertFrom_ok 6 more
  have computed : (start.convertFrom 0 lines).toOption.map (·.symbols) = some
      { classes := ⟨[("A", ⟨"A", ⟨[("x", { name := "x", type := "int" })]⟩⟩)]⟩
        enums := ⟨[("E", { name := "E", values := ⟨[("Red", 5)]⟩, next := 6 })]⟩
        functions := ⟨[("F",
          { name := "F"
            returnType := some "long"
            parameters := [["long", "n"]]
            locals := ⟨[("n", { name := "n", type := "long" })]⟩ })]⟩ } := by
    decide +kernel
  rw [converted] at computed
  have known : middle.symbols = _ := Option.some.inj computed
  have run := Draft.runs_trace converted
  have run' := Draft.runs_trace converted'
  obtain ⟨grows, -, own⟩ := symbols_only_grow run run'
  obtain ⟨classNow, foundClass, keptClass⟩ := grows.classes "A" ⟨"A", _⟩ (by rw [known]; rfl)
  obtain ⟨fieldNow, foundField, rfl⟩ := keptClass.fields "x" _ rfl
  obtain ⟨enumNow, foundEnum, keptEnum⟩ := grows.enums "E" _ (by rw [known]; rfl)
  obtain ⟨value, foundValue, rfl⟩ := keptEnum.values "Red" 5 rfl
  obtain ⟨function, foundFunction, rfl⟩ := grows.functions "F" _ (by rw [known]; rfl)
  exact ⟨middle, draft, run, run', ⟨classNow, foundClass, own.classes "A" classNow foundClass,
    foundField⟩, ⟨enumNow, foundEnum, foundValue⟩, _, foundFunction, rfl, rfl⟩

end BasicToSharp
