import BasicToSharp.Conversion.Line

/-!
# What a rule leaves behind

A rule reads its line first, which cannot touch the draft, and writes only when the whole
reading has succeeded. Here every rule is brought into that form: the outcome is that of
one reading, settled on the draft the rule was given. An obstacle therefore always leaves
that draft, and on success the draft left behind is written out in full as a function of
what was read. Everything else that is said about rules starts from these equations and
does not open the rules again.

`Statement.Makes` gathers the equations for accepted lines: one case for every way in which a
line is accepted. What every accepted line keeps is shown by cases on it.
-/

namespace BasicToSharp

namespace Reading

variable {α β : Type}

/-- A reading that has succeeded goes on with its result. -/
@[simp] theorem ok_bind (value : α) (next : α → Reading β) :
    (Except.ok value : Reading α) >>= next = next value := rfl

/-- A reading that has failed goes no further. -/
@[simp] theorem error_bind (obstacle : Obstacle) (next : α → Reading β) :
    (Except.error obstacle : Reading α) >>= next = .error obstacle := rfl

/-- The result of a reading is changed. -/
@[simp] theorem map_ok (change : α → β) (value : α) :
    change <$> (Except.ok value : Reading α) = .ok (change value) := rfl

/-- There is no result to change. -/
@[simp] theorem map_error (change : α → β) (obstacle : Obstacle) :
    change <$> (Except.error obstacle : Reading α) = .error obstacle := rfl

/-- Giving a result back succeeds. -/
@[simp] theorem pure_eq_ok (value : α) : (pure value : Reading α) = .ok value := rfl

/-- What holds of every result that a reading can have. -/
def Yields (holds : α → Prop) (reading : Reading α) : Prop :=
  ∀ value, reading = .ok value → holds value

/-- What holds of a result holds of the reading that gives it. -/
theorem Yields.ok {holds : α → Prop} {value : α} (held : holds value) :
    Yields holds (.ok value) := by
  rintro _ ⟨⟩
  exact held

/-- A refusal yields nothing, so anything holds of what it yields. -/
theorem yields_refuse (holds : α → Prop) (construct : Construct) (reason : Reason) :
    Yields holds (refuse construct reason) := by
  rintro _ ⟨⟩

/-- What a reading in two steps yields is what the second yields on results of the first. -/
theorem Yields.bind {holds : β → Prop} {reading : Reading α} {next : α → Reading β}
    (rest : ∀ value, reading = .ok value → Yields holds (next value)) :
    Yields holds (reading >>= next) := by
  intro result done
  cases reading with
  | error obstacle => cases done
  | ok value => exact rest value rfl result done

end Reading

namespace Draft

variable {α : Type}

/-- The outcome of a step that reads and then, only if that succeeds, writes. -/
def settle (draft : Draft) (reading : Reading α) (write : α → Draft) :
    EStateM.Result Obstacle Draft Unit :=
  match reading with
  | .ok value => .ok () (write value)
  | .error obstacle => .error obstacle draft

/-- A draft with its open blocks changed. -/
def renest (draft : Draft) (change : Nesting → Nesting) : Draft :=
  { draft with nesting := change draft.nesting }

/-- A draft with its symbols changed. -/
def resymbol (draft : Draft) (change : Symbols → Symbols) : Draft :=
  { draft with symbols := change draft.symbols }

/-- A draft with the header of a block and its opening brace written. -/
def openBrace (draft : Draft) (header : String) : Draft := (draft.emit header).emit "\x7b"

/-- A draft with notices recorded about the current line, in order. -/
def reportAll (draft : Draft) (notices : List Notice) : Draft := notices.foldl report draft

/-- A draft that reports the closer when nothing was open for it. -/
def reportUnless (draft : Draft) (closed : Bool) (keyword : String) : Draft :=
  if closed then draft else draft.report (.unmatchedClose keyword)

/-- An obstacle leaves the draft that the step was given. -/
theorem settle_error {draft left : Draft} {reading : Reading α} {write : α → Draft}
    {obstacle : Obstacle} (stopped : draft.settle reading write = .error obstacle left) :
    reading = .error obstacle ∧ left = draft := by
  cases reading with
  | ok value => cases stopped
  | error found =>
    cases stopped
    exact ⟨rfl, rfl⟩

/-- A step that succeeds has read a value and written what follows from it. -/
theorem settle_ok {draft after : Draft} {reading : Reading α} {write : α → Draft}
    (settled : draft.settle reading write = .ok () after) :
    ∃ value, reading = .ok value ∧ after = write value := by
  cases reading with
  | ok value =>
    cases settled
    exact ⟨value, rfl, rfl⟩
  | error found => cases settled

/-- Reporting several notices touches nothing but the diagnostics. -/
theorem reportAll_eq (draft : Draft) (notices : List Notice) :
    draft.reportAll notices =
      { draft with
        diagnostics := draft.diagnostics ++ (notices.map (Diagnostic.mk draft.line)).toArray } := by
  induction notices generalizing draft with
  | nil => simp [reportAll]
  | cons notice rest inductionHypothesis =>
    simp only [reportAll, List.foldl_cons] at inductionHypothesis ⊢
    simp [inductionHypothesis, report]

/-- The complaint about a closer is one notice or none. -/
theorem reportUnless_eq (draft : Draft) (closed : Bool) (keyword : String) :
    draft.reportUnless closed keyword =
      draft.reportAll (if closed then [] else [.unmatchedClose keyword]) := by
  cases closed <;> rfl

/-- A declared variable is entered among the locals of the current function or among the
symbols; nothing else changes. -/
theorem register_frame (draft : Draft) (declared : Variable) :
    draft.register declared =
      { draft with
        nesting := { draft.nesting with
          function := (draft.register declared).nesting.function }
        symbols := (draft.register declared).symbols } := by
  unfold register
  split
  · rfl
  · split
    · split <;> rfl
    · rfl

/-- Declaring a property touches nothing but the symbols. -/
theorem registerProperty_frame (draft : Draft) (declared : Variable) :
    draft.registerProperty declared =
      { draft with symbols := (draft.registerProperty declared).symbols } := by
  unfold registerProperty
  split
  · split <;> rfl
  · rfl

/-- Recording an enumerator touches nothing but the enums. -/
theorem recordEnumerator_frame (draft : Draft) (name : Token) (value : Option String) :
    draft.recordEnumerator name value =
      { draft with symbols := { draft.symbols with
        enums := (draft.recordEnumerator name value).symbols.enums } } := by
  unfold recordEnumerator
  split
  · split <;> rfl
  · rfl

end Draft

/-- The header of a namespace as it is to be written; a lone keyword has none. -/
def readNamespace (tokens : List Token) : Reading String :=
  if tokens.length < 2 then Reading.refuse .namespaceHeader .missingName
  else
    .ok { tokens := tokens
          spacing := { tightBefore := ["."], tightAfter := ["."] }
          lead := "namespace" : Phrase }.renderReplacingFirst

/-- The container that an inheritance clause extends, the header it has so far and the
base types that are added to it. -/
def readInheritance (draft : Draft) (tokens : List Token) :
    Reading (Container × String × List String) := do
  let container ←
    Reading.require draft.nesting.container? .inheritanceClause .notInsideClass
  let bases ← readBases (Token.commaParts (← Reading.sliceFrom tokens 1))
  if bases.isEmpty then Reading.refuse .inheritanceClause .missingBaseType
  else
    let header ← Reading.require draft.output[container.headerLine]? .inheritanceClause
      .headerLineNotFound
    return (container, header, bases)

/-- A token that is read is the one at its position. -/
theorem Reading.token_eq {tokens : List Token} {token : Token}
    (reading : Reading.token tokens 0 = .ok token) : tokenAt tokens 0 = token := by
  unfold Reading.token at reading
  split at reading
  · next found =>
    cases reading
    simp [tokenAt, found]
  · cases reading

/-- What is required is there. -/
theorem Reading.require_eq {α : Type} {value : Option α} {construct : Construct} {reason : Reason}
    {found : α}
    (reading : Reading.require value construct reason = .ok found) : value = some found := by
  cases value <;> cases reading
  rfl

/-- The tokens behind the first one are all the others. -/
theorem Reading.sliceFrom_one_eq {tokens behind : List Token}
    (reading : Reading.sliceFrom tokens 1 = .ok behind) : tokens.tail = behind := by
  unfold sliceFrom slice at reading
  split at reading
  · cases reading
    simp
  · cases reading

/-- The line of a container header: its modifiers, and behind `class` a name that is the
identifier on the line or a type read from there. -/
theorem ContainerHeader.read_yields (kind : ContainerKind) (tokens : List Token) (keyword : Nat) :
    Reading.Yields (fun header => ∃ before display,
      (Token.isIdentifier display = true ∨
        ∃ part used, Reading.typeText part = .ok (display, used)) ∧
      header.line = " ".intercalate (modifiersOf before ++
        (if kind = .moduleBlock then ["static"] else []) ++ ["class", display]))
      (ContainerHeader.read kind tokens keyword) := by
  unfold ContainerHeader.read
  simp only
  generalize (if kind = .moduleBlock then ["static"] else []) = static
  split
  · next named =>
    split
    · refine .bind fun part _ => .bind fun found reading => .bind fun _ same => ?_
      refine .bind fun before _ => ?_
      cases same
      exact .ok ⟨before, found.1, .inr ⟨part, found.2, reading⟩, rfl⟩
    · refine .bind fun _ same => .bind fun before _ => ?_
      cases same
      exact .ok ⟨before, _, .inl named, rfl⟩
  · exact Reading.yields_refuse _ _ _

/-- The header of a loop: a `For Each` becomes a `foreach` over what it names, and any other a
counting loop. -/
theorem LoopHeader.read_yields (nesting : Nesting) (tokens : List Token) :
    Reading.Yields (fun header =>
      if Token.isKeyword (tokenAt tokens 1) "each" then
        ∃ content, header = ⟨tokenAt tokens 2, blockHeader "foreach" content, false⟩
      else ∃ declared known range, header = ofRange (tokenAt tokens 1) declared known range)
      (LoopHeader.read nesting tokens) := by
  unfold LoopHeader.read
  split
  · unfold readForEach
    simp only
    split
    · refine .bind fun _ _ => ?_
      split
      · refine .bind fun _ _ => ?_
        split
        · exact Reading.yields_refuse _ _ _
        · exact .ok ⟨_, rfl⟩
      · exact Reading.yields_refuse _ _ _
    · exact Reading.yields_refuse _ _ _
  · unfold readFor
    simp only
    split
    · refine .bind fun _ _ => ?_
      split
      · exact .bind fun _ _ => .ok ⟨_, _, _, rfl⟩
      · exact Reading.yields_refuse _ _ _
    · exact Reading.yields_refuse _ _ _

/-- The line of a `Do` loop: `do` where it tests nothing, and a `while` where it does. -/
theorem readDo_yields (tokens : List Token) :
    Reading.Yields (fun (_, header) =>
      header = "do" ∨ ∃ condition, header = blockHeader "while" condition) (readDo tokens) := by
  unfold readDo
  simp only
  split
  · exact .ok (.inl rfl)
  · split
    · exact .bind fun _ _ => .bind fun _ _ => .ok (.inr ⟨_, rfl⟩)
    · split
      · exact .bind fun _ _ => .bind fun _ _ => .ok (.inr ⟨_, rfl⟩)
      · exact Reading.yields_refuse _ _ _

/-- An inheritance clause belongs to the innermost container, whose header is written. -/
theorem readInheritance_yields (draft : Draft) (tokens : List Token) :
    Reading.Yields (fun (container, header, bases) =>
      draft.nesting.container? = some container ∧
      draft.output[container.headerLine]? = some header ∧
      readBases (Token.commaParts tokens.tail) = .ok bases)
      (readInheritance draft tokens) := by
  unfold readInheritance
  refine .bind fun container innermost => .bind fun behind slice => .bind fun bases stated => ?_
  obtain rfl := Reading.sliceFrom_one_eq slice
  split
  · exact Reading.yields_refuse _ _ _
  · exact .bind fun header found =>
      .ok ⟨Reading.require_eq innermost, Reading.require_eq found, stated⟩

/-- A line that has a token at a position has everything up to it. -/
theorem lt_length_of_tokenAt_ne {tokens : List Token} {index : Nat}
    (present : tokenAt tokens index ≠ "") : index < tokens.length := by
  by_cases inside : index < tokens.length
  · exact inside
  · exact absurd (by simp [tokenAt, inside]) present

/-- The value that an enumerator line states, as text. The tokens behind `=` are there
whenever the `=` is. -/
def enumeratorValue (tokens : List Token) : Option String :=
  if tokenAt tokens 1 = "=" then some (String.join (tokens.drop 2)) else none

/-- A draft with a line passed through: an enumerator inside an enum, and else a statement
whose unknown words are reported. -/
def Draft.passLine (draft : Draft) (tokens : List Token) : Draft :=
  if draft.nesting.insideEnum then
    (draft.recordEnumerator (tokenAt tokens 0) (enumeratorValue tokens)).emit
      (enumeratorLine tokens)
  else
    (draft.reportAll (if draft.options.reportUnregistered then
      (draft.unknownWords tokens).map .unregisteredWord else [])).emit (statementLine tokens)

/-- The kind of block that a `Next` or `Wend` line closes. -/
def closedByNext (keyword : Token) : BlockKind :=
  if keyword = "Wend" then .whileBlock else .forBlock

/-- The open blocks after a `Next` or `Wend` line: a counter goes with its loop. -/
def Nesting.afterNext (nesting : Nesting) (kind : BlockKind) : Nesting :=
  if nesting.hasBlock kind then
    { nesting.closeBlock kind with
      counters := if kind = .forBlock then nesting.counters.tail else nesting.counters }
  else nesting

/-- The comment behind a signature, as it is written. -/
def commentEnding (comment : Option String) : String :=
  match comment with
  | some comment => " // " ++ comment
  | none => ""

/-- A draft with a function started: a blank line where one is needed, its signature and
brace, and the function entered among the symbols and made the current one. -/
def Draft.startFunction (draft : Draft) (record : FunctionRecord) (generics : String)
    (comment : Option String) : Draft :=
  let known := record.bindParameters
  let spaced := if draft.needsGap then draft.emit "" else draft
  ((spaced.openBrace (known.signature generics ++ commentEnding comment)).resymbol
    (·.addFunction known)).renest (·.enterFunction known)

/-- Starting a function touches the current function, the known functions and the lines
written. -/
theorem Draft.startFunction_frame (draft : Draft) (record : FunctionRecord) (generics : String)
    (comment : Option String) :
    draft.startFunction record generics comment =
      { draft with
        nesting := draft.nesting.enterFunction record.bindParameters
        symbols := draft.symbols.addFunction record.bindParameters
        output := (draft.startFunction record generics comment).output } := by
  simp only [Draft.startFunction]
  split <;> rfl

/-- Starting a function does not leave the line. -/
theorem Draft.startFunction_line (draft : Draft) (record : FunctionRecord) (generics : String)
    (comment : Option String) :
    (draft.startFunction record generics comment).line = draft.line := by
  rw [startFunction_frame]

namespace Rule

variable {α : Type}

/-- Reading leaves the draft as it is. -/
@[simp] theorem run_read (reading : Reading α) (draft : Draft) :
    (read reading).run draft = match reading with
      | .ok value => .ok value draft
      | .error obstacle => .error obstacle draft := by
  cases reading <;> rfl

/-- What writing a line does, as a step. -/
@[simp] theorem run_emit (line : String) (draft : Draft) :
    (emit line).run draft = .ok () (draft.emit line) := rfl

/-- What recording a notice does, as a step. -/
@[simp] theorem run_report (notice : Notice) (draft : Draft) :
    (report notice).run draft = .ok () (draft.report notice) := rfl

/-- What changing the open blocks does, as a step. -/
@[simp] theorem run_renest (change : Nesting → Nesting) (draft : Draft) :
    (renest change).run draft = .ok () (draft.renest change) := rfl

/-- What writing a header and its brace does, as a step. -/
@[simp] theorem run_openBrace (header : String) (draft : Draft) :
    (openBrace header).run draft = .ok () (draft.openBrace header) := rfl

/-- Reporting words one by one always succeeds. -/
theorem run_forM_report (words : List Token) (draft : Draft) :
    (forM words fun word => report (.unregisteredWord word)).run draft =
      .ok () (draft.reportAll (words.map .unregisteredWord)) := by
  induction words generalizing draft with
  | nil => rfl
  | cons word rest inductionHypothesis =>
    simp only [List.forM_cons, EStateM.run_bind, run_report, inductionHypothesis]
    rfl

/-- A container is read from its header, known as a class, opened and written. -/
theorem containerHeader_run (kind : ContainerKind) (tokens : List Token) (keyword : Nat)
    (draft : Draft) :
    (containerHeader kind tokens keyword).run draft =
      draft.settle (ContainerHeader.read kind tokens keyword) fun header =>
        ((draft.resymbol (·.addClass header.name)).renest fun nesting =>
          { nesting with containers :=
              ⟨header.name, kind, draft.output.size⟩ :: nesting.containers }).openBrace
          header.line := by
  cases reading : ContainerHeader.read kind tokens keyword with
  | error obstacle => simp [containerHeader, reading, Draft.settle]
  | ok header => simp [containerHeader, reading, Draft.settle, Draft.renest, Draft.resymbol]

/-- A namespace is read from its header, opened and written. -/
theorem namespaceHeader_run (tokens : List Token) (draft : Draft) :
    (namespaceHeader tokens).run draft =
      draft.settle (readNamespace tokens) fun header =>
        (draft.renest fun nesting =>
          { nesting with blocks := .namespaceBlock :: nesting.blocks }).openBrace header := by
  by_cases short : tokens.length < 2
  · simp [namespaceHeader, readNamespace, short, Draft.settle, Reading.refuse]
  · simp [namespaceHeader, readNamespace, short, Draft.settle]

/-- An inheritance clause is read and added to a header that is written already. -/
theorem inheritance_run (tokens : List Token) (draft : Draft) :
    (inheritance tokens).run draft =
      draft.settle (readInheritance draft tokens) fun (container, header, bases) =>
        { draft with
          output := draft.output.setIfInBounds container.headerLine
            (bases.foldl addBase header) } := by
  unfold inheritance readInheritance
  cases owner : Reading.require draft.nesting.container? .inheritanceClause .notInsideClass with
  | error obstacle => simp [owner, Draft.settle]
  | ok container =>
    cases slice : Reading.sliceFrom tokens 1 with
    | error obstacle => simp [owner, Draft.settle]
    | ok behind =>
      cases reading : readBases (Token.commaParts behind) with
      | error obstacle => simp [owner, reading, Draft.settle]
      | ok bases =>
        by_cases none : bases = []
        · simp [owner, reading, none, Draft.settle, Reading.refuse]
        · cases line : Reading.require draft.output[container.headerLine]?
              .inheritanceClause .headerLineNotFound with
          | error obstacle => simp [owner, reading, none, line, Draft.settle]
          | ok header => simp [owner, reading, none, line, Draft.settle]

/-- An `End` line is always accepted: it leaves the program, a property or a block. -/
theorem endBlock_run (tokens : List Token) (draft : Draft) :
    (endBlock tokens).run draft = .ok () (
      if tokenAt tokens 1 = "" then draft.emit "Environment.Exit(0);"
      else if tokenAt tokens 1 = "Property" then
        draft.renest fun nesting => { nesting.leaveFunction with propertyHeader := none }
      else
        ((draft.renest fun nesting => (nesting.closeTarget (tokenAt tokens 1)).1).reportUnless
          (draft.nesting.closeTarget (tokenAt tokens 1)).2
          ("End " ++ tokenAt tokens 1)).emit "\x7d") := by
  by_cases bare : tokenAt tokens 1 = ""
  · simp [endBlock, bare]
  · by_cases property : tokenAt tokens 1 = "Property"
    · simp [endBlock, property]
    · by_cases closed : (draft.nesting.closeTarget (tokenAt tokens 1)).2 = true
      · simp [endBlock, bare, property, closed, Draft.renest, Draft.reportUnless]
      · simp [endBlock, bare, property, closed, Draft.renest, Draft.reportUnless]

/-- A declaration is read, entered and written. -/
theorem declaration_run (tokens : List Token) (draft : Draft) :
    (declaration tokens).run draft =
      draft.settle (DeclarationLine.read draft.symbols draft.nesting tokens) fun line =>
        (draft.register line.declared).emit line.line := by
  cases reading : DeclarationLine.read draft.symbols draft.nesting tokens with
  | error obstacle => simp [declaration, reading, Draft.settle]
  | ok line => simp [declaration, reading, Draft.settle]

/-- An enum is read from its header, known, opened and written. -/
theorem enumHeader_run (tokens : List Token) (keyword : Nat) (draft : Draft) :
    (enumHeader tokens keyword).run draft =
      draft.settle (EnumHeader.read tokens keyword) fun header =>
        ((draft.resymbol (·.addEnum header.record)).renest fun nesting =>
          { nesting with enums := header.record.name :: nesting.enums }).openBrace
          header.line := by
  cases reading : EnumHeader.read tokens keyword with
  | error obstacle => simp [enumHeader, reading, Draft.settle]
  | ok header => simp [enumHeader, reading, Draft.settle, Draft.renest, Draft.resymbol]

/-- An enumerator is always accepted: it is recorded, if it can be, and written. -/
theorem enumerator_run (tokens : List Token) (draft : Draft) :
    (enumerator tokens).run draft = .ok ()
      ((draft.recordEnumerator (tokenAt tokens 0) (enumeratorValue tokens)).emit
        (enumeratorLine tokens)) := by
  by_cases stated : tokenAt tokens 1 = "="
  · have long : 1 < tokens.length := lt_length_of_tokenAt_ne (by simp [stated])
    have inside : 2 ≤ tokens.length := long
    simp [enumerator, enumeratorValue, stated, Reading.sliceFrom, Reading.slice, inside]
  · simp [enumerator, enumeratorValue, stated]

/-- A line that is passed through is always accepted. -/
theorem passThrough_run (tokens : List Token) (draft : Draft) :
    (passThrough tokens).run draft = .ok () (draft.passLine tokens) := by
  unfold Draft.passLine
  by_cases enum : draft.nesting.insideEnum = true
  · simp [passThrough, enum, enumerator_run]
  · by_cases asked : draft.options.reportUnregistered = true
    · simp [passThrough, enum, asked, run_forM_report]
    · simp [passThrough, enum, asked, Draft.reportAll]

/-- A counted loop is read from its header, opened with its counter and written. -/
theorem forLoop_run (tokens : List Token) (draft : Draft) :
    (forLoop tokens).run draft =
      draft.settle (LoopHeader.read draft.nesting tokens) fun header =>
        ((draft.reportAll
          (if header.isAssumed then [.assumedIntegerBounds header.counter] else [])).renest
          fun nesting =>
            { nesting with
              counters := header.counter :: nesting.counters
              blocks := .forBlock :: nesting.blocks }).openBrace header.line := by
  simp only [forLoop, EStateM.run_bind, EStateM.run_get, run_read]
  generalize LoopHeader.read draft.nesting tokens = reading
  cases reading with
  | error obstacle => rfl
  | ok header =>
    by_cases assumed : header.isAssumed = true
    · simp [assumed, Draft.settle, Draft.reportAll]
    · simp [assumed, Draft.settle, Draft.reportAll]

/-- A `Next` or `Wend` line closes a loop or is reported, and is written. -/
theorem nextLoop_run (tokens : List Token) (draft : Draft) :
    (nextLoop tokens).run draft =
      draft.settle (Reading.token tokens 0) fun keyword =>
        ((draft.renest (·.afterNext (closedByNext keyword))).reportUnless
          (draft.nesting.hasBlock (closedByNext keyword)) keyword).emit "\x7d" := by
  cases reading : Reading.token tokens 0 with
  | error obstacle => simp [nextLoop, reading, Draft.settle]
  | ok keyword =>
    by_cases wend : keyword = "Wend"
    · by_cases opened : draft.nesting.hasBlock .whileBlock = true
      · simp [nextLoop, reading, wend, opened, Draft.settle, closedByNext, Nesting.afterNext,
          Draft.renest, Draft.reportUnless]
        rfl
      · simp [nextLoop, reading, wend, opened, Draft.settle, closedByNext, Nesting.afterNext,
          Draft.renest, Draft.reportUnless]
    · by_cases opened : draft.nesting.hasBlock .forBlock = true
      · simp [nextLoop, reading, wend, opened, Draft.settle, closedByNext, Nesting.afterNext,
          Draft.renest, Draft.reportUnless]
        rfl
      · simp [nextLoop, reading, wend, opened, Draft.settle, closedByNext, Nesting.afterNext,
          Draft.renest, Draft.reportUnless]

/-- A `Do` loop is read from its header, opened and written. -/
theorem doLoop_run (tokens : List Token) (draft : Draft) :
    (doLoop tokens).run draft =
      draft.settle (readDo tokens) fun (kind, header) =>
        (draft.renest fun nesting =>
          { nesting with doLoops := kind :: nesting.doLoops }).openBrace header := by
  cases reading : readDo tokens with
  | error obstacle => simp [doLoop, reading, Draft.settle]
  | ok found => simp [doLoop, reading, Draft.settle]

/-- A `Loop` line is read by the kind of its loop, closes it or is reported, and is written. -/
theorem loopEnd_run (tokens : List Token) (draft : Draft) :
    (loopEnd tokens).run draft =
      draft.settle (readLoopEnd draft.nesting.doLoops.head? tokens) fun footer =>
        ((draft.renest fun nesting =>
          { nesting with doLoops := nesting.doLoops.tail }).reportUnless
          draft.nesting.insideDoLoop "Loop").emit footer := by
  cases reading : readLoopEnd draft.nesting.doLoops.head? tokens with
  | error obstacle => simp [loopEnd, reading, Draft.settle]
  | ok footer =>
    -- With no loop open there is nothing to take away, so the blocks stay as they were.
    have unchanged : draft.nesting.insideDoLoop = false →
        { draft.nesting with doLoops := draft.nesting.doLoops.tail } = draft.nesting := by
      intro outside
      have none : draft.nesting.doLoops = [] := by simpa [Nesting.insideDoLoop] using outside
      simp only [none, List.tail_nil]
      rw [← none]
    cases opened : draft.nesting.insideDoLoop with
    | true => simp [loopEnd, reading, opened, Draft.settle, Draft.renest, Draft.reportUnless]
    | false =>
      simp [loopEnd, reading, opened, Draft.settle, Draft.renest, Draft.reportUnless,
        unchanged opened]

/-- A `While` loop is read from its condition, opened and written. -/
theorem whileLoop_run (tokens : List Token) (keyword : Nat) (draft : Draft) :
    (whileLoop tokens keyword).run draft =
      draft.settle (do conditionText .whileLoop (← Reading.sliceFrom tokens (keyword + 1)))
        fun condition => (draft.renest fun nesting =>
          { nesting with blocks := .whileBlock :: nesting.blocks }).openBrace
          (blockHeader "while" condition) := by
  cases reading : (do conditionText .whileLoop (← Reading.sliceFrom tokens (keyword + 1)) :
      Reading String) with
  | error obstacle => simp [whileLoop, reading, Draft.settle]
  | ok condition => simp [whileLoop, reading, Draft.settle]

/-- An `If` line is read and opens a block, or is written as one statement. -/
theorem ifBranch_run (tokens : List Token) (draft : Draft) :
    (ifBranch tokens).run draft =
      draft.settle (IfLine.read tokens) fun
        | .block header => (draft.renest fun nesting =>
            { nesting with blocks := .ifBlock :: nesting.blocks }).openBrace header
        | .statement line => draft.emit line := by
  cases reading : IfLine.read tokens with
  | error obstacle => simp [ifBranch, reading, Draft.settle]
  | ok line => cases line <;> simp [ifBranch, reading, Draft.settle]

/-- The header of a further branch is read; it closes one branch and opens the next. -/
theorem elseIfBranch_run (tokens : List Token) (draft : Draft) :
    (elseIfBranch tokens).run draft =
      draft.settle (elseIfHeader tokens) fun header =>
        (draft.emit "\x7d").openBrace header := by
  cases reading : elseIfHeader tokens with
  | error obstacle => simp [elseIfBranch, reading, Draft.settle]
  | ok header => simp [elseIfBranch, reading, Draft.settle]

/-- An `Else` line closes one branch and opens the last, or a further one if `If` follows. -/
theorem elseBranch_run (tokens : List Token) (draft : Draft) :
    (elseBranch tokens).run draft =
      draft.settle (if tokenAt tokens 1 = "If" then elseIfHeader tokens else .ok "else")
        fun header => (draft.emit "\x7d").openBrace header := by
  by_cases branch : tokenAt tokens 1 = "If"
  · simp [elseBranch, branch, elseIfBranch_run]
  · simp [elseBranch, branch, Draft.settle]

/-- A `Return` is read and written. -/
theorem returnJump_run (tokens : List Token) (draft : Draft) :
    (returnJump tokens).run draft = draft.settle (returnStatement tokens) draft.emit := by
  cases reading : returnStatement tokens with
  | error obstacle => simp [returnJump, reading, Draft.settle]
  | ok line => simp [returnJump, reading, Draft.settle]

/-- An `Exit` is read and written. -/
theorem exitJump_run (tokens : List Token) (draft : Draft) :
    (exitJump tokens).run draft = draft.settle (exitStatement tokens) draft.emit := by
  cases reading : exitStatement tokens with
  | error obstacle => simp [exitJump, reading, Draft.settle]
  | ok line => simp [exitJump, reading, Draft.settle]

/-- Opening a function starts it, with a comment or without. -/
theorem openFunction_run (record : FunctionRecord) (generics : String)
    (comment : Option String) (draft : Draft) :
    (openFunction record generics comment).run draft =
      .ok () (draft.startFunction record generics comment) := by
  by_cases gap : draft.needsGap = true
  · cases comment <;>
      simp [openFunction, gap, Draft.startFunction, Draft.renest, Draft.resymbol, commentEnding]
  · cases comment <;>
      simp [openFunction, gap, Draft.startFunction, Draft.renest, Draft.resymbol, commentEnding]

/-- A function is read from its header and started; what stands behind is noticed. -/
theorem function_run (tokens : List Token) (keyword : Nat) (isSub : Bool) (draft : Draft) :
    (function tokens keyword isSub).run draft =
      draft.settle (FunctionHeader.read draft.nesting tokens keyword isSub) fun header =>
        (draft.startFunction header.record header.generics header.clause).reportAll
          (header.clause.toList.map .trailingClause) := by
  cases reading : FunctionHeader.read draft.nesting tokens keyword isSub with
  | error obstacle => simp [function, reading, Draft.settle]
  | ok header =>
    obtain ⟨record, generics, clause⟩ := header
    cases clause <;>
      simp [function, reading, Draft.settle, openFunction_run, Draft.reportAll]

/-- An accessor is read from its header and its property, and started as a function. -/
theorem accessor_run (tokens : List Token) (keyword : Nat) (draft : Draft) :
    (accessor tokens keyword).run draft =
      draft.settle (AccessorHeader.read draft tokens keyword) fun header =>
        draft.startFunction header.record header.generics none := by
  cases reading : AccessorHeader.read draft tokens keyword with
  | error obstacle => simp [accessor, reading, Draft.settle]
  | ok header => simp [accessor, reading, Draft.settle, openFunction_run]

/-- A property header is read as one that waits for its accessors, or as an automatic
property, by what follows it. -/
theorem property_run (tokens : List Token) (keyword : Nat) (draft : Draft) :
    (property tokens keyword).run draft =
      if draft.accessorFollows then
        draft.settle (Signature.read .property tokens keyword) fun _ =>
          draft.renest fun nesting => { nesting with propertyHeader := some draft.cursor }
      else
        draft.settle (PropertyLine.read draft.nesting tokens keyword) fun line =>
          (draft.registerProperty line.declared).emit line.line := by
  by_cases accessors : draft.accessorFollows = true
  · cases reading : Signature.read .property tokens keyword with
    | error obstacle => simp [property, accessors, reading, Draft.settle]
    | ok signature => simp [property, accessors, reading, Draft.settle]
  · cases reading : PropertyLine.read draft.nesting tokens keyword with
    | error obstacle => simp [property, accessors, reading, Draft.settle]
    | ok line => simp [property, accessors, reading, Draft.settle]

end Rule

/-- Every rule reads first and writes then: its outcome is that of one reading, settled. -/
theorem Statement.rule_settles (statement : Statement) (text : String) (tokens : List Token)
    (draft : Draft) :
    ∃ (α : Type) (reading : Reading α) (write : α → Draft),
      (statement.rule text tokens).run draft = draft.settle reading write := by
  -- A rule that cannot be stopped reads nothing.
  have always : ∀ {rule : Rule Unit} {after : Draft}, rule.run draft = .ok () after →
      ∃ (α : Type) (reading : Reading α) (write : α → Draft),
        rule.run draft = draft.settle reading write :=
    fun {_ after} ran => ⟨Unit, .ok (), fun _ => after, ran⟩
  cases statement with
  | blank => exact always rfl
  | comment => exact always rfl
  | container kind keyword => exact ⟨_, _, _, Rule.containerHeader_run kind tokens keyword draft⟩
  | declaration => exact ⟨_, _, _, Rule.declaration_run tokens draft⟩
  | doLoop => exact ⟨_, _, _, Rule.doLoop_run tokens draft⟩
  | endBlock => exact always (Rule.endBlock_run tokens draft)
  | exitJump => exact ⟨_, _, _, Rule.exitJump_run tokens draft⟩
  | enumHeader keyword => exact ⟨_, _, _, Rule.enumHeader_run tokens keyword draft⟩
  | forLoop => exact ⟨_, _, _, Rule.forLoop_run tokens draft⟩
  | function keyword isSub => exact ⟨_, _, _, Rule.function_run tokens keyword isSub draft⟩
  | accessor keyword => exact ⟨_, _, _, Rule.accessor_run tokens keyword draft⟩
  | ifBranch => exact ⟨_, _, _, Rule.ifBranch_run tokens draft⟩
  | elseIfBranch => exact ⟨_, _, _, Rule.elseIfBranch_run tokens draft⟩
  | elseBranch => exact ⟨_, _, _, Rule.elseBranch_run tokens draft⟩
  | loopEnd => exact ⟨_, _, _, Rule.loopEnd_run tokens draft⟩
  | namespaceHeader => exact ⟨_, _, _, Rule.namespaceHeader_run tokens draft⟩
  | nextLoop => exact ⟨_, _, _, Rule.nextLoop_run tokens draft⟩
  | property keyword =>
    by_cases accessors : draft.accessorFollows = true
    · exact ⟨_, _, _, (Rule.property_run tokens keyword draft).trans (if_pos accessors)⟩
    · exact ⟨_, _, _, (Rule.property_run tokens keyword draft).trans (if_neg accessors)⟩
  | returnJump => exact ⟨_, _, _, Rule.returnJump_run tokens draft⟩
  | whileLoop keyword => exact ⟨_, _, _, Rule.whileLoop_run tokens keyword draft⟩
  | inheritance => exact ⟨_, _, _, Rule.inheritance_run tokens draft⟩
  | other => exact always (Rule.passThrough_run tokens draft)

/-- A rule that is stopped leaves the draft it was given, whatever stopped it. -/
theorem Statement.rule_error (statement : Statement) {text : String} {tokens : List Token}
    {draft left : Draft} {obstacle : Obstacle}
    (stopped : (statement.rule text tokens).run draft = .error obstacle left) : left = draft := by
  obtain ⟨α, reading, write, settled⟩ := statement.rule_settles text tokens draft
  rw [settled] at stopped
  exact (Draft.settle_error stopped).2

namespace Statement

/-- What an accepted line makes of a draft. There is one case for every way in which a line is
accepted: what was read of it, and the draft that is written from that. -/
inductive Makes (text : String) (tokens : List Token) (draft : Draft) : Statement → Draft → Prop
  | blank : Makes text tokens draft .blank (draft.emit "")
  | comment : Makes text tokens draft .comment (draft.emit (commentLine text))
  | container {kind : ContainerKind} {keyword : Nat} {header : ContainerHeader}
      (reading : ContainerHeader.read kind tokens keyword = .ok header) :
      Makes text tokens draft (.container kind keyword)
        (((draft.resymbol (·.addClass header.name)).renest fun nesting =>
          { nesting with containers :=
              ⟨header.name, kind, draft.output.size⟩ :: nesting.containers }).openBrace
          header.line)
  | declaration {line : DeclarationLine}
      (reading : DeclarationLine.read draft.symbols draft.nesting tokens = .ok line) :
      Makes text tokens draft .declaration ((draft.register line.declared).emit line.line)
  | doLoop {kind : DoKind} {header : String} (reading : readDo tokens = .ok (kind, header)) :
      Makes text tokens draft .doLoop
        ((draft.renest fun nesting =>
          { nesting with doLoops := kind :: nesting.doLoops }).openBrace header)
  | endProgram (bare : tokenAt tokens 1 = "") :
      Makes text tokens draft .endBlock (draft.emit "Environment.Exit(0);")
  | endProperty (target : tokenAt tokens 1 = "Property") :
      Makes text tokens draft .endBlock
        (draft.renest fun nesting => { nesting.leaveFunction with propertyHeader := none })
  | endBlock (named : tokenAt tokens 1 ≠ "") (other : tokenAt tokens 1 ≠ "Property") :
      Makes text tokens draft .endBlock
        (((draft.renest fun nesting => (nesting.closeTarget (tokenAt tokens 1)).1).reportUnless
          (draft.nesting.closeTarget (tokenAt tokens 1)).2
          ("End " ++ tokenAt tokens 1)).emit "\x7d")
  | exitJump {line : String} (reading : exitStatement tokens = .ok line) :
      Makes text tokens draft .exitJump (draft.emit line)
  | enumHeader {keyword : Nat} {header : EnumHeader}
      (reading : EnumHeader.read tokens keyword = .ok header) :
      Makes text tokens draft (.enumHeader keyword)
        (((draft.resymbol (·.addEnum header.record)).renest fun nesting =>
          { nesting with enums := header.record.name :: nesting.enums }).openBrace header.line)
  | forLoop {header : LoopHeader} (reading : LoopHeader.read draft.nesting tokens = .ok header) :
      Makes text tokens draft .forLoop
        (((draft.reportAll
          (if header.isAssumed then [.assumedIntegerBounds header.counter] else [])).renest
          fun nesting =>
            { nesting with
              counters := header.counter :: nesting.counters
              blocks := .forBlock :: nesting.blocks }).openBrace header.line)
  | function {keyword : Nat} {isSub : Bool} {header : FunctionHeader}
      (reading : FunctionHeader.read draft.nesting tokens keyword isSub = .ok header) :
      Makes text tokens draft (.function keyword isSub)
        ((draft.startFunction header.record header.generics header.clause).reportAll
          (header.clause.toList.map .trailingClause))
  | accessor {keyword : Nat} {header : AccessorHeader}
      (reading : AccessorHeader.read draft tokens keyword = .ok header) :
      Makes text tokens draft (.accessor keyword)
        (draft.startFunction header.record header.generics none)
  | ifBlock {header : String} (reading : IfLine.read tokens = .ok (.block header)) :
      Makes text tokens draft .ifBranch
        ((draft.renest fun nesting =>
          { nesting with blocks := .ifBlock :: nesting.blocks }).openBrace header)
  | ifStatement {line : String} (reading : IfLine.read tokens = .ok (.statement line)) :
      Makes text tokens draft .ifBranch (draft.emit line)
  | elseIfBranch {header : String} (reading : elseIfHeader tokens = .ok header) :
      Makes text tokens draft .elseIfBranch ((draft.emit "\x7d").openBrace header)
  | elseBranch {header : String}
      (reading : (if tokenAt tokens 1 = "If" then elseIfHeader tokens else .ok "else") =
        .ok header) :
      Makes text tokens draft .elseBranch ((draft.emit "\x7d").openBrace header)
  | loopEnd {footer : String}
      (reading : readLoopEnd draft.nesting.doLoops.head? tokens = .ok footer) :
      Makes text tokens draft .loopEnd
        (((draft.renest fun nesting =>
          { nesting with doLoops := nesting.doLoops.tail }).reportUnless
          draft.nesting.insideDoLoop "Loop").emit footer)
  | namespaceHeader {header : String} (reading : readNamespace tokens = .ok header) :
      Makes text tokens draft .namespaceHeader
        ((draft.renest fun nesting =>
          { nesting with blocks := .namespaceBlock :: nesting.blocks }).openBrace header)
  | nextLoop {keyword : Token} (reading : Reading.token tokens 0 = .ok keyword) :
      Makes text tokens draft .nextLoop
        (((draft.renest (·.afterNext (closedByNext keyword))).reportUnless
          (draft.nesting.hasBlock (closedByNext keyword)) keyword).emit "\x7d")
  | pendingProperty {keyword : Nat} {signature : Signature}
      (accessors : draft.accessorFollows = true)
      (reading : Signature.read .property tokens keyword = .ok signature) :
      Makes text tokens draft (.property keyword)
        (draft.renest fun nesting => { nesting with propertyHeader := some draft.cursor })
  | property {keyword : Nat} {line : PropertyLine} (alone : draft.accessorFollows = false)
      (reading : PropertyLine.read draft.nesting tokens keyword = .ok line) :
      Makes text tokens draft (.property keyword)
        ((draft.registerProperty line.declared).emit line.line)
  | returnJump {line : String} (reading : returnStatement tokens = .ok line) :
      Makes text tokens draft .returnJump (draft.emit line)
  | whileLoop {keyword : Nat} {condition : String}
      (reading : (do conditionText .whileLoop (← Reading.sliceFrom tokens (keyword + 1))) =
        .ok condition) :
      Makes text tokens draft (.whileLoop keyword)
        ((draft.renest fun nesting =>
          { nesting with blocks := .whileBlock :: nesting.blocks }).openBrace
          (blockHeader "while" condition))
  | inheritance {container : Container} {header : String} {bases : List String}
      (reading : readInheritance draft tokens = .ok (container, header, bases)) :
      Makes text tokens draft .inheritance
        { draft with
          output := draft.output.setIfInBounds container.headerLine (bases.foldl addBase header) }
  | other : Makes text tokens draft .other (draft.passLine tokens)

/-- Every accepted line is accepted in one of these ways. What holds of accepted lines is shown
by going through them. -/
theorem makes_of_run {statement : Statement} {text : String} {tokens : List Token}
    {draft after : Draft} (ran : (statement.rule text tokens).run draft = .ok () after) :
    statement.Makes text tokens draft after := by
  cases statement with
  | blank =>
    cases ran
    exact .blank
  | comment =>
    cases ran
    exact .comment
  | container kind keyword =>
    obtain ⟨header, reading, rfl⟩ := Draft.settle_ok
      ((Rule.containerHeader_run kind tokens keyword draft).symm.trans ran)
    exact .container reading
  | declaration =>
    obtain ⟨line, reading, rfl⟩ := Draft.settle_ok
      ((Rule.declaration_run tokens draft).symm.trans ran)
    exact .declaration reading
  | doLoop =>
    obtain ⟨found, reading, rfl⟩ := Draft.settle_ok ((Rule.doLoop_run tokens draft).symm.trans ran)
    exact .doLoop reading
  | endBlock =>
    obtain rfl := (EStateM.Result.ok.inj ((Rule.endBlock_run tokens draft).symm.trans ran)).2
    split
    · next bare => exact .endProgram bare
    · next named =>
      split
      · next target => exact .endProperty target
      · next other => exact .endBlock named other
  | exitJump =>
    obtain ⟨line, reading, rfl⟩ := Draft.settle_ok ((Rule.exitJump_run tokens draft).symm.trans ran)
    exact .exitJump reading
  | enumHeader keyword =>
    obtain ⟨header, reading, rfl⟩ := Draft.settle_ok
      ((Rule.enumHeader_run tokens keyword draft).symm.trans ran)
    exact .enumHeader reading
  | forLoop =>
    obtain ⟨header, reading, rfl⟩ := Draft.settle_ok
      ((Rule.forLoop_run tokens draft).symm.trans ran)
    exact .forLoop reading
  | function keyword isSub =>
    obtain ⟨header, reading, rfl⟩ := Draft.settle_ok
      ((Rule.function_run tokens keyword isSub draft).symm.trans ran)
    exact .function reading
  | accessor keyword =>
    obtain ⟨header, reading, rfl⟩ := Draft.settle_ok
      ((Rule.accessor_run tokens keyword draft).symm.trans ran)
    exact .accessor reading
  | ifBranch =>
    obtain ⟨line, reading, rfl⟩ := Draft.settle_ok ((Rule.ifBranch_run tokens draft).symm.trans ran)
    cases line with
    | block header => exact .ifBlock reading
    | statement line => exact .ifStatement reading
  | elseIfBranch =>
    obtain ⟨header, reading, rfl⟩ := Draft.settle_ok
      ((Rule.elseIfBranch_run tokens draft).symm.trans ran)
    exact .elseIfBranch reading
  | elseBranch =>
    obtain ⟨header, reading, rfl⟩ := Draft.settle_ok
      ((Rule.elseBranch_run tokens draft).symm.trans ran)
    exact .elseBranch reading
  | loopEnd =>
    obtain ⟨footer, reading, rfl⟩ := Draft.settle_ok
      ((Rule.loopEnd_run tokens draft).symm.trans ran)
    exact .loopEnd reading
  | namespaceHeader =>
    obtain ⟨header, reading, rfl⟩ := Draft.settle_ok
      ((Rule.namespaceHeader_run tokens draft).symm.trans ran)
    exact .namespaceHeader reading
  | nextLoop =>
    obtain ⟨keyword, reading, rfl⟩ := Draft.settle_ok
      ((Rule.nextLoop_run tokens draft).symm.trans ran)
    exact .nextLoop reading
  | property keyword =>
    have outcome := (Rule.property_run tokens keyword draft).symm.trans ran
    split at outcome
    · next accessors =>
      obtain ⟨signature, reading, rfl⟩ := Draft.settle_ok outcome
      exact .pendingProperty accessors reading
    · next alone =>
      obtain ⟨line, reading, rfl⟩ := Draft.settle_ok outcome
      exact .property (eq_false_of_ne_true alone) reading
  | returnJump =>
    obtain ⟨line, reading, rfl⟩ := Draft.settle_ok
      ((Rule.returnJump_run tokens draft).symm.trans ran)
    exact .returnJump reading
  | whileLoop keyword =>
    obtain ⟨condition, reading, rfl⟩ := Draft.settle_ok
      ((Rule.whileLoop_run tokens keyword draft).symm.trans ran)
    exact .whileLoop reading
  | inheritance =>
    obtain ⟨found, reading, rfl⟩ := Draft.settle_ok
      ((Rule.inheritance_run tokens draft).symm.trans ran)
    exact .inheritance reading
  | other =>
    obtain rfl := (EStateM.Result.ok.inj ((Rule.passThrough_run tokens draft).symm.trans ran)).2
    exact .other

end Statement

end BasicToSharp
