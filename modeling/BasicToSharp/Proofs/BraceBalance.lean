import BasicToSharp.Proofs.WellNested

/-!
# Balanced braces

The open blocks of a draft are kept in four lists and two slots, and each kind of line
touches some of them and writes some braces. What ties them together is one stack of
blocks: the lists are its parts by kind, and the depth of braces is the number of its blocks
that have a brace of their own. Every opener puts its block on that stack, every closer
takes it off, and every other line leaves it, so a well-nested source comes back to the
empty stack: nothing is open, nothing was closed that was not open, and the braces of the
written lines are balanced.
-/

namespace BasicToSharp

open Text

namespace Frame

/-- The kind of a container block. -/
@[simp] def container? : Frame → Option ContainerKind
  | .container kind => some kind
  | _ => none

/-- The kind of one of the other blocks. -/
@[simp] def block? : Frame → Option BlockKind
  | .block kind => some kind
  | _ => none

/-- True of a block that is a function: an accessor is written as one. -/
@[simp] def isFunction : Frame → Bool
  | .function => true
  | .accessor => true
  | _ => false

/-- True of a block with a brace of its own; a property has none. -/
@[simp] def isBraced (frame : Frame) : Bool := frame != .property

end Frame

/-- The open blocks are those of a stack, innermost first, each kind in its own list. The
counters of loops go when a function ends, so there may be fewer than loops. -/
structure Nesting.Holds (nesting : Nesting) (stack : List Frame) : Prop where
  containers : nesting.containers.map Container.kind = stack.filterMap Frame.container?
  enums : nesting.enums.length = stack.count .enumBlock
  doLoops : nesting.doLoops.length = stack.count .doLoop
  blocks : nesting.blocks = stack.filterMap Frame.block?
  counters : nesting.counters.length ≤ stack.count (.block .forBlock)
  function : nesting.function.toList.length = stack.countP Frame.isFunction
  propertyHeader : nesting.propertyHeader.toList.length = stack.count .property

/-- True of a notice that is not about a closer without an opener. -/
def Notice.Matched (notice : Notice) : Prop := ∀ keyword, notice ≠ .unmatchedClose keyword

/-- A draft within the blocks of a stack: they are open, their braces are, and no closer was
without its opener so far. -/
structure Draft.Within (draft : Draft) (stack : List Frame) : Prop where
  nesting : draft.nesting.Holds stack
  depth : draft.depth = some (stack.countP Frame.isBraced)
  matched : ∀ diagnostic ∈ draft.diagnostics, diagnostic.notice.Matched

/-- What a scope says of the blocks around it. -/
def Scope.Fits : Scope → List Frame → Prop
  | .code inFunction inBranch, stack =>
    stack.count .enumBlock = 0 ∧
      (inFunction = false → stack.countP Frame.isFunction = 0 ∧ stack.count .property = 0) ∧
      (inBranch = true → 0 < stack.countP Frame.isBraced)
  | .enumBody, stack => 0 < stack.count .enumBlock
  | .propertyBody, stack => stack.count .enumBlock = 0 ∧ stack.countP Frame.isFunction = 0

/-- The scope inside a block fits the stack with that block on it. -/
theorem Scope.Fits.body {frame : Frame} {scope : Scope} {stack : List Frame}
    (fits : scope.Fits stack) (allowed : frame.isAllowedIn scope = true) :
    (frame.body scope).Fits (frame :: stack) := by
  cases frame <;> cases scope <;>
    simp_all [Frame.isAllowedIn, Frame.body, Fits, List.countP_cons]

/-- Functions and properties are opened outside functions. -/
theorem Scope.Fits.outsideFunction {frame : Frame} {scope : Scope} {stack : List Frame}
    (fits : scope.Fits stack) (allowed : frame.isAllowedIn scope = true)
    (member : frame.isFunction = true ∨ frame = .property) :
    stack.countP Frame.isFunction = 0 := by
  cases frame <;> cases scope <;>
    simp_all [Frame.isAllowedIn, Fits, -List.countP_eq_zero]

/-- A property is not opened inside another. -/
theorem Scope.Fits.outsideProperty {scope : Scope} {stack : List Frame} (fits : scope.Fits stack)
    (allowed : Frame.property.isAllowedIn scope = true) : stack.count .property = 0 := by
  cases scope <;> simp_all [Frame.isAllowedIn, Fits, -List.countP_eq_zero]

namespace Nesting.Holds

variable {nesting : Nesting} {stack : List Frame}

/-- A container is opened. -/
theorem openContainer (holds : nesting.Holds stack) (container : Container) :
    { nesting with containers := container :: nesting.containers }.Holds
      (.container container.kind :: stack) := by
  obtain ⟨containers, enums, doLoops, blocks, counters, function, propertyHeader⟩ := holds
  constructor <;> simp_all [List.filterMap_cons]

/-- A block other than a counted loop is opened. -/
theorem openBlock (holds : nesting.Holds stack) {kind : BlockKind} (plain : kind ≠ .forBlock) :
    { nesting with blocks := kind :: nesting.blocks }.Holds (.block kind :: stack) := by
  obtain ⟨containers, enums, doLoops, blocks, counters, function, propertyHeader⟩ := holds
  constructor <;> simp_all [List.filterMap_cons]

/-- A counted loop is opened together with its counter. -/
theorem openFor (holds : nesting.Holds stack) (counter : String) :
    { nesting with
      counters := counter :: nesting.counters
      blocks := .forBlock :: nesting.blocks }.Holds (.block .forBlock :: stack) := by
  obtain ⟨containers, enums, doLoops, blocks, counters, function, propertyHeader⟩ := holds
  constructor <;> simp_all [List.filterMap_cons]

/-- An enum is opened. -/
theorem openEnum (holds : nesting.Holds stack) (name : String) :
    { nesting with enums := name :: nesting.enums }.Holds (.enumBlock :: stack) := by
  obtain ⟨containers, enums, doLoops, blocks, counters, function, propertyHeader⟩ := holds
  constructor <;> simp_all [List.filterMap_cons]

/-- A `Do` loop is opened. -/
theorem openDo (holds : nesting.Holds stack) (kind : DoKind) :
    { nesting with doLoops := kind :: nesting.doLoops }.Holds (.doLoop :: stack) := by
  obtain ⟨containers, enums, doLoops, blocks, counters, function, propertyHeader⟩ := holds
  constructor <;> simp_all [List.filterMap_cons]

/-- A function is entered where none is open. -/
theorem openFunction (holds : nesting.Holds stack) (outside : stack.countP Frame.isFunction = 0)
    (record : FunctionRecord) {frame : Frame} (isFunction : frame.isFunction = true) :
    (nesting.enterFunction record).Holds (frame :: stack) := by
  obtain ⟨containers, enums, doLoops, blocks, counters, function, propertyHeader⟩ := holds
  cases frame <;> cases isFunction <;> constructor <;>
    simp_all [Nesting.enterFunction, List.filterMap_cons, List.countP_cons, -List.countP_eq_zero]

/-- A property is entered where none is open. -/
theorem openProperty (holds : nesting.Holds stack) (outside : stack.count .property = 0)
    (cursor : Nat) :
    { nesting with propertyHeader := some cursor }.Holds (.property :: stack) := by
  obtain ⟨containers, enums, doLoops, blocks, counters, function, propertyHeader⟩ := holds
  constructor <;> simp_all [List.filterMap_cons]

/-- The innermost container of its kind is there to be closed. -/
theorem closeContainer {kind : ContainerKind} (holds : nesting.Holds (.container kind :: stack)) :
    nesting.inside kind = true ∧ (nesting.closeContainer kind).Holds stack := by
  obtain ⟨containers, enums, doLoops, blocks, counters, function, propertyHeader⟩ := holds
  cases opened : nesting.containers with
  | nil => simp [opened] at containers
  | cons container rest =>
    simp only [opened, List.map_cons, List.filterMap_cons, Frame.container?, List.cons.injEq]
      at containers
    refine ⟨by simp [inside, opened, containers.1], ?_⟩
    constructor <;>
      simp_all [Nesting.closeContainer, List.filterMap_cons]

/-- The innermost block of its kind is there to be closed. -/
theorem closeBlock {kind : BlockKind} (holds : nesting.Holds (.block kind :: stack))
    (plain : kind ≠ .forBlock) :
    nesting.hasBlock kind = true ∧ (nesting.closeBlock kind).Holds stack := by
  obtain ⟨containers, enums, doLoops, blocks, counters, function, propertyHeader⟩ := holds
  refine ⟨by simp [hasBlock, blocks], ?_⟩
  constructor <;> simp_all [Nesting.closeBlock, List.filterMap_cons]

/-- `Next` and `Wend` close their loop, and `Next` takes a counter away. -/
theorem afterNext {kind : BlockKind} (holds : nesting.Holds (.block kind :: stack)) :
    nesting.hasBlock kind = true ∧ (nesting.afterNext kind).Holds stack := by
  obtain ⟨containers, enums, doLoops, blocks, counters, function, propertyHeader⟩ := holds
  have opened : nesting.hasBlock kind = true := by simp [hasBlock, blocks]
  refine ⟨opened, ?_⟩
  rw [Nesting.afterNext, if_pos opened]
  by_cases loop : kind = .forBlock
  · constructor <;> simp_all [Nesting.closeBlock, List.filterMap_cons]
  · constructor <;> simp_all [Nesting.closeBlock, List.filterMap_cons]

/-- The innermost enum is there to be closed. -/
theorem closeEnum (holds : nesting.Holds (.enumBlock :: stack)) :
    nesting.insideEnum = true ∧ { nesting with enums := nesting.enums.tail }.Holds stack := by
  obtain ⟨containers, enums, doLoops, blocks, counters, function, propertyHeader⟩ := holds
  cases opened : nesting.enums with
  | nil => simp [opened] at enums
  | cons name rest =>
    refine ⟨by simp [insideEnum, opened], ?_⟩
    constructor <;> simp_all [List.filterMap_cons]

/-- The innermost `Do` loop is there to be closed. -/
theorem closeDo (holds : nesting.Holds (.doLoop :: stack)) :
    nesting.insideDoLoop = true ∧ { nesting with doLoops := nesting.doLoops.tail }.Holds stack := by
  obtain ⟨containers, enums, doLoops, blocks, counters, function, propertyHeader⟩ := holds
  cases opened : nesting.doLoops with
  | nil => simp [opened] at doLoops
  | cons kind rest =>
    refine ⟨by simp [insideDoLoop, opened], ?_⟩
    constructor <;> simp_all [List.filterMap_cons]

/-- A function that was entered where none was open leaves none open. -/
theorem leaveFunction {frame : Frame} (holds : nesting.Holds (frame :: stack))
    (isFunction : frame.isFunction = true) (outside : stack.countP Frame.isFunction = 0) :
    nesting.insideFunction = true ∧ nesting.leaveFunction.Holds stack := by
  obtain ⟨containers, enums, doLoops, blocks, counters, function, propertyHeader⟩ := holds
  have entered : nesting.function.toList.length = 1 := by
    rw [function, List.countP_cons, outside, isFunction]
    rfl
  have inside : nesting.insideFunction = true := by
    cases found : nesting.function with
    | none => simp [found] at entered
    | some record => simp [insideFunction, found]
  refine ⟨inside, ?_⟩
  cases frame <;> cases isFunction <;> constructor <;>
    simp_all [Nesting.leaveFunction, List.filterMap_cons, -List.countP_eq_zero]

/-- The end of a property leaves no header pending. -/
theorem leaveProperty (holds : nesting.Holds (.property :: stack))
    (outside : stack.countP Frame.isFunction = 0) (single : stack.count .property = 0) :
    { nesting.leaveFunction with propertyHeader := none }.Holds stack := by
  obtain ⟨containers, enums, doLoops, blocks, counters, function, propertyHeader⟩ := holds
  constructor <;>
    simp_all [Nesting.leaveFunction, List.filterMap_cons, -List.countP_eq_zero]

/-- An `End` line with a word for the innermost block closes it. -/
theorem closeTarget {frame : Frame} {target : Token} (holds : nesting.Holds (frame :: stack))
    (word : frame.endWords.contains target = true) (braced : frame.isBraced = true)
    (outside : frame.isFunction = true → stack.countP Frame.isFunction = 0) :
    (nesting.closeTarget target).2 = true ∧ (nesting.closeTarget target).1.Holds stack := by
  cases frame with
  | container kind =>
    cases kind <;> obtain rfl : target = _ := List.mem_singleton.mp (List.contains_iff_mem.mp word)
    · exact holds.closeContainer
    · exact holds.closeContainer
  | block kind =>
    cases kind with
    | forBlock => cases word
    | _ =>
      obtain rfl : target = _ := List.mem_singleton.mp (List.contains_iff_mem.mp word)
      exact holds.closeBlock (by decide)
  | enumBlock =>
    obtain rfl : target = _ := List.mem_singleton.mp (List.contains_iff_mem.mp word)
    exact holds.closeEnum
  | doLoop => cases word
  | function =>
    have words : target = "Function" ∨ target = "Sub" := by simpa [Frame.endWords] using word
    rcases words with rfl | rfl <;> exact holds.leaveFunction rfl (outside rfl)
  | accessor =>
    have words : target = "Get" ∨ target = "Set" := by simpa [Frame.endWords] using word
    rcases words with rfl | rfl <;> exact holds.leaveFunction rfl (outside rfl)
  | property => cases braced

end Nesting.Holds

namespace Draft.Within

variable {draft : Draft} {stack : List Frame} {frame : Frame} {line header : String}

/-- A line without a brace at its start changes nothing. -/
theorem emit (within : draft.Within stack) (stays : braceMove line = .stays) :
    (draft.emit line).Within stack :=
  ⟨within.nesting, (depth_emit_stays stays).trans within.depth, within.matched⟩

/-- A line that starts plainly changes nothing. -/
theorem emit_plain (within : draft.Within stack) (plain : startsPlain line = true) :
    (draft.emit line).Within stack :=
  within.emit (braceMove_of_plain plain)

/-- A notice that complains of no closer changes nothing. -/
theorem report (within : draft.Within stack) {notice : Notice} (matched : notice.Matched) :
    (draft.report notice).Within stack := by
  refine ⟨within.nesting, within.depth, fun diagnostic member => ?_⟩
  rcases Array.mem_push.mp member with old | rfl
  · exact within.matched diagnostic old
  · exact matched

/-- Several such notices change nothing. -/
theorem reportAll (within : draft.Within stack) {notices : List Notice}
    (matched : ∀ notice ∈ notices, notice.Matched) : (draft.reportAll notices).Within stack := by
  induction notices generalizing draft with
  | nil => exact within
  | cons notice rest inductionHypothesis =>
    exact inductionHypothesis (within.report (matched notice List.mem_cons_self))
      fun other member => matched other (List.mem_cons_of_mem notice member)

/-- A block is opened: it goes onto the stack with its brace. -/
theorem openBrace (within : draft.Within stack) (change : Nesting → Nesting)
    (holds : (change draft.nesting).Holds (frame :: stack)) (braced : frame.isBraced = true)
    (plain : startsPlain header = true) :
    ((draft.renest change).openBrace header).Within (frame :: stack) := by
  have here : (draft.renest change).depth = some (stack.countP Frame.isBraced) := within.depth
  refine ⟨holds, ?_, within.matched⟩
  rw [depth_openBrace plain here, List.countP_cons, if_pos braced]

/-- A block is closed: it comes off the stack with its brace. -/
theorem closeBrace {change : Nesting → Nesting} {closed : Bool} {keyword : String}
    (within : draft.Within (frame :: stack)) (holds : (change draft.nesting).Holds stack)
    (opened : closed = true) (braced : frame.isBraced = true) (closes : braceMove line = .closes) :
    (((draft.renest change).reportUnless closed keyword).emit line).Within stack := by
  have deep : (draft.renest change).depth = some (stack.countP Frame.isBraced + 1) := by
    have here := within.depth
    rw [List.countP_cons, if_pos braced] at here
    exact here
  rw [Draft.reportUnless, if_pos opened]
  exact ⟨holds, depth_emit_closes closes deep, within.matched⟩

/-- The declared symbols have nothing to do with open blocks. -/
theorem resymbol (within : draft.Within stack) (change : Symbols → Symbols) :
    (draft.resymbol change).Within stack :=
  ⟨within.nesting, within.depth, within.matched⟩

/-- A line that is passed through without a brace at its start changes nothing. -/
theorem passLine (within : draft.Within stack) {tokens : List Token}
    (written : if draft.nesting.insideEnum then startsPlain (enumeratorLine tokens) = true
      else braceMove (statementLine tokens) = .stays) :
    (draft.passLine tokens).Within stack := by
  unfold Draft.passLine
  split
  · next enum =>
    rw [if_pos enum] at written
    refine emit_plain ?_ written
    rw [recordEnumerator_frame]
    exact ⟨within.nesting, within.depth, within.matched⟩
  · next code =>
    rw [if_neg code] at written
    refine emit (within.reportAll fun notice member => ?_) written
    split at member
    · obtain ⟨word, -, rfl⟩ := List.mem_map.mp member
      nofun
    · cases member

/-- A declared variable leaves the open blocks as they are. -/
theorem register (within : draft.Within stack) (declared : Variable) :
    (draft.register declared).Within stack := by
  have current : (draft.register declared).nesting.function.toList.length =
      draft.nesting.function.toList.length := by
    unfold Draft.register
    split
    · next record found => simp [found]
    · next outside =>
      split
      · split <;> simp
      · simp
  obtain ⟨⟨containers, enums, doLoops, blocks, counters, function, propertyHeader⟩, depth,
    matched⟩ := within
  rw [register_frame]
  exact ⟨⟨containers, enums, doLoops, blocks, counters, current.trans function, propertyHeader⟩,
    depth, matched⟩

/-- A declared property leaves the open blocks as they are. -/
theorem registerProperty (within : draft.Within stack) (declared : Variable) :
    (draft.registerProperty declared).Within stack := by
  rw [registerProperty_frame]
  exact ⟨within.nesting, within.depth, within.matched⟩

/-- A function is started where none is open: behind a blank line where one is needed, its
signature and brace are written. -/
theorem startFunction (within : draft.Within stack)
    (outside : stack.countP Frame.isFunction = 0) {record : FunctionRecord}
    (leads : record.LeadsPlain) (isFunction : frame.isFunction = true) (generics : String)
    (comment : Option String) :
    (draft.startFunction record generics comment).Within (frame :: stack) := by
  have braced : frame.isBraced = true := by cases frame <;> first | rfl | cases isFunction
  have plain : startsPlain (record.bindParameters.signature generics ++ commentEnding comment) =
      true := startsPlain_append (leads.signature generics) _
  have spaced : (if draft.needsGap then draft.emit "" else draft).Within stack := by
    split
    · exact within.emit (by decide)
    · exact within
  have entered := spaced.nesting.openFunction outside record.bindParameters isFunction
  obtain ⟨holds, depth, matched⟩ := spaced.openBrace (·.enterFunction record.bindParameters) entered
    braced plain
  exact ⟨holds, depth, matched⟩

end Draft.Within

section Steps

variable {draft after : Draft} {stack : List Frame} {frame : Frame} {scope : Scope} {text : String}
  {tokens : List Token} {more : List SourceLine}

/-- A function header opens the function; what stands behind it is noticed. -/
theorem Draft.Within.function (within : draft.Within stack)
    (outside : stack.countP Frame.isFunction = 0) {keyword : Nat} {isSub : Bool}
    {header : FunctionHeader}
    (reading : FunctionHeader.read draft.nesting tokens keyword isSub = .ok header) :
    ((draft.startFunction header.record header.generics header.clause).reportAll
      (header.clause.toList.map .trailingClause)).Within (.function :: stack) := by
  have leads := FunctionHeader.read_plain _ tokens keyword isSub header reading
  refine Draft.Within.reportAll (within.startFunction outside leads rfl _ _) fun notice member => ?_
  obtain ⟨clause, -, rfl⟩ := List.mem_map.mp member
  nofun

/-- The header of a loop opens it, with a notice where its bounds are only assumed to be whole. -/
theorem Draft.Within.forLoop (within : draft.Within stack) {header : LoopHeader}
    (reading : LoopHeader.read draft.nesting tokens = .ok header) :
    (((draft.reportAll
      (if header.isAssumed then [.assumedIntegerBounds header.counter] else [])).renest
      fun nesting =>
        { nesting with
          counters := header.counter :: nesting.counters
          blocks := .forBlock :: nesting.blocks }).openBrace header.line).Within
      (.block .forBlock :: stack) := by
  have reported : (draft.reportAll (if header.isAssumed then
      [.assumedIntegerBounds header.counter] else [])).Within stack := by
    refine within.reportAll fun notice member => ?_
    split at member
    · rw [List.mem_singleton.mp member]
      nofun
    · cases member
  exact reported.openBrace _ (reported.nesting.openFor header.counter) rfl
    (LoopHeader.read_plain _ _ header reading)

/-- An opener that is accepted puts its block on the stack. -/
theorem Draft.Within.opener (within : draft.Within stack) (fits : scope.Fits stack)
    (opens : Frame.opener? text more = some frame) (allowed : frame.isAllowedIn scope = true)
    (behind : draft.input.drop (draft.cursor + 1) = more)
    (accepted : draft.refusal text = none) :
    ∃ after, draft.convertLine text = .ok after ∧ after.Within (frame :: stack) := by
  obtain ⟨after, ran, converted⟩ := Draft.accepted_of_refusal accepted
  refine ⟨after, converted, ?_⟩
  have holds := within.nesting
  have made := Statement.makes_of_run ran
  unfold Frame.opener? at opens
  generalize lineStatement text = statement at made opens
  cases made with
  | container reading =>
    cases opens
    exact (within.resymbol _).openBrace _ (holds.openContainer ⟨_, _, _⟩) rfl
      (ContainerHeader.read_plain _ _ _ _ reading)
  | namespaceHeader reading =>
    cases opens
    exact within.openBrace _ (holds.openBlock (by decide)) rfl (readNamespace_plain _ _ reading)
  | enumHeader reading =>
    cases opens
    exact (within.resymbol _).openBrace _ (holds.openEnum _) rfl
      (EnumHeader.read_line_plain _ _ _ reading)
  | function reading =>
    cases opens
    exact within.function (fits.outsideFunction allowed (.inl rfl)) reading
  | accessor reading =>
    cases opens
    exact within.startFunction (fits.outsideFunction allowed (.inl rfl))
      (AccessorHeader.read_plain draft _ _ _ reading) rfl _ _
  | pendingProperty =>
    obtain ⟨-, ⟨⟩⟩ := Option.ite_none_right_eq_some.mp opens
    exact ⟨holds.openProperty (fits.outsideProperty allowed) _, within.depth, within.matched⟩
  | property alone =>
    -- An accessor that comes next is one that follows.
    obtain ⟨next, -⟩ := Option.ite_none_right_eq_some.mp opens
    have follows : draft.accessorFollows = true := by
      rw [Draft.accessorFollows, behind]
      exact accessorFollows_of_next next
    cases alone.symm.trans follows
  | ifBlock reading =>
    obtain ⟨-, ⟨⟩⟩ := Option.ite_none_left_eq_some.mp opens
    exact within.openBrace _ (holds.openBlock (by decide)) rfl (IfLine.read_plain _ _ reading)
  | ifStatement reading =>
    exact absurd (IfLine.read_form _ _ reading) (Option.ite_none_left_eq_some.mp opens).1
  | forLoop reading =>
    cases opens
    exact within.forLoop reading
  | whileLoop =>
    cases opens
    exact within.openBrace _ (holds.openBlock (by decide)) rfl (blockHeader_plain (by decide) _)
  | doLoop reading =>
    cases opens
    exact within.openBrace _ (holds.openDo _) rfl (readDo_plain _ _ reading)
  | _ => cases opens

/-- A closer that is accepted takes its block off the stack. -/
theorem Draft.Within.closer (within : draft.Within (frame :: stack)) (fits : scope.Fits stack)
    (allowed : frame.isAllowedIn scope = true) (closes : frame.isClosedBy text = true)
    (accepted : draft.refusal text = none) :
    ∃ after, draft.convertLine text = .ok after ∧ after.Within stack := by
  obtain ⟨after, ran, converted⟩ := Draft.accepted_of_refusal accepted
  refine ⟨after, converted, ?_⟩
  obtain ⟨notBare, ofProperty⟩ := frame.endWords_form
  have made := Statement.makes_of_run ran
  unfold Frame.isClosedBy at closes
  generalize lineStatement text = statement at made closes
  cases made with
  | endProgram bare => exact absurd (bare ▸ List.contains_iff_mem.mp closes) notBare
  | endProperty target =>
    obtain rfl := ofProperty (target ▸ List.contains_iff_mem.mp closes)
    have holds := within.nesting.leaveProperty (fits.outsideFunction allowed (.inr rfl))
      (fits.outsideProperty allowed)
    exact ⟨holds, within.depth, within.matched⟩
  | endBlock named other =>
    have isBlock : frame ≠ .property := by
      rintro rfl
      exact other (List.mem_singleton.mp (List.contains_iff_mem.mp closes))
    have braced : frame.isBraced = true := by simpa using isBlock
    obtain ⟨opened, holds⟩ := within.nesting.closeTarget closes braced
      fun isFunction => fits.outsideFunction allowed (.inl isFunction)
    exact within.closeBrace holds opened braced (by decide)
  | nextLoop reading =>
    obtain rfl := Reading.token_eq reading
    obtain rfl := beq_iff_eq.mp closes
    obtain ⟨opened, holds⟩ := within.nesting.afterNext
    exact within.closeBrace holds opened rfl (by decide)
  | loopEnd reading =>
    obtain rfl := beq_iff_eq.mp closes
    obtain ⟨opened, holds⟩ := within.nesting.closeDo
    exact within.closeBrace holds opened rfl (readLoopEnd_closes _ _ _ reading)
  | _ => cases closes

/-- A line that starts with a plain word is passed through without a brace at its start. -/
theorem statementLine_stays {tokens : List Token} (plain : startsPlain (tokenAt tokens 0) = true) :
    braceMove (statementLine tokens) = .stays := by
  apply braceMove_of_plain
  apply statementLine_plain
  cases tokens with
  | nil => cases plain
  | cons first rest => exact plain

/-- Code does not stand in an enum. -/
theorem Draft.Within.code {inFunction inBranch : Bool} (within : draft.Within stack)
    (fits : (Scope.code inFunction inBranch).Fits stack) : draft.nesting.insideEnum = false := by
  have none : draft.nesting.enums.length = 0 := within.nesting.enums.trans fits.1
  simpa [Nesting.insideEnum] using none

/-- A refused line in code is passed through without a brace at its start. -/
theorem Draft.Within.refused {inFunction inBranch : Bool} (within : draft.Within stack)
    (fits : (Scope.code inFunction inBranch).Fits stack) {tokens : List Token} (cause : Malformed)
    (stays : braceMove (statementLine tokens) = .stays) :
    ((draft.report (.malformed cause)).passLine tokens).Within stack := by
  refine (within.report (by nofun)).passLine ?_
  have code : (draft.report (.malformed cause)).nesting.insideEnum = false := within.code fits
  simpa [code] using stays

/-- A line up to a declaration keyword starts plainly. -/
theorem Statement.startsPlain_of_declarationKeyword {tokens : List Token} {word : String}
    {keyword : Nat} (plain : startsPlain word = true)
    (found : declarationKeyword tokens word = some keyword) :
    startsPlain (tokenAt tokens 0) = true := by
  obtain ⟨before, taken, -, -, names⟩ := declarationKeyword_eq_some_iff.mp found
  cases tokens with
  | nil => simp at taken
  | cons first rest =>
    rw [List.take_succ_cons] at taken
    cases before with
    | nil =>
      obtain rfl := (List.cons.inj taken).1
      exact plain
    | cons name later =>
      obtain rfl := (List.cons.inj taken).1
      exact Token.startsPlain_of_identifier (List.all_eq_true.mp names first List.mem_cons_self)

/-- True of the statements whose lines start with a keyword or a modifier. -/
def Statement.startsWithWord : Statement → Bool
  | .blank | .comment | .whileLoop _ | .other => false
  | _ => true

/-- The line of such a statement starts plainly. -/
theorem Statement.Form.startsPlain {statement : Statement} (form : statement.Form text tokens)
    (word : statement.startsWithWord = true) : startsPlain (tokenAt tokens 0) = true := by
  have behind : ∀ {word : String} {keyword : Nat}, Text.startsPlain word = true →
      openingKeyword tokens word = some keyword → Text.startsPlain (tokenAt tokens 0) = true :=
    fun plain found => startsPlain_of_declarationKeyword plain (declarationKeyword_of_opening found)
  cases statement with
  | blank | comment | whileLoop | other => cases word
  | container kind => cases kind <;> exact behind (by decide) form
  | enumHeader | property => exact behind (by decide) form
  | function keyword isSub => cases isSub <;> exact behind (by decide) form
  | accessor =>
    rcases declarationKeyword_of_accessor form with found | found <;>
      exact startsPlain_of_declarationKeyword (by decide) found
  | declaration =>
    rcases form with isDim | isModifier
    · rw [isDim]
      decide
    · obtain ⟨modifier, found⟩ := Option.isSome_iff_exists.mp isModifier
      exact (Vocabulary.modifier_plain found).1
  | inheritance | nextLoop => rcases form with isWord | isWord <;> rw [isWord] <;> decide
  | _ =>
    rw [show tokenAt tokens 0 = _ from form]
    decide

/-- A leaf of code that is refused starts with a plain word. -/
theorem codeLeaf_stays {cause : Malformed} (stands : isCodeLeaf text more = true)
    (ran : ((lineStatement text).rule text (lineTokens text)).run draft =
      .error (.malformed cause) draft) :
    braceMove (statementLine (lineTokens text)) = .stays := by
  have form := Statement.classify_form text (lineTokens text)
  rw [← lineStatement] at form
  unfold isCodeLeaf at stands
  generalize lineStatement text = statement at form stands ran
  cases statement with
  | blank | comment => cases ran
  | whileLoop => cases stands
  | other => exact beq_iff_eq.mp stands
  | _ => exact statementLine_stays (form.startsPlain rfl)

/-- An inheritance clause is added to a header that is written already, which keeps the start
of that header. -/
theorem Draft.Within.inheritance (within : draft.Within stack) {container : Container}
    {header : String} {bases : List String}
    (reading : readInheritance draft tokens = .ok (container, header, bases)) :
    { draft with
      output := draft.output.setIfInBounds container.headerLine
        (bases.foldl addBase header) }.Within stack := by
  obtain ⟨-, written, -⟩ := readInheritance_yields draft tokens _ reading
  have replaced := depth_replace written (braceMove_addBases bases header)
  exact ⟨within.nesting, replaced.trans within.depth, within.matched⟩

/-- A leaf of code that is accepted leaves the stack as it is. -/
theorem Draft.Within.acceptedLeaf (within : draft.Within stack) (enums : draft.PlainEnums)
    (code : draft.nesting.insideEnum = false)
    (behind : draft.input.drop (draft.cursor + 1) = more)
    (stands : isCodeLeaf text more = true)
    (made : (lineStatement text).Makes text (lineTokens text) draft after) :
    after.Within stack := by
  unfold isCodeLeaf at stands
  generalize lineStatement text = statement at made stands
  cases made with
  | blank => exact within.emit (by decide)
  | comment => exact within.emit_plain (commentLine_plain text)
  | declaration reading =>
    exact (within.register _).emit_plain (DeclarationLine.read_plain
      (fun entry member => (enums entry member).1) _ _ _ reading)
  | returnJump reading => exact within.emit_plain (returnStatement_plain _ _ reading)
  | exitJump reading => exact within.emit_plain (exitStatement_plain _ _ reading)
  | inheritance reading => exact within.inheritance reading
  | endProgram => exact within.emit_plain (by decide)
  | endProperty target =>
    rw [target] at stands
    cases stands
  | endBlock named => exact absurd (beq_iff_eq.mp stands) named
  | ifBlock reading =>
    have form : hasBranches (lineTokens text) = false := IfLine.read_form _ _ reading
    cases form.symm.trans stands
  | ifStatement reading => exact within.emit_plain (IfLine.read_plain _ _ reading)
  | pendingProperty accessors =>
    rw [Draft.accessorFollows, behind] at accessors
    simp [accessors] at stands
  | property alone reading =>
    exact (within.registerProperty _).emit_plain (PropertyLine.read_plain _ _ _ _ reading)
  | other =>
    refine within.passLine ?_
    simpa [code] using stands
  | _ => cases stands

/-- A leaf of code leaves the stack as it is, accepted or not. -/
theorem Draft.Within.codeLeaf {inFunction inBranch : Bool} (within : draft.Within stack)
    (enums : draft.PlainEnums) (fits : (Scope.code inFunction inBranch).Fits stack)
    (behind : draft.input.drop (draft.cursor + 1) = more)
    (stands : isCodeLeaf text more = true) :
    ∃ after, draft.convertLine text = .ok after ∧ after.Within stack := by
  rcases draft.convertLine_cases text with ⟨after, ran, converted⟩ | ⟨cause, ran, converted⟩
  · exact ⟨after, converted, within.acceptedLeaf enums (within.code fits) behind stands
      (Statement.makes_of_run ran)⟩
  · exact ⟨_, converted, within.refused fits cause (codeLeaf_stays stands ran)⟩

/-- A leaf of an enum or property leaves the stack as it is. -/
theorem Draft.Within.memberLeaf {enumerators : Bool} (within : draft.Within stack)
    (enum : enumerators = true → draft.nesting.insideEnum = true)
    (stands : isMemberLeaf enumerators text = true) :
    ∃ after, draft.convertLine text = .ok after ∧ after.Within stack := by
  unfold isMemberLeaf at stands
  split at stands
  · next statement =>
    exact ⟨_, convertLine_accepted (by rw [statement]; rfl), within.emit (by decide)⟩
  · next statement =>
    exact ⟨_, convertLine_accepted (by rw [statement]; rfl),
      within.emit_plain (commentLine_plain text)⟩
  · next statement =>
    obtain ⟨allowed, named⟩ := Bool.and_eq_true_iff.mp stands
    have passed := Rule.passThrough_run (lineTokens text) draft
    refine ⟨_, convertLine_accepted (by rw [statement]; exact passed), within.passLine ?_⟩
    rw [if_pos (enum allowed)]
    apply enumeratorLine_plain
    generalize lineTokens text = tokens at named ⊢
    cases tokens with
    | nil => cases named
    | cons first rest => exact Token.startsPlain_of_identifier named
  · cases stands

/-- A leaf leaves the stack as it is. -/
theorem Draft.Within.leaf (within : draft.Within stack) (enums : draft.PlainEnums)
    (fits : scope.Fits stack) (behind : draft.input.drop (draft.cursor + 1) = more)
    (stands : isLeaf scope text more = true) :
    ∃ after, draft.convertLine text = .ok after ∧ after.Within stack := by
  cases scope with
  | code inFunction inBranch => exact within.codeLeaf enums fits behind stands
  | enumBody =>
    have stands : isMemberLeaf true text = true := stands
    refine within.memberLeaf (fun _ => ?_) stands
    have some : 0 < draft.nesting.enums.length := within.nesting.enums ▸ fits
    simpa [Nesting.insideEnum] using List.ne_nil_of_length_pos some
  | propertyBody =>
    have stands : isMemberLeaf false text = true := stands
    exact within.memberLeaf (by simp) stands

/-- A separator closes one branch and opens the next. -/
theorem Draft.Within.separator {inFunction : Bool} (within : draft.Within stack)
    (fits : (Scope.code inFunction true).Fits stack) (separates : isSeparator text = true) :
    ∃ after, draft.convertLine text = .ok after ∧ after.Within stack := by
  obtain ⟨depth, deep⟩ := Nat.exists_eq_add_one_of_ne_zero (Nat.ne_of_gt (fits.2.2 rfl))
  have turned : ∀ {header : String}, startsPlain header = true →
      ((draft.emit "\x7d").openBrace header).Within stack := by
    intro header plain
    have back : (draft.emit "\x7d").depth = some depth :=
      depth_emit_closes (by decide) (deep ▸ within.depth)
    exact ⟨within.nesting, deep ▸ depth_openBrace plain back, within.matched⟩
  have form := Statement.classify_form text (lineTokens text)
  rw [← lineStatement] at form
  unfold isSeparator at separates
  rcases draft.convertLine_cases text with ⟨after, ran, converted⟩ | ⟨cause, -, converted⟩
  · refine ⟨after, converted, ?_⟩
    have made := Statement.makes_of_run ran
    generalize lineStatement text = statement at made separates
    cases made with
    | elseIfBranch reading => exact turned (elseIfHeader_plain _ _ reading)
    | elseBranch reading =>
      split at reading
      · exact turned (elseIfHeader_plain _ _ reading)
      · cases reading
        exact turned (by decide)
    | _ => cases separates
  · refine ⟨_, converted, within.refused fits cause (statementLine_stays (form.startsPlain ?_))⟩
    generalize lineStatement text = statement at separates
    cases statement with
    | elseIfBranch | elseBranch => rfl
    | _ => cases separates

end Steps

/-- Where a conversion stands: within the blocks of a stack, before lines of which every
opener and closer will be accepted. -/
structure Draft.At (draft : Draft) (cursor : Nat) (lines : List SourceLine) (stack : List Frame) :
    Prop where
  within : draft.Within stack
  enums : draft.PlainEnums
  input : draft.input.drop cursor = lines
  accepts : draft.acceptsFrom cursor lines = true

/-- A draft from which conversion goes on as from another one before it. -/
structure Draft.LeadsTo (draft : Draft) (cursor : Nat) (lines : List SourceLine) (after : Draft)
    (next : Nat) (rest : List SourceLine) : Prop where
  converted : draft.convertFrom cursor lines = after.convertFrom next rest
  options : after.options = draft.options

section Run

variable {draft : Draft} {cursor : Nat} {stack next : List Frame} {line : SourceLine}
  {more : List SourceLine}

/-- Coming to the next line changes nothing, and the lines behind it are those that follow. -/
theorem Draft.At.moveTo (here : draft.At cursor (line :: more) stack) :
    (draft.moveTo cursor line).Within stack ∧ (draft.moveTo cursor line).PlainEnums ∧
      (draft.moveTo cursor line).input.drop ((draft.moveTo cursor line).cursor + 1) = more := by
  refine ⟨⟨here.within.nesting, here.within.depth, here.within.matched⟩, here.enums, ?_⟩
  have tail := congrArg List.tail here.input
  rwa [List.tail_drop] at tail

/-- A delimiter that comes next is accepted. -/
theorem Draft.At.accepted (here : draft.At cursor (line :: more) stack)
    (delimits : isDelimiter line.text more = true) :
    (draft.moveTo cursor line).refusal line.text = none := by
  have accepts := here.accepts
  simp only [acceptsFrom, delimits, Bool.not_true, Bool.false_or, Bool.and_eq_true,
    Option.isNone_iff_eq_none] at accepts
  exact accepts.1

/-- One line takes a conversion to the next line. -/
theorem Draft.At.step (here : draft.At cursor (line :: more) stack)
    (stepped : ∃ after, (draft.moveTo cursor line).convertLine line.text = .ok after ∧
      after.Within next) :
    ∃ after, after.At (cursor + 1) more next ∧
      draft.LeadsTo cursor (line :: more) after (cursor + 1) more := by
  obtain ⟨after, converted, within⟩ := stepped
  obtain ⟨options, input, enums⟩ := Draft.convertLine_frame converted
  have accepts := here.accepts
  simp only [acceptsFrom, converted, Bool.and_eq_true] at accepts
  refine ⟨after, ⟨within, enums here.enums, ?_, accepts.2⟩, ?_, options⟩
  · rw [input]
    exact here.moveTo.2.2
  · simp only [convertFrom, converted]

/-- Conversions can be put one behind the other. -/
theorem Draft.LeadsTo.trans {first second third : Draft} {one two three : Nat}
    {lines others rest : List SourceLine} (start : first.LeadsTo one lines second two others)
    (later : second.LeadsTo two others third three rest) :
    first.LeadsTo one lines third three rest :=
  ⟨start.converted.trans later.converted, later.options.trans start.options⟩

/-- A line that opens a block is a delimiter. -/
theorem isDelimiter_of_opener {frame : Frame} {text : String}
    (opens : Frame.opener? text more = some frame) : isDelimiter text more = true := by
  unfold isDelimiter
  split
  · rfl
  · rfl
  · rfl
  · simp [opens]

/-- A line that closes a block is a delimiter. -/
theorem isDelimiter_of_closer {frame : Frame} {text : String}
    (closes : frame.isClosedBy text = true) : isDelimiter text more = true := by
  unfold Frame.isClosedBy at closes
  unfold isDelimiter
  split at closes <;> first | cases closes | simp_all

end Run

/-- A well-nested stretch of lines leads back to the blocks it started within. The proof
follows the derivation; inside a block the stack holds that block as well. -/
theorem Nested.run {scope : Scope} {lines rest : List SourceLine} (nested : Nested scope lines rest)
    {draft : Draft} {cursor : Nat} {stack : List Frame} (here : draft.At cursor lines stack)
    (fits : scope.Fits stack) :
    ∃ after next, after.At next rest stack ∧ draft.LeadsTo cursor lines after next rest := by
  induction nested generalizing draft cursor stack with
  | done scope rest => exact ⟨draft, cursor, here, rfl, rfl⟩
  | leaf stands _ later =>
    obtain ⟨within, enums, behind⟩ := here.moveTo
    obtain ⟨middle, there, first⟩ := here.step (within.leaf enums fits behind stands)
    obtain ⟨after, next, back, second⟩ := later there fits
    exact ⟨after, next, back, first.trans second⟩
  | separator separates _ later =>
    obtain ⟨within, -, -⟩ := here.moveTo
    obtain ⟨middle, there, first⟩ := here.step (within.separator fits separates)
    obtain ⟨after, next, back, second⟩ := later there fits
    exact ⟨after, next, back, first.trans second⟩
  | block frame opens allowed _ closes _ body later =>
    obtain ⟨within, -, behind⟩ := here.moveTo
    obtain ⟨inside, there, first⟩ := here.step
      (within.opener fits opens allowed behind (here.accepted (isDelimiter_of_opener opens)))
    obtain ⟨atCloser, position, before, second⟩ := body there (fits.body allowed)
    obtain ⟨within, -, -⟩ := before.moveTo
    obtain ⟨outside, behindCloser, third⟩ := before.step
      (within.closer fits allowed closes (before.accepted (isDelimiter_of_closer closes)))
    obtain ⟨after, next, back, fourth⟩ := later behindCloser fits
    exact ⟨after, next, back, first.trans (second.trans (third.trans fourth))⟩

/-- With nothing open the stack is empty. -/
theorem Nesting.Holds.empty : ({} : Nesting).Holds [] := by
  constructor <;> simp

/-- With no block on the stack nothing is open. -/
theorem Nesting.Holds.eq_empty {nesting : Nesting} (holds : nesting.Holds []) : nesting = {} := by
  obtain ⟨containers, enums, doLoops, blocks, counters, function, propertyHeader⟩ := holds
  obtain ⟨_, _, _, _, _, function?, property?⟩ := nesting
  cases function? <;> cases property? <;> simp_all

/-- A conversion starts outside all blocks. -/
theorem Draft.start_at (options : Options) (input : List SourceLine)
    (accepts : (Draft.start options input).acceptsFrom 0 input = true) :
    (Draft.start options input).At 0 input [] :=
  ⟨⟨Nesting.Holds.empty, rfl, nofun⟩, nofun, rfl, accepts⟩

/-- A source that is well nested, with every opener and closer accepted, is converted into
lines with balanced braces. The conversion ends with nothing open, no closer was without its
opener, and the lines are balanced as they were written, in their final order of words and,
if the indentation is blank, in the finished file. Only a source with nothing on any line
is not converted. -/
theorem well_nested_source_has_balanced_braces (source : String) (options : Options) :
    let input := SourceLine.prepare source options.splitDeclarations
    let start := Draft.start options input
    Nested (.code false false) input [] → start.acceptsFrom 0 input = true →
    ∃ draft, start.convertFrom 0 input = .ok draft ∧
      convert source options =
        (if input.all (·.text.isEmpty) then .error .emptyInput else .ok draft.finish) ∧
      draft.nesting = {} ∧
      (∀ diagnostic ∈ draft.diagnostics, ∀ keyword,
        diagnostic.notice ≠ .unmatchedClose keyword) ∧
      Balanced draft.output.toList ∧ Balanced draft.ordered ∧
      (options.indent.toList.all isBlank = true → Balanced draft.finish.lines) := by
  intro input start nested accepted
  have fits : (Scope.code false false).Fits [] := by simp [Scope.Fits]
  obtain ⟨draft, _, back, leads⟩ := nested.run (Draft.start_at options input accepted) fits
  have converted : start.convertFrom 0 input = .ok draft := leads.converted
  have depth : draft.depth = some 0 := back.within.depth
  refine ⟨draft, converted, ?_, back.within.nesting.eq_empty, back.within.matched, depth,
    draft.depthAfter_ordered.trans depth, fun blank => ?_⟩
  · simp only [convert]
    rw [converted]
  · have same : draft.options = options := leads.options
    exact (Draft.depthAfter_finish (same ▸ blank)).trans depth

/-- A class with a property, an enum and a sub, which has a loop with branches, one of them
with another loop. -/
def treeSource : String :=
  "Class Tree\nProperty Size As Integer\nGet\nReturn 1\nEnd Get\nEnd Property\nEnum Kind\n" ++
    "Leaf\nEnd Enum\nSub Grow()\nFor i = 1 To 3\nIf i > 1 Then\nExit For\nElse\nDo\n" ++
    "Loop While i < 2\nEnd If\nNext\nEnd Sub\nEnd Class\n"

/-- The class `Tree` is closed with all its blocks, and comes out balanced. -/
theorem tree_source_has_balanced_braces :
    ∃ draft : Draft, convert treeSource {} = .ok draft.finish ∧ draft.nesting = {} ∧
      Balanced draft.finish.lines := by
  have prepared : SourceLine.prepare treeSource true = [⟨1, "Class Tree"⟩,
      ⟨2, "Property Size As Integer"⟩, ⟨3, "Get"⟩, ⟨4, "Return 1"⟩, ⟨5, "End Get"⟩,
      ⟨6, "End Property"⟩, ⟨7, "Enum Kind"⟩, ⟨8, "Leaf"⟩, ⟨9, "End Enum"⟩, ⟨10, "Sub Grow()"⟩,
      ⟨11, "For i = 1 To 3"⟩, ⟨12, "If i > 1 Then"⟩, ⟨13, "Exit For"⟩, ⟨14, "Else"⟩,
      ⟨15, "Do"⟩, ⟨16, "Loop While i < 2"⟩, ⟨17, "End If"⟩, ⟨18, "Next"⟩, ⟨19, "End Sub"⟩,
      ⟨20, "End Class"⟩] := by decide +kernel
  have nested : Nested (.code false false) (SourceLine.prepare treeSource true) [] := by
    rw [prepared]
    exact .block (.container .classBlock) (by decide +kernel) rfl
      (.block .property (by decide +kernel) rfl
        (.block .accessor (by decide +kernel) rfl
          (.leaf (by decide +kernel) (.done _ _)) (by decide +kernel) (.done _ _))
        (by decide +kernel)
        (.block .enumBlock (by decide +kernel) rfl
          (.leaf (by decide +kernel) (.done _ _)) (by decide +kernel)
          (.block .function (by decide +kernel) rfl
            (.block (.block .forBlock) (by decide +kernel) rfl
              (.block (.block .ifBlock) (by decide +kernel) rfl
                (.leaf (by decide +kernel) (.separator (by decide +kernel)
                  (.block .doLoop (by decide +kernel) rfl (.done _ _) (by decide +kernel)
                    (.done _ _))))
                (by decide +kernel) (.done _ _))
              (by decide +kernel) (.done _ _))
            (by decide +kernel) (.done _ _))))
      (by decide +kernel) (.done _ _)
  have accepted : (Draft.start {} (SourceLine.prepare treeSource true)).acceptsFrom 0
      (SourceLine.prepare treeSource true) = true := by
    rw [prepared]
    decide +kernel
  obtain ⟨draft, -, converted, closed, -, -, -, balanced⟩ :=
    well_nested_source_has_balanced_braces treeSource {} nested accepted
  have filled : (SourceLine.prepare treeSource true).all (·.text.isEmpty) = false := by
    rw [prepared]
    decide
  simp only [filled] at converted
  exact ⟨draft, converted, closed, balanced (by decide)⟩

end BasicToSharp
