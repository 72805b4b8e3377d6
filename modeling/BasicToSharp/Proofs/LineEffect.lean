import BasicToSharp.Proofs.WellNested

/-!
# What one line does

Whatever a line says, converting it does one of four things. It writes lines and leaves the
stacks of open blocks as they are; it opens one block, with a header and a brace; it closes
one kind of block, with one line, and reports the closer when no block of the kind is open;
or it adds base types to the header of the innermost container and changes nothing else.
`Draft.convertLine_effect` says this once, for accepted and for refused lines. What holds
along a whole conversion is then shown by going through these four cases and not through
the statements.

Which of the four it is can be told from the line and from whether its rule accepts it:
`Draft.opens`, `Draft.closes` and `Draft.basesOf` do so.
-/

namespace BasicToSharp

/-- The kinds of block that are kept in a stack while they are open. -/
inductive StackKind
  | container (kind : ContainerKind)
  | block (kind : BlockKind)
  | enumBlock
  | doLoop
  deriving DecidableEq, Repr

namespace StackKind

/-- The kind as one of all the blocks that lines open and close. -/
def frame : StackKind → Frame
  | .container kind => .container kind
  | .block kind => .block kind
  | .enumBlock => .enumBlock
  | .doLoop => .doLoop

/-- Different kinds are different frames. -/
theorem frame_injective {one other : StackKind} (same : one.frame = other.frame) : one = other := by
  cases one <;> cases other <;> simp_all [frame]

/-- Kinds are compared as their frames are. -/
theorem frame_beq (one other : StackKind) : (one.frame == other.frame) = (one == other) := by
  rw [Bool.eq_iff_iff, beq_iff_eq, beq_iff_eq]
  exact ⟨frame_injective, congrArg frame⟩

/-- The texts by which a closer of this kind is reported. -/
def closers (kind : StackKind) : List String :=
  kind.frame.endWords.map ("End " ++ ·) ++
    match kind with
    | .block .forBlock => ["Next"]
    | .block .whileBlock => ["Wend"]
    | .doLoop => ["Loop"]
    | _ => []

/-- A closer is reported by a text of its own kind only. -/
theorem contains_closers {kind : StackKind} {keyword : String} (word : keyword ∈ kind.closers)
    (other : StackKind) : other.closers.contains keyword = (other == kind) := by
  rcases kind with (_ | _) | (_ | _ | _ | _) | _ | _
  case block.whileBlock =>
    have words : keyword = "End While" ∨ keyword = "Wend" := by
      simpa [closers, frame, Frame.endWords] using word
    rcases words with rfl | rfl <;>
      rcases other with (_ | _) | (_ | _ | _ | _) | _ | _ <;> decide
  all_goals
    obtain rfl : keyword = _ := List.mem_singleton.mp word
    rcases other with (_ | _) | (_ | _ | _ | _) | _ | _ <;> decide

/-- A word behind `End` closes one kind only. -/
theorem contains_endWords {kind : StackKind} {target : Token}
    (word : kind.frame.endWords.contains target = true) (other : StackKind) :
    other.frame.endWords.contains target = (other == kind) := by
  rcases kind with (_ | _) | (_ | _ | _ | _) | _ | _
  case block.forBlock => cases word
  case doLoop => cases word
  all_goals
    obtain rfl : target = _ := List.mem_singleton.mp (List.contains_iff_mem.mp word)
    rcases other with (_ | _) | (_ | _ | _ | _) | _ | _ <;> decide

/-- The text for an `End` line with a word of no kind is reported for no kind. -/
theorem contains_closers_end {target : Token} (kind : StackKind)
    (unknown : kind.frame.endWords.contains target = false) :
    kind.closers.contains ("End " ++ target) = false := by
  have starts : ("End " ++ target).toList.head? = some 'E' := by simp [String.toList_append]
  unfold closers
  rw [← Bool.not_eq_true, List.contains_iff_mem, List.mem_append]
  rintro (ending | loop)
  · obtain ⟨word, known, same⟩ := List.mem_map.mp ending
    obtain rfl : word = target := by simpa using same
    rw [← List.contains_iff_mem, unknown] at known
    cases known
  · split at loop
    case h_4 => cases loop
    all_goals
      rw [List.mem_singleton.mp loop] at starts
      revert starts
      decide

end StackKind

/-- The open blocks that are kept in stacks, innermost first in every list. -/
structure Stacks where
  containers : List Container
  enums : List String
  doLoops : List DoKind
  blocks : List BlockKind
  deriving DecidableEq, Repr

/-- The stacks among the open blocks. -/
def Nesting.stacked (nesting : Nesting) : Stacks :=
  ⟨nesting.containers, nesting.enums, nesting.doLoops, nesting.blocks⟩

/-- One open block, with what is remembered of it. -/
inductive Entry
  | container (container : Container)
  | block (kind : BlockKind)
  | enumBlock (name : String)
  | doLoop (kind : DoKind)
  deriving DecidableEq, Repr

/-- The kind of an open block. -/
def Entry.kind : Entry → StackKind
  | .container opened => .container opened.kind
  | .block kind => .block kind
  | .enumBlock _ => .enumBlock
  | .doLoop _ => .doLoop

namespace Stacks

/-- Put a block on the stack of its kind. -/
def push (stacked : Stacks) : Entry → Stacks
  | .container container => { stacked with containers := container :: stacked.containers }
  | .block kind => { stacked with blocks := kind :: stacked.blocks }
  | .enumBlock name => { stacked with enums := name :: stacked.enums }
  | .doLoop kind => { stacked with doLoops := kind :: stacked.doLoops }

/-- Take the innermost block of a kind away, if there is one. -/
def pop (stacked : Stacks) : StackKind → Stacks
  | .container kind => { stacked with containers := stacked.containers.eraseP (·.kind == kind) }
  | .block kind => { stacked with blocks := stacked.blocks.erase kind }
  | .enumBlock => { stacked with enums := stacked.enums.tail }
  | .doLoop => { stacked with doLoops := stacked.doLoops.tail }

/-- The number of open blocks of a kind. -/
def count (stacked : Stacks) : StackKind → Nat
  | .container kind => stacked.containers.countP (·.kind == kind)
  | .block kind => stacked.blocks.count kind
  | .enumBlock => stacked.enums.length
  | .doLoop => stacked.doLoops.length

end Stacks

namespace Nesting

/-- One is inside a container exactly if one is open. -/
theorem inside_eq (nesting : Nesting) (kind : ContainerKind) :
    nesting.inside kind = (nesting.stacked.count (.container kind) != 0) := by
  rw [inside, Bool.eq_iff_iff, bne_iff_ne, ← Nat.pos_iff_ne_zero, List.any_eq_true]
  exact List.countP_pos_iff.symm

/-- There is a block of a kind exactly if one is open. -/
theorem hasBlock_eq (nesting : Nesting) (kind : BlockKind) :
    nesting.hasBlock kind = (nesting.stacked.count (.block kind) != 0) := by
  rw [hasBlock, Bool.eq_iff_iff, bne_iff_ne, ← Nat.pos_iff_ne_zero, List.contains_iff_mem]
  exact List.count_pos_iff.symm

/-- One is inside an enum exactly if one is open. -/
theorem insideEnum_eq (nesting : Nesting) :
    nesting.insideEnum = (nesting.stacked.count .enumBlock != 0) := by
  cases opened : nesting.enums <;> simp [insideEnum, Stacks.count, stacked, opened]

/-- One is inside a `Do` loop exactly if one is open. -/
theorem insideDoLoop_eq (nesting : Nesting) :
    nesting.insideDoLoop = (nesting.stacked.count .doLoop != 0) := by
  cases opened : nesting.doLoops <;> simp [insideDoLoop, Stacks.count, stacked, opened]

/-- An `End` line with a word for a kind takes a block of it away, and closes something
exactly when one is open. -/
theorem closeTarget_stacked (nesting : Nesting) {kind : StackKind} {target : Token}
    (word : kind.frame.endWords.contains target = true) :
    (nesting.closeTarget target).1.stacked = nesting.stacked.pop kind ∧
      (nesting.closeTarget target).2 = (nesting.stacked.count kind != 0) := by
  rcases kind with (_ | _) | (_ | _ | _ | _) | _ | _
  case block.forBlock => cases word
  case doLoop => cases word
  all_goals obtain rfl : target = _ := List.mem_singleton.mp (List.contains_iff_mem.mp word)
  case enumBlock => exact ⟨rfl, nesting.insideEnum_eq⟩
  case container.classBlock => exact ⟨rfl, nesting.inside_eq .classBlock⟩
  case container.moduleBlock => exact ⟨rfl, nesting.inside_eq .moduleBlock⟩
  case block.namespaceBlock => exact ⟨rfl, nesting.hasBlock_eq .namespaceBlock⟩
  case block.ifBlock => exact ⟨rfl, nesting.hasBlock_eq .ifBlock⟩
  case block.whileBlock => exact ⟨rfl, nesting.hasBlock_eq .whileBlock⟩

/-- An `End` line with any other word leaves the stacks as they are. -/
theorem closeTarget_other (nesting : Nesting) {target : Token}
    (unknown : ∀ kind : StackKind, kind.frame.endWords.contains target = false) :
    (nesting.closeTarget target).1.stacked = nesting.stacked := by
  unfold closeTarget
  split
  · exact absurd (unknown (.container .classBlock)) (by decide)
  · exact absurd (unknown (.container .moduleBlock)) (by decide)
  · exact absurd (unknown .enumBlock) (by decide)
  case h_9 => exact absurd (unknown (.block .ifBlock)) (by decide)
  case h_10 => exact absurd (unknown (.block .whileBlock)) (by decide)
  case h_11 => exact absurd (unknown (.block .namespaceBlock)) (by decide)
  all_goals rfl

/-- A `Next` or `Wend` line takes a loop away if one is open. -/
theorem afterNext_stacked (nesting : Nesting) (kind : BlockKind) :
    (nesting.afterNext kind).stacked = nesting.stacked.pop (.block kind) := by
  unfold afterNext
  split
  · rfl
  · next closed =>
    have absent : kind ∉ nesting.blocks := by simpa [hasBlock] using closed
    simp [stacked, Stacks.pop, List.erase_of_not_mem absent]

end Nesting

/-- Whether a notice says that a closer of this kind had nothing to close. -/
def Notice.isUnmatched (kind : StackKind) : Notice → Bool
  | .unmatchedClose keyword => kind.closers.contains keyword
  | _ => false

namespace Draft

/-- Whether a line is accepted and opens a block of this kind. -/
def opens (draft : Draft) (text : String) (kind : StackKind) : Bool :=
  (draft.refusal text).isNone && Frame.opener? text [] == some kind.frame

/-- Whether a line is accepted and closes a block of this kind, or tries to. -/
def closes (draft : Draft) (text : String) (kind : StackKind) : Bool :=
  (draft.refusal text).isNone && kind.frame.isClosedBy text

/-- The base types of a line that is an inheritance clause and is accepted. -/
def basesOf (draft : Draft) (text : String) : List String :=
  match lineStatement text, draft.refusal text with
  | .inheritance, none =>
    (readBases (Token.commaParts (lineTokens text).tail)).toOption.getD []
  | _, _ => []

/-- How many closers of this kind were reported to have nothing to close. -/
def unmatched (draft : Draft) (kind : StackKind) : Nat :=
  draft.diagnostics.toList.countP (·.notice.isUnmatched kind)

/-- What a line does to a draft. -/
inductive Effect (draft : Draft) (text : String) (after : Draft) : Prop
  /-- It writes lines and neither opens nor closes a block. -/
  | writes (lines : List String)
      (stacked : after.nesting.stacked = draft.nesting.stacked)
      (output : after.output.toList = draft.output.toList ++ lines)
      (unmatched : ∀ kind, after.unmatched kind = draft.unmatched kind)
      (idle : ∀ kind, draft.opens text kind = false ∧ draft.closes text kind = false)
      (bases : draft.basesOf text = [])
  /-- It opens one block. A container remembers where its header is written. -/
  | opens (entry : Entry) (header : String)
      (stacked : after.nesting.stacked = draft.nesting.stacked.push entry)
      (output : after.output.toList = draft.output.toList ++ [header, "\x7b"])
      (unmatched : ∀ kind, after.unmatched kind = draft.unmatched kind)
      (opened : ∀ kind, draft.opens text kind = (kind == entry.kind) ∧
        draft.closes text kind = false)
      (bases : draft.basesOf text = [])
      (headed : ∀ container, entry = .container container →
        container.headerLine = draft.output.size ∧
        ∃ keyword, ContainerHeader.read container.kind (lineTokens text) keyword =
          .ok ⟨container.name, header⟩)
  /-- It takes the innermost block of one kind away, or reports that none is open. -/
  | closes (kind : StackKind) (line : String)
      (stacked : after.nesting.stacked = draft.nesting.stacked.pop kind)
      (output : after.output.toList = draft.output.toList ++ [line])
      (unmatched : ∀ other, after.unmatched other = draft.unmatched other +
        if other = kind ∧ draft.nesting.stacked.count kind = 0 then 1 else 0)
      (closed : ∀ other, draft.opens text other = false ∧
        draft.closes text other = (other == kind))
      (bases : draft.basesOf text = [])
  /-- It adds base types to the header of the innermost container. -/
  | adds (container : Container) (header : String) (bases : List String)
      (innermost : draft.nesting.container? = some container)
      (found : draft.output[container.headerLine]? = some header)
      (stacked : after.nesting.stacked = draft.nesting.stacked)
      (output : after.output =
        draft.output.setIfInBounds container.headerLine (bases.foldl addBase header))
      (unmatched : ∀ kind, after.unmatched kind = draft.unmatched kind)
      (idle : ∀ kind, draft.opens text kind = false ∧ draft.closes text kind = false)
      (stated : draft.basesOf text = bases)

section Unmatched

variable (draft : Draft) (kind : StackKind)

/-- Notices count if they complain of a closer of this kind. -/
theorem unmatched_reportAll (notices : List Notice) :
    (draft.reportAll notices).unmatched kind =
      draft.unmatched kind + notices.countP (·.isUnmatched kind) := by
  simp [unmatched, reportAll_eq, List.countP_map, Function.comp_def]

/-- A closer that closes nothing counts for its kind. -/
theorem unmatched_reportUnless (closed : Bool) (keyword : String) :
    (draft.reportUnless closed keyword).unmatched kind =
      draft.unmatched kind + if !closed && kind.closers.contains keyword then 1 else 0 := by
  rw [reportUnless_eq, unmatched_reportAll]
  cases closed <;> simp [Notice.isUnmatched, List.countP_cons]

/-- A declared variable brings no complaint. -/
theorem unmatched_register (declared : Variable) :
    (draft.register declared).unmatched kind = draft.unmatched kind := by
  rw [register_frame]
  rfl

/-- A declared property brings no complaint. -/
theorem unmatched_registerProperty (declared : Variable) :
    (draft.registerProperty declared).unmatched kind = draft.unmatched kind := by
  rw [registerProperty_frame]
  rfl

/-- A started function brings no complaint. -/
theorem unmatched_startFunction (record : FunctionRecord) (generics : String)
    (comment : Option String) :
    (draft.startFunction record generics comment).unmatched kind = draft.unmatched kind := by
  rw [startFunction_frame]
  rfl

end Unmatched

/-- A function is started by lines behind those written. -/
theorem startFunction_output (draft : Draft) (record : FunctionRecord) (generics : String)
    (comment : Option String) :
    ∃ lines, (draft.startFunction record generics comment).output.toList =
      draft.output.toList ++ lines := by
  simp only [startFunction]
  split
  · exact ⟨_, by simp [renest, resymbol, openBrace, emit]; rfl⟩
  · exact ⟨_, by simp [renest, resymbol, openBrace, emit]; rfl⟩

/-- What a line does that is passed through. -/
theorem passLine_effect (draft : Draft) (tokens : List Token) :
    (draft.passLine tokens).nesting.stacked = draft.nesting.stacked ∧
      (∃ lines, (draft.passLine tokens).output.toList = draft.output.toList ++ lines) ∧
      ∀ kind, (draft.passLine tokens).unmatched kind = draft.unmatched kind := by
  have words : ∀ kind (found : List Token),
      (found.map Notice.unregisteredWord).countP (·.isUnmatched kind) = 0 := by
    intro kind found
    simp [Notice.isUnmatched]
  unfold passLine
  split
  · rw [recordEnumerator_frame]
    exact ⟨rfl, ⟨_, Array.toList_push⟩, fun _ => rfl⟩
  · refine ⟨by rw [reportAll_eq]; rfl, ⟨[statementLine tokens], by simp [reportAll_eq]⟩, ?_⟩
    intro kind
    refine (unmatched_reportAll draft kind _).trans ?_
    split
    · rw [words, Nat.add_zero]
    · rfl

end Draft

/-- True of a statement that has nothing to do with the stacks of open blocks or with the
header of a container. -/
def Statement.isIdle : Statement → Bool
  | .blank | .comment | .declaration | .exitJump | .returnJump | .other => true
  | .function _ _ | .accessor _ | .property _ | .elseIfBranch | .elseBranch => true
  | _ => false

section Lines

variable {draft after : Draft} {text : String} {statement : Statement}

/-- Only an inheritance clause states base types. -/
theorem Draft.basesOf_eq_nil (other : lineStatement text ≠ .inheritance) :
    draft.basesOf text = [] := by
  unfold basesOf
  split
  · next is _ => exact absurd is other
  · rfl

/-- A line that neither opens nor closes a block does neither in any draft. -/
theorem Draft.idle_of_line (opener : Frame.opener? text [] = none)
    (closer : ∀ kind : StackKind, kind.frame.isClosedBy text = false) (kind : StackKind) :
    draft.opens text kind = false ∧ draft.closes text kind = false := by
  simp [opens, closes, opener, closer]

/-- The line of an idle statement opens and closes nothing and states no base types. -/
theorem Draft.idle_of_statement (draft : Draft) (is : lineStatement text = statement)
    (idle : statement.isIdle = true) :
    (∀ kind, draft.opens text kind = false ∧ draft.closes text kind = false) ∧
      draft.basesOf text = [] := by
  refine ⟨fun kind => ⟨?_, ?_⟩, basesOf_eq_nil ?_⟩
  · cases statement <;> cases idle <;> cases kind <;>
      simp [opens, Frame.opener?, is, StackKind.frame, accessorIsNext]
  · cases statement <;> cases idle <;> simp [closes, Frame.isClosedBy, is]
  · rintro inheritance
    rw [is] at inheritance
    subst inheritance
    cases idle

/-- A statement that is idle only writes lines. -/
theorem Draft.Effect.of_idle (is : lineStatement text = statement) (idle : statement.isIdle = true)
    (stacked : after.nesting.stacked = draft.nesting.stacked)
    (output : ∃ lines, after.output.toList = draft.output.toList ++ lines)
    (unmatched : ∀ kind, after.unmatched kind = draft.unmatched kind) :
    draft.Effect text after := by
  obtain ⟨lines, output⟩ := output
  obtain ⟨still, bases⟩ := draft.idle_of_statement is idle
  exact .writes lines stacked output unmatched still bases

/-- A header closes nothing and is no inheritance clause. -/
theorem Frame.only_opens {frame : Frame} (opener : Frame.opener? text [] = some frame) :
    (∀ other : Frame, other.isClosedBy text = false) ∧ lineStatement text ≠ .inheritance := by
  unfold Frame.opener? at opener
  unfold Frame.isClosedBy
  split at opener <;> simp_all

/-- A header that is accepted opens the block of its kind and no other. -/
theorem Draft.opened_of_line {kind : StackKind} (accepted : draft.refusal text = none)
    (opener : Frame.opener? text [] = some kind.frame) (other : StackKind) :
    draft.opens text other = (other == kind) ∧ draft.closes text other = false := by
  refine ⟨?_, by simp [closes, (Frame.only_opens opener).1]⟩
  simp only [opens, accepted, opener, Option.isNone_none, Bool.true_and]
  rw [Option.some_beq_some, StackKind.frame_beq]
  exact BEq.comm

/-- A closer that is accepted closes its kind and no other. -/
theorem Draft.Effect.of_closer (kind : StackKind) {keyword line : String}
    (accepted : draft.refusal text = none) (opener : Frame.opener? text [] = none)
    (closer : ∀ other : StackKind, other.frame.isClosedBy text = (other == kind))
    (other : lineStatement text ≠ .inheritance) (word : keyword ∈ kind.closers)
    {change : Nesting → Nesting} {closed : Bool}
    (closes : (change draft.nesting).stacked = draft.nesting.stacked.pop kind ∧
      closed = (draft.nesting.stacked.count kind != 0)) :
    draft.Effect text (((draft.renest change).reportUnless closed keyword).emit line) := by
  obtain ⟨stacked, rfl⟩ := closes
  refine .closes kind line ?_ ?_ (fun other => ?_) (fun other => ?_) (basesOf_eq_nil other)
  · rw [reportUnless_eq, reportAll_eq]
    exact stacked
  · rw [reportUnless_eq, reportAll_eq]
    exact Array.toList_push
  · refine (unmatched_reportUnless (draft.renest change) other _ keyword).trans ?_
    rw [StackKind.contains_closers word]
    refine congrArg (draft.unmatched other + ·) ?_
    by_cases same : other = kind <;> simp [same]
  · simp [Draft.opens, Draft.closes, accepted, opener, closer]

section EndLines

variable (is : lineStatement text = .endBlock)

include is

/-- An `End` line closes the blocks that its word is for. -/
theorem Frame.isClosedBy_end (frame : Frame) :
    frame.isClosedBy text = frame.endWords.contains (tokenAt (lineTokens text) 1) := by
  simp [isClosedBy, is]

/-- An `End` line that names no block kept in a stack only writes lines. -/
theorem Draft.Effect.of_otherEnd {lines : List String}
    (unknown : ∀ kind : StackKind,
      kind.frame.endWords.contains (tokenAt (lineTokens text) 1) = false)
    (stacked : after.nesting.stacked = draft.nesting.stacked)
    (output : after.output.toList = draft.output.toList ++ lines)
    (unmatched : ∀ kind, after.unmatched kind = draft.unmatched kind) :
    draft.Effect text after := by
  refine .writes lines stacked output unmatched ?_ (basesOf_eq_nil (by simp [is]))
  exact idle_of_line (by simp [Frame.opener?, is]) fun kind =>
    (kind.frame.isClosedBy_end is).trans (unknown kind)

/-- A bare `End` leaves the program and closes nothing. -/
theorem Draft.Effect.endProgram (bare : tokenAt (lineTokens text) 1 = "") :
    draft.Effect text (draft.emit "Environment.Exit(0);") := by
  refine of_otherEnd is (fun kind => ?_) rfl Array.toList_push fun _ => rfl
  rw [bare, ← Bool.not_eq_true, List.contains_iff_mem]
  exact kind.frame.endWords_form.1

/-- The end of a property closes no block that is kept in a stack. -/
theorem Draft.Effect.endProperty (target : tokenAt (lineTokens text) 1 = "Property") :
    draft.Effect text
      (draft.renest fun nesting => { nesting.leaveFunction with propertyHeader := none }) := by
  refine of_otherEnd is (fun kind => ?_) rfl (List.append_nil _).symm fun _ => rfl
  rw [target, ← Bool.not_eq_true, List.contains_iff_mem]
  intro known
  have frame := kind.frame.endWords_form.2 known
  cases kind <;> cases frame

/-- Any other `End` line closes the block that its word is for; with a word for none it
writes its brace all the same. -/
theorem Draft.Effect.endBlock {target : Token} (here : tokenAt (lineTokens text) 1 = target)
    (accepted : draft.refusal text = none) :
    draft.Effect text
      (((draft.renest fun nesting => (nesting.closeTarget target).1).reportUnless
        (draft.nesting.closeTarget target).2 ("End " ++ target)).emit "\x7d") := by
  by_cases stacked : ∃ kind : StackKind, kind.frame.endWords.contains target = true
  · obtain ⟨kind, word⟩ := stacked
    refine .of_closer kind accepted (by simp [Frame.opener?, is]) (fun other => ?_) (by simp [is])
      ?_ (draft.nesting.closeTarget_stacked word)
    · rw [other.frame.isClosedBy_end is, here, StackKind.contains_endWords word]
    · exact List.mem_append_left _
        (List.mem_map.mpr ⟨target, List.contains_iff_mem.mp word, rfl⟩)
  · have unknown : ∀ kind : StackKind, kind.frame.endWords.contains target = false := by
      simpa using stacked
    have output : (((draft.renest fun nesting => (nesting.closeTarget target).1).reportUnless
        (draft.nesting.closeTarget target).2 ("End " ++ target)).emit "\x7d").output.toList =
          draft.output.toList ++ ["\x7d"] := by
      rw [reportUnless_eq, reportAll_eq]
      exact Array.toList_push
    refine of_otherEnd is (here ▸ unknown) ?_ output fun kind => ?_
    · rw [reportUnless_eq, reportAll_eq]
      exact draft.nesting.closeTarget_other unknown
    · refine (unmatched_reportUnless _ kind _ _).trans ?_
      rw [StackKind.contains_closers_end kind (unknown kind)]
      simp [renest, Draft.unmatched]

end EndLines

/-- A line whose header, with a brace, opens a block of its kind. -/
theorem Draft.Effect.of_opener (entry : Entry) {header : String}
    (accepted : draft.refusal text = none)
    (opener : Frame.opener? text [] = some entry.kind.frame)
    (stacked : after.nesting.stacked = draft.nesting.stacked.push entry)
    (output : after.output = draft.output)
    (unmatched : ∀ kind, after.unmatched kind = draft.unmatched kind)
    (headed : ∀ container, entry = .container container →
      container.headerLine = draft.output.size ∧
      ∃ keyword, ContainerHeader.read container.kind (lineTokens text) keyword =
        .ok ⟨container.name, header⟩) :
    draft.Effect text (after.openBrace header) := by
  refine .opens entry header stacked ?_ unmatched (opened_of_line accepted opener)
    (basesOf_eq_nil (Frame.only_opens opener).2) headed
  simp [Draft.openBrace, output]

/-- The same for a block of which no header line is remembered. -/
theorem Draft.Effect.of_blockOpener (entry : Entry) {header : String} {change : Nesting → Nesting}
    (accepted : draft.refusal text = none)
    (opener : Frame.opener? text [] = some entry.kind.frame)
    (stacked : (change draft.nesting).stacked = draft.nesting.stacked.push entry)
    (block : ∀ container, entry ≠ .container container) :
    draft.Effect text ((draft.renest change).openBrace header) :=
  .of_opener entry accepted opener stacked rfl (fun _ => rfl) fun container is =>
    absurd is (block container)

/-- What a `Next` or `Wend` line does. -/
theorem Draft.Effect.nextLoop (is : lineStatement text = .nextLoop)
    (accepted : draft.refusal text = none) {keyword : Token}
    (reading : Reading.token (lineTokens text) 0 = .ok keyword) :
    draft.Effect text
      (((draft.renest (·.afterNext (closedByNext keyword))).reportUnless
        (draft.nesting.hasBlock (closedByNext keyword)) keyword).emit "\x7d") := by
  obtain rfl := Reading.token_eq reading
  have form := Statement.classify_form text (lineTokens text)
  rw [show Statement.classify text (lineTokens text) = .nextLoop from is] at form
  refine .of_closer (.block (closedByNext _)) accepted (by simp [Frame.opener?, is])
    (fun other => ?_) (by simp [is]) ?_
    ⟨draft.nesting.afterNext_stacked _, draft.nesting.hasBlock_eq _⟩
  · simp only [Frame.isClosedBy, is]
    exact StackKind.frame_beq other (.block _)
  · rcases form with next | wend
    · rw [next]
      decide
    · rw [wend]
      decide

/-- What a `Loop` line does that is accepted. -/
theorem Draft.Effect.loopEnd (is : lineStatement text = .loopEnd)
    (accepted : draft.refusal text = none) (footer : String) :
    draft.Effect text
      (((draft.renest fun nesting => { nesting with doLoops := nesting.doLoops.tail }).reportUnless
        draft.nesting.insideDoLoop "Loop").emit footer) := by
  refine .of_closer .doLoop accepted (by simp [Frame.opener?, is]) (fun other => ?_)
    (by simp [is]) (by decide) ⟨rfl, draft.nesting.insideDoLoop_eq⟩
  simp only [Frame.isClosedBy, is]
  exact StackKind.frame_beq other .doLoop

/-- What a base list does that is accepted. -/
theorem Draft.Effect.inheritance (is : lineStatement text = .inheritance)
    (accepted : draft.refusal text = none) {container : Container} {header : String}
    {bases : List String}
    (reading : readInheritance draft (lineTokens text) = .ok (container, header, bases)) :
    draft.Effect text { draft with
      output := draft.output.setIfInBounds container.headerLine (bases.foldl addBase header) } := by
  obtain ⟨innermost, found, stated⟩ := readInheritance_yields draft (lineTokens text) _ reading
  refine .adds container header bases innermost found rfl rfl (fun _ => rfl)
    (Draft.idle_of_line (by simp [Frame.opener?, is]) (by simp [Frame.isClosedBy, is])) ?_
  simp [Draft.basesOf, is, accepted, stated, Except.toOption]

/-- What every accepted line does. -/
theorem Statement.rule_effect (is : lineStatement text = statement)
    (ran : (statement.rule text (lineTokens text)).run draft = .ok () after) :
    draft.Effect text after := by
  have accepted : draft.refusal text = none := by simp [Draft.refusal, is, ran]
  cases makes_of_run ran with
  | blank | comment | exitJump | returnJump =>
    exact .of_idle is rfl rfl ⟨_, Array.toList_push⟩ fun _ => rfl
  | elseIfBranch | elseBranch =>
    exact .of_idle is rfl rfl ⟨_, by simp [Draft.openBrace]; rfl⟩ fun _ => rfl
  | @container kind keyword header reading =>
    refine .of_opener (.container ⟨header.name, kind, draft.output.size⟩) accepted
      (by simp [Frame.opener?, is, Entry.kind, StackKind.frame]) rfl rfl (fun _ => rfl) ?_
    rintro _ ⟨⟩
    exact ⟨rfl, keyword, reading⟩
  | @declaration line =>
    refine .of_idle is rfl ?_ ⟨[line.line], ?_⟩ fun kind => draft.unmatched_register kind _
    · rw [Draft.register_frame]
      rfl
    · rw [Draft.register_frame]
      exact Array.toList_push
  | @doLoop kind =>
    exact .of_blockOpener (.doLoop kind) accepted
      (by simp [Frame.opener?, is, Entry.kind, StackKind.frame]) rfl (by rintro _ ⟨⟩)
  | namespaceHeader =>
    exact .of_blockOpener (.block .namespaceBlock) accepted
      (by simp [Frame.opener?, is, Entry.kind, StackKind.frame]) rfl (by rintro _ ⟨⟩)
  | whileLoop =>
    exact .of_blockOpener (.block .whileBlock) accepted
      (by simp [Frame.opener?, is, Entry.kind, StackKind.frame]) rfl (by rintro _ ⟨⟩)
  | ifBlock reading =>
    have form := IfLine.read_form _ _ reading
    exact .of_blockOpener (.block .ifBlock) accepted
      (by simp [Frame.opener?, is, form, Entry.kind, StackKind.frame]) rfl (by rintro _ ⟨⟩)
  | ifStatement reading =>
    have form := IfLine.read_form _ _ reading
    exact .writes [_] rfl Array.toList_push (fun _ => rfl)
      (Draft.idle_of_line (by simp [Frame.opener?, is, form]) (by simp [Frame.isClosedBy, is]))
      (Draft.basesOf_eq_nil (by simp [is]))
  | @enumHeader keyword header =>
    exact .of_opener (.enumBlock header.record.name) accepted
      (by simp [Frame.opener?, is, Entry.kind, StackKind.frame]) rfl rfl (fun _ => rfl)
      (by rintro _ ⟨⟩)
  | forLoop =>
    refine .of_opener (.block .forBlock) accepted
      (by simp [Frame.opener?, is, Entry.kind, StackKind.frame]) ?_ ?_ (fun kind => ?_)
      (by rintro _ ⟨⟩)
    · rw [Draft.reportAll_eq]
      rfl
    · rw [Draft.reportAll_eq]
      rfl
    · refine (draft.unmatched_reportAll kind _).trans ?_
      split <;> simp [Notice.isUnmatched]
  | @function keyword isSub header =>
    obtain ⟨lines, output⟩ := draft.startFunction_output header.record header.generics header.clause
    refine .of_idle is rfl ?_ ⟨lines, ?_⟩ fun kind => ?_
    · rw [Draft.reportAll_eq, Draft.startFunction_frame]
      rfl
    · rw [Draft.reportAll_eq]
      exact output
    · rw [Draft.unmatched_reportAll, Draft.unmatched_startFunction]
      simp [Notice.isUnmatched]
  | accessor =>
    refine .of_idle is rfl ?_ (draft.startFunction_output _ _ _) fun kind =>
      draft.unmatched_startFunction kind _ _ _
    rw [Draft.startFunction_frame]
    rfl
  | pendingProperty => exact .of_idle is rfl rfl ⟨[], (List.append_nil _).symm⟩ fun _ => rfl
  | @property keyword line =>
    refine .of_idle is rfl ?_ ⟨[line.line], ?_⟩ fun kind =>
      draft.unmatched_registerProperty kind _
    · rw [Draft.registerProperty_frame]
      rfl
    · rw [Draft.registerProperty_frame]
      exact Array.toList_push
  | endProgram bare => exact .endProgram is bare
  | endProperty target => exact .endProperty is target
  | endBlock => exact .endBlock is rfl accepted
  | loopEnd => exact .loopEnd is accepted _
  | nextLoop reading => exact .nextLoop is accepted reading
  | inheritance reading => exact .inheritance is accepted reading
  | other =>
    obtain ⟨stacked, output, unmatched⟩ := draft.passLine_effect (lineTokens text)
    exact .of_idle is rfl stacked output unmatched

/-- A refused line neither opens nor closes a block and states no base types. -/
theorem Draft.idle_of_refusal {cause : Malformed} (refused : draft.refusal text = some cause) :
    (∀ kind, draft.opens text kind = false ∧ draft.closes text kind = false) ∧
      draft.basesOf text = [] := by
  refine ⟨by simp [opens, closes, refused], ?_⟩
  unfold basesOf
  split
  · next accepted =>
    rw [refused] at accepted
    cases accepted
  · rfl

/-- What converting a line does, whether its rule accepts it or not. -/
theorem Draft.convertLine_effect (converted : draft.convertLine text = .ok after) :
    draft.Effect text after := by
  rcases draft.convertLine_cases text with ⟨_, ran, same⟩ | ⟨cause, ran, same⟩
  · obtain rfl := Except.ok.inj (converted.symm.trans same)
    exact Statement.rule_effect rfl ran
  · obtain rfl := Except.ok.inj (converted.symm.trans same)
    have refused : draft.refusal text = some cause := by simp [refusal, ran]
    obtain ⟨idle, bases⟩ := idle_of_refusal refused
    -- The report of the refusal is no report of an unmatched closer.
    have reported : ∀ kind, (draft.report (.malformed cause)).unmatched kind =
        draft.unmatched kind := by
      intro kind
      simp [unmatched, Notice.isUnmatched]
    obtain ⟨stacked, ⟨lines, output⟩, unmatched⟩ :=
      passLine_effect (draft.report (.malformed cause)) (lineTokens text)
    exact .writes lines stacked output (fun kind => (unmatched kind).trans (reported kind)) idle
      bases

end Lines

end BasicToSharp
