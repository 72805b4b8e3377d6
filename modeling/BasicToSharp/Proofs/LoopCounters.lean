import BasicToSharp.Proofs.LocalScope
import BasicToSharp.Proofs.UnmatchedClose
import Mathlib.Data.List.Infix

/-!
# Loop counters

The counters of open loops are kept beside the stack of open blocks, and the two are not changed
together. The end of a function takes all counters away and leaves its loops open, and a block is
closed by its kind, from anywhere in the stack.

To say which counter belongs to which loop, every open block is given the name on the line that
opened it. A closer takes a name away together with its block. The counters are then always the
names of the innermost open loops, as many as there are counters: a line adds a counter with its
loop, takes one away with its loop, takes all away, or leaves loops and counters as they are
(`Draft.convertLine_counters`).
-/

namespace BasicToSharp

/-- The name on the header of a loop: its counter, or the item of a collection. -/
def loopName (tokens : List Token) : Token :=
  if Token.isKeyword (tokenAt tokens 1) "each" then tokenAt tokens 2 else tokenAt tokens 1

/-- An open block together with the name on the line that opened it. -/
structure NamedBlock where
  kind : BlockKind
  name : Token
  deriving DecidableEq, Repr

/-- The kinds of block that share one stack. -/
def BlockKind.all : List BlockKind := [.namespaceBlock, .ifBlock, .forBlock, .whileBlock]

/-- The named blocks behind a line: a block that it opens gets its name, and one that it closes
goes with its name. -/
def Stage.rename (stage : Stage) (blocks : List NamedBlock) : List NamedBlock :=
  match BlockKind.all.find? fun kind => stage.before.opens stage.text (.block kind) with
  | some kind => ⟨kind, loopName (lineTokens stage.text)⟩ :: blocks
  | none =>
    match BlockKind.all.find? fun kind => stage.before.closes stage.text (.block kind) with
    | some kind => blocks.eraseP (·.kind == kind)
    | none => blocks

/-- The open blocks with their names behind a run from an empty draft, innermost first. -/
def namedBlocks (stages : List Stage) : List NamedBlock :=
  stages.foldl (fun blocks stage => stage.rename blocks) []

/-- The names of the loops among open blocks. -/
def loopNames (blocks : List NamedBlock) : List Token :=
  (blocks.filter (·.kind == .forBlock)).map NamedBlock.name

/-- One more line renames the blocks behind the others. -/
theorem namedBlocks_concat (stages : List Stage) (stage : Stage) :
    namedBlocks (stages ++ [stage]) = stage.rename (namedBlocks stages) := by
  rw [namedBlocks, List.foldl_append, List.foldl_cons, List.foldl_nil, namedBlocks]

/-! ## Blocks and their names -/

section Blocks

variable {test : StackKind → Bool} {blocks : List NamedBlock} {stage : Stage}

/-- If no kind passes a test, no block does. -/
theorem BlockKind.find?_all_none (none : ∀ other, test other = false) :
    BlockKind.all.find? (fun kind => test (.block kind)) = Option.none := by
  simp [BlockKind.all, none]

/-- If one block alone passes a test, it is found. -/
theorem BlockKind.find?_all_block {kind : BlockKind}
    (only : ∀ other, test other = (other == .block kind)) :
    BlockKind.all.find? (fun kind => test (.block kind)) = some kind := by
  cases kind <;> simp [BlockKind.all, only]

/-- If only something else passes a test, no block does. -/
theorem BlockKind.find?_all_other {kind : StackKind} (only : ∀ other, test other = (other == kind))
    (apart : ∀ block, kind ≠ .block block) :
    BlockKind.all.find? (fun kind => test (.block kind)) = Option.none := by
  have none : ∀ block : BlockKind, test (.block block) = false := by
    intro block
    rw [only, beq_eq_false_iff_ne]
    exact (apart block).symm
  simp [BlockKind.all, none]

/-- What one line does to the open blocks and to their names. -/
inductive Stage.Renames (stage : Stage) (blocks : List NamedBlock) : Prop
  | keeps (stays : stage.after.nesting.blocks = stage.before.nesting.blocks)
      (names : stage.rename blocks = blocks)
      (opens : stage.before.opens stage.text (.block .forBlock) = false)
      (closes : stage.before.closes stage.text (.block .forBlock) = false)
  | opens (kind : BlockKind)
      (opened : stage.after.nesting.blocks = kind :: stage.before.nesting.blocks)
      (names : stage.rename blocks = ⟨kind, loopName (lineTokens stage.text)⟩ :: blocks)
      (opens : stage.before.opens stage.text (.block .forBlock) = (kind == .forBlock))
      (closes : stage.before.closes stage.text (.block .forBlock) = false)
  | closes (kind : BlockKind)
      (closed : stage.after.nesting.blocks = stage.before.nesting.blocks.erase kind)
      (names : stage.rename blocks = blocks.eraseP (·.kind == kind))
      (opens : stage.before.opens stage.text (.block .forBlock) = false)
      (closes : stage.before.closes stage.text (.block .forBlock) = (kind == .forBlock))

/-- A line opens or closes at most one block, and its name goes with it. -/
theorem Draft.Effect.renames (effect : stage.before.Effect stage.text stage.after)
    (blocks : List NamedBlock) : stage.Renames blocks := by
  have still : (∀ kind, stage.before.opens stage.text kind = false) →
      (∀ kind, stage.before.closes stage.text kind = false) → stage.rename blocks = blocks := by
    intro opens closes
    simp only [Stage.rename, BlockKind.find?_all_none opens, BlockKind.find?_all_none closes]
  cases effect with
  | writes lines stacked output unmatched idle bases =>
    exact .keeps (congrArg Stacks.blocks stacked)
      (still (fun kind => (idle kind).1) fun kind => (idle kind).2) (idle _).1 (idle _).2
  | adds container header bases innermost found stacked output unmatched idle stated =>
    exact .keeps (congrArg Stacks.blocks stacked)
      (still (fun kind => (idle kind).1) fun kind => (idle kind).2) (idle _).1 (idle _).2
  | opens entry header stacked output unmatched opened bases headed =>
    have only := fun kind => (opened kind).1
    have none := fun kind => (opened kind).2
    have below := congrArg Stacks.blocks stacked
    cases entry with
    | block kind =>
      refine .opens kind below ?_ ((opened _).1.trans ?_) (none _)
      · simp only [Stage.rename, BlockKind.find?_all_block only]
      · cases kind <;> rfl
    | _ =>
      refine .keeps below ?_ (only _) (none _)
      simp only [Stage.rename, BlockKind.find?_all_other only (by rintro _ ⟨⟩),
        BlockKind.find?_all_none none]
  | closes kind line stacked output unmatched closed bases =>
    have none := fun kind => (closed kind).1
    have only := fun kind => (closed kind).2
    have below := congrArg Stacks.blocks stacked
    cases kind with
    | block kind =>
      refine .closes kind below ?_ (none _) ((closed _).2.trans ?_)
      · simp only [Stage.rename, BlockKind.find?_all_none none, BlockKind.find?_all_block only]
      · cases kind <;> rfl
    | _ =>
      refine .keeps below ?_ (none _) (only _)
      simp only [Stage.rename, BlockKind.find?_all_none none,
        BlockKind.find?_all_other only (by rintro _ ⟨⟩)]

/-- A block is taken away together with its name. -/
theorem map_kind_eraseP (kind : BlockKind) (blocks : List NamedBlock) :
    (blocks.eraseP (·.kind == kind)).map NamedBlock.kind =
      (blocks.map NamedBlock.kind).erase kind := by
  induction blocks with
  | nil => rfl
  | cons block rest inductionHypothesis =>
    by_cases same : block.kind = kind <;> simp [same, inductionHypothesis]

/-- The named blocks are the open blocks. -/
theorem Stage.Renames.kinds (renames : stage.Renames blocks)
    (named : blocks.map NamedBlock.kind = stage.before.nesting.blocks) :
    (stage.rename blocks).map NamedBlock.kind = stage.after.nesting.blocks := by
  cases renames with
  | keeps stays names opens closes => rw [names, stays, named]
  | opens kind opened names opens closes => rw [names, opened, ← named, List.map_cons]
  | closes kind closed names opens closes => rw [names, closed, ← named, map_kind_eraseP]

/-- The names of loops are changed by the lines that open and close loops only. -/
theorem Stage.Renames.loopNames (renames : stage.Renames blocks) :
    loopNames (stage.rename blocks) =
      if stage.before.opens stage.text (.block .forBlock) then
        loopName (lineTokens stage.text) :: loopNames blocks
      else if stage.before.closes stage.text (.block .forBlock) then (loopNames blocks).tail
      else loopNames blocks := by
  cases renames with
  | keeps stays names opens closes => simp [names, opens, closes]
  | opens kind opened names opens closes =>
    by_cases isLoop : kind = .forBlock <;>
      simp [names, opens, closes, isLoop, BasicToSharp.loopNames]
  | closes kind closed names opens closes =>
    rw [names, opens, closes, if_neg Bool.false_ne_true, BasicToSharp.loopNames]
    by_cases isLoop : kind = .forBlock
    · rw [isLoop, Stacks.filter_eraseP_self, List.map_tail]
      rfl
    · have apart : ∀ block : NamedBlock, (block.kind == kind) = true →
          (block.kind == .forBlock) = false := by
        intro block same
        rw [beq_iff_eq.mp same, beq_eq_false_iff_ne]
        exact isLoop
      rw [Stacks.filter_eraseP _ apart, beq_eq_false_iff_ne.mpr isLoop]
      rfl

end Blocks

/-! ## Counters -/

/-- The counters behind an accepted line: the header of a loop adds one, the closer of a loop
takes one away if a loop is open, and the end of a function takes all away. -/
def Nesting.countersBehind (nesting : Nesting) (statement : Statement) (tokens : List Token) :
    List String :=
  match statement with
  | .forLoop => loopName tokens :: nesting.counters
  | .nextLoop => (nesting.afterNext (closedByNext (tokenAt tokens 0))).counters
  | .endBlock => if leavesFunction (tokenAt tokens 1) then [] else nesting.counters
  | _ => nesting.counters

/-- The counter of a loop is the name on its header. -/
theorem LoopHeader.read_counter (nesting : Nesting) (tokens : List Token) :
    Reading.Yields (fun header => header.counter = loopName tokens)
      (LoopHeader.read nesting tokens) := by
  intro header read
  have made := read_yields nesting tokens header read
  unfold loopName
  split at made
  · next each =>
    obtain ⟨content, rfl⟩ := made
    rw [if_pos each]
  · next plain =>
    obtain ⟨declared, known, range, rfl⟩ := made
    rw [if_neg plain]
    rfl

/-- The end of a function takes all counters away, and no other `End` line takes any. -/
theorem Nesting.closeTarget_counters (nesting : Nesting) {target : Token}
    (other : target ≠ "Property") :
    (nesting.closeTarget target).1.counters =
      if leavesFunction target then [] else nesting.counters := by
  by_cases leaves : leavesFunction target = true
  · have word : target ∈ functionEnds ∨ target = "Operator" := by
      simpa [leavesFunction, other] using leaves
    rw [if_pos leaves]
    rcases word with ends | rfl
    · rw [nesting.closeTarget_functionEnd (List.contains_iff_mem.mpr ends)]
      rfl
    · rfl
  · rw [if_neg leaves]
    fun_cases closeTarget nesting target <;> first | rfl | exact absurd (by decide) leaves

/-- The end of a counted loop takes one counter away, if such a loop is open. -/
theorem Nesting.afterNext_counters (nesting : Nesting) (kind : BlockKind) :
    (nesting.afterNext kind).counters =
      if kind = .forBlock ∧ nesting.hasBlock .forBlock = true then nesting.counters.tail
      else nesting.counters := by
  unfold afterNext
  by_cases isLoop : kind = .forBlock
  · subst isLoop
    by_cases isOpen : nesting.hasBlock .forBlock = true <;> simp [isOpen]
  · by_cases isOpen : nesting.hasBlock kind = true <;> simp [isOpen, isLoop]

/-- What a rule does to the counters when it accepts its line. -/
theorem Statement.rule_counters (statement : Statement) {text : String} {tokens : List Token}
    {draft after : Draft} (ran : (statement.rule text tokens).run draft = .ok () after) :
    after.nesting.counters = draft.nesting.countersBehind statement tokens := by
  cases makes_of_run ran with
  | declaration =>
    rw [Draft.register_frame]
    rfl
  | endProgram bare =>
    rw [Nesting.countersBehind, bare]
    rfl
  | endProperty target =>
    rw [Nesting.countersBehind, target]
    rfl
  | endBlock named other =>
    rw [Draft.reportUnless_eq, Draft.reportAll_eq]
    exact draft.nesting.closeTarget_counters other
  | forLoop reading =>
    rw [Draft.reportAll_eq]
    exact congrArg (· :: draft.nesting.counters)
      (LoopHeader.read_counter draft.nesting tokens _ reading)
  | function =>
    rw [Draft.reportAll_eq, Draft.startFunction_frame]
    rfl
  | accessor =>
    rw [Draft.startFunction_frame]
    rfl
  | loopEnd =>
    rw [Draft.reportUnless_eq, Draft.reportAll_eq]
    rfl
  | nextLoop reading =>
    rw [Draft.reportUnless_eq, Draft.reportAll_eq, Nesting.countersBehind,
      Reading.token_eq reading]
    rfl
  | property =>
    rw [Draft.registerProperty_frame]
    rfl
  | other => exact congrArg Nesting.counters (draft.passLine_nesting tokens)
  | _ => rfl

namespace Draft

variable {draft after : Draft} {text : String}

/-- A line opens a counted loop exactly if it is an accepted `For` line. -/
theorem opens_loop (draft : Draft) (text : String) :
    draft.opens text (.block .forBlock) =
      ((draft.refusal text).isNone && lineStatement text == .forLoop) := by
  unfold opens Frame.opener?
  refine congrArg ((draft.refusal text).isNone && ·) ?_
  cases lineStatement text with
  | ifBranch => cases hasBranches (lineTokens text) <;> rfl
  | _ => rfl

/-- A line closes a counted loop exactly if it is an accepted `Next` line. -/
theorem closes_loop (draft : Draft) (text : String) :
    draft.closes text (.block .forBlock) = ((draft.refusal text).isNone &&
      (lineStatement text == .nextLoop &&
        closedByNext (tokenAt (lineTokens text) 0) == .forBlock)) := by
  unfold closes Frame.isClosedBy
  refine congrArg ((draft.refusal text).isNone && ·) ?_
  generalize closedByNext (tokenAt (lineTokens text) 0) = kind
  cases lineStatement text with
  | nextLoop => cases kind <;> rfl
  | _ => rfl

/-- What a line does to the counters of open loops. -/
inductive CounterChange (draft : Draft) (text : String) (after : List String) : Prop
  | keeps (same : after = draft.nesting.counters)
      (opens : draft.opens text (.block .forBlock) = false)
      (unmatched : draft.closes text (.block .forBlock) = true →
        draft.nesting.hasBlock .forBlock = false)
  | clears (none : after = [])
      (opens : draft.opens text (.block .forBlock) = false)
      (closes : draft.closes text (.block .forBlock) = false)
  | adds (added : after = loopName (lineTokens text) :: draft.nesting.counters)
      (opens : draft.opens text (.block .forBlock) = true)
  | removes (removed : after = draft.nesting.counters.tail)
      (opens : draft.opens text (.block .forBlock) = false)
      (closes : draft.closes text (.block .forBlock) = true)
      (isOpen : draft.nesting.hasBlock .forBlock = true)

/-- What converting a line does to the counters, whether its rule accepts it or not. -/
theorem convertLine_counters (converted : draft.convertLine text = .ok after) :
    draft.CounterChange text after.nesting.counters := by
  have opens := draft.opens_loop text
  have closes := draft.closes_loop text
  rcases draft.convertLine_cases text with ⟨accepted, ran, same⟩ | ⟨cause, ran, same⟩
  · obtain rfl := Except.ok.inj (converted.symm.trans same)
    have accepts : draft.refusal text = none := by simp [refusal, ran]
    rw [Statement.rule_counters _ ran]
    rw [accepts] at opens closes
    cases is : lineStatement text with
    | forLoop =>
      rw [is] at opens
      exact .adds rfl opens
    | nextLoop =>
      rw [is] at opens closes
      simp only [Nesting.countersBehind, Nesting.afterNext_counters]
      generalize closedByNext (tokenAt (lineTokens text) 0) = kind at closes ⊢
      by_cases closed : kind = .forBlock ∧ draft.nesting.hasBlock .forBlock = true
      · rw [if_pos closed]
        exact .removes rfl opens (closes.trans (by rw [closed.1]; rfl)) closed.2
      · rw [if_neg closed]
        refine .keeps rfl opens fun closing => ?_
        refine Bool.eq_false_iff.mpr fun isOpen => closed ⟨?_, isOpen⟩
        rw [closes] at closing
        exact beq_iff_eq.mp closing
    | endBlock =>
      rw [is] at opens closes
      simp only [Nesting.countersBehind]
      by_cases leaves : leavesFunction (tokenAt (lineTokens text) 1) = true
      · rw [if_pos leaves]
        exact .clears rfl opens closes
      · rw [if_neg leaves]
        exact .keeps rfl opens (by simp [closes])
    | _ =>
      rw [is] at opens closes
      exact .keeps rfl opens (by simp [closes])
  · obtain rfl := Except.ok.inj (converted.symm.trans same)
    have refused : draft.refusal text = some cause := by simp [refusal, ran]
    rw [refused] at opens closes
    have nesting := (draft.report (.malformed cause)).passLine_nesting (lineTokens text)
    exact .keeps (congrArg Nesting.counters nesting) opens (by simp [closes])

end Draft

/-! ## Along a run -/

/-- A loop has a name exactly when one is open. -/
theorem loopNames_eq_nil_iff {nesting : Nesting} {blocks : List NamedBlock}
    (named : blocks.map NamedBlock.kind = nesting.blocks) :
    loopNames blocks = [] ↔ nesting.hasBlock .forBlock = false := by
  simp [loopNames, Nesting.hasBlock, ← named, List.filter_eq_nil_iff]

/-- One line keeps the counters to the names of the innermost loops. -/
theorem Draft.CounterChange.follows {stage : Stage} {blocks : List NamedBlock}
    (change : stage.before.CounterChange stage.text stage.after.nesting.counters)
    (renames : stage.Renames blocks)
    (named : blocks.map NamedBlock.kind = stage.before.nesting.blocks)
    (follows : stage.before.nesting.counters <+: loopNames blocks) :
    stage.after.nesting.counters <+: loopNames (stage.rename blocks) := by
  rw [renames.loopNames]
  cases change with
  | keeps same opens unmatched =>
    rw [same, opens, if_neg Bool.false_ne_true]
    split
    · next closes =>
      rw [(loopNames_eq_nil_iff named).mpr (unmatched closes)] at follows ⊢
      exact follows
    · exact follows
  | clears none opens closes =>
    rw [none]
    exact List.nil_prefix
  | adds added opens =>
    rw [added, if_pos opens]
    exact (List.prefix_cons_inj _).mpr follows
  | removes removed opens closes isOpen =>
    rw [removed, opens, if_neg Bool.false_ne_true, if_pos closes]
    simpa only [List.drop_one] using List.IsPrefix.drop follows 1

namespace Draft.Runs

variable {options : Options} {input : List SourceLine} {stages : List Stage} {start draft : Draft}

/-- The named blocks are the open blocks, all along a run. -/
theorem namedBlocks (run : (Draft.start options input).Runs stages draft) :
    (namedBlocks stages).map NamedBlock.kind = draft.nesting.blocks := by
  induction run with
  | start => rfl
  | line earlier cursor line converted inductionHypothesis =>
    rw [namedBlocks_concat]
    exact ((convertLine_effect converted).renames _).kinds inductionHypothesis

/-- The counters are the names of the innermost loops, all along a run. -/
theorem counters_follow (run : (Draft.start options input).Runs stages draft) :
    draft.nesting.counters <+: loopNames (BasicToSharp.namedBlocks stages) := by
  induction run with
  | start => exact List.prefix_rfl
  | @line stages draft after earlier cursor line converted inductionHypothesis =>
    rw [namedBlocks_concat]
    let stage : Stage := ⟨draft.moveTo cursor line, line.text, after⟩
    have renames : stage.Renames (BasicToSharp.namedBlocks stages) :=
      (convertLine_effect converted).renames _
    have change : stage.before.CounterChange stage.text stage.after.nesting.counters :=
      convertLine_counters converted
    exact change.follows renames earlier.namedBlocks inductionHypothesis

/-- Every line of a run does one of the things that `CounterChange` says. -/
theorem counterChange (run : start.Runs stages draft) :
    ∀ stage ∈ stages, stage.before.CounterChange stage.text stage.after.nesting.counters :=
  fun stage member => convertLine_counters (run.converts stage member)

end Draft.Runs

/-- A line that closes a loop takes its counter away or finds no counter at all. -/
theorem Stage.closes_own_counter {stage : Stage} {blocks : List NamedBlock}
    (change : stage.before.CounterChange stage.text stage.after.nesting.counters)
    (renames : stage.Renames blocks)
    (named : blocks.map NamedBlock.kind = stage.before.nesting.blocks)
    (follows : stage.before.nesting.counters <+: loopNames blocks)
    (closes : stage.before.closes stage.text (.block .forBlock) = true)
    (isOpen : stage.before.nesting.hasBlock .forBlock = true) :
    ∃ name, loopNames blocks = name :: loopNames (stage.rename blocks) ∧
      (stage.before.nesting.counters = name :: stage.after.nesting.counters ∨
        stage.before.nesting.counters = [] ∧ stage.after.nesting.counters = []) := by
  have idle : stage.before.opens stage.text (.block .forBlock) = false := by
    cases renames with
    | keeps stays names opens closes => exact opens
    | opens kind opened names opens none =>
      rw [none] at closes
      cases closes
    | closes kind closed names opens closes => exact opens
  have removed : stage.after.nesting.counters = stage.before.nesting.counters.tail := by
    cases change with
    | keeps same opens unmatched =>
      rw [unmatched closes] at isOpen
      cases isOpen
    | clears none opens idle =>
      rw [idle] at closes
      cases closes
    | adds added opens =>
      rw [idle] at opens
      cases opens
    | removes removed opens closes isOpen => exact removed
  have inner : loopNames (stage.rename blocks) = (loopNames blocks).tail := by
    rw [renames.loopNames, idle, if_neg Bool.false_ne_true, if_pos closes]
  rw [removed, inner]
  cases names : loopNames blocks with
  | nil =>
    rw [(loopNames_eq_nil_iff named).mp names] at isOpen
    cases isOpen
  | cons name others =>
    refine ⟨name, rfl, ?_⟩
    rw [names] at follows
    cases counters : stage.before.nesting.counters with
    | nil => exact .inr ⟨rfl, rfl⟩
    | cons counter outer =>
      rw [counters] at follows
      obtain rfl := (List.cons_prefix_cons.mp follows).1
      exact .inl rfl

/-- Along every run from an empty draft, give each open block the name on the line that opened
it. The counters are then the names of the innermost open loops, as many as there are counters.
So a line that closes a loop takes the counter of this loop away, which is the innermost one, or
it finds no counter and takes none away. -/
theorem counters_follow_their_loops {options : Options} {input : List SourceLine}
    {stages : List Stage} {draft : Draft}
    (run : (Draft.start options input).Runs stages draft) :
    (namedBlocks stages).map NamedBlock.kind = draft.nesting.blocks ∧
      draft.nesting.counters <+: loopNames (namedBlocks stages) ∧
      ∀ first stage second, stages = first ++ stage :: second →
        stage.before.closes stage.text (.block .forBlock) = true →
        stage.before.nesting.hasBlock .forBlock = true →
        ∃ name, loopNames (namedBlocks first) =
            name :: loopNames (namedBlocks (first ++ [stage])) ∧
          (stage.before.nesting.counters = name :: stage.after.nesting.counters ∨
            stage.before.nesting.counters = [] ∧ stage.after.nesting.counters = []) := by
  refine ⟨run.namedBlocks, run.counters_follow, ?_⟩
  rintro first stage second rfl closes isOpen
  have member : stage ∈ first ++ stage :: second := by simp
  obtain ⟨reached, cursor, line, earlier, arrived, -⟩ := run.around
  have named : (namedBlocks first).map NamedBlock.kind = stage.before.nesting.blocks := by
    rw [arrived]
    exact earlier.namedBlocks
  have follows : stage.before.nesting.counters <+: loopNames (namedBlocks first) := by
    rw [arrived]
    exact earlier.counters_follow
  rw [namedBlocks_concat]
  exact Stage.closes_own_counter (run.counterChange stage member)
    ((run.effect stage member).renames _) named follows closes isOpen

/-- A loop is left open by its function, and another one is closed from below a branch. Two loops
are open at the end, and the counter of the outer one is gone. -/
theorem counters_follow_their_loops_misnested :
    let start := Draft.start {} []
    let lines := ["Sub A()", "For i = 1 To 2", "End Sub", "Sub B()", "For Each x In xs",
      "If c Then", "Next", "For k = 1 To 3"].map (SourceLine.mk 1)
    ∃ draft, start.Runs (start.trace 0 lines) draft ∧
      draft.nesting.blocks = [.forBlock, .ifBlock, .forBlock] ∧
      loopNames (namedBlocks (start.trace 0 lines)) = ["k", "i"] ∧
      draft.nesting.counters = ["k"] ∧ draft.nesting.counters <+: ["k", "i"] := by
  intro start lines
  obtain ⟨draft, converted⟩ := start.convertFrom_ok 0 lines
  have computed : (start.convertFrom 0 lines).toOption.map
      (fun draft => (draft.nesting.blocks, draft.nesting.counters)) =
      some ([.forBlock, .ifBlock, .forBlock], ["k"]) := by decide +kernel
  obtain ⟨blocks, counters⟩ : draft.nesting.blocks = [.forBlock, .ifBlock, .forBlock] ∧
      draft.nesting.counters = ["k"] := by simpa [converted, Except.toOption] using computed
  have names : loopNames (namedBlocks (start.trace 0 lines)) = ["k", "i"] := by decide +kernel
  have run := Draft.runs_trace converted
  have law := (counters_follow_their_loops run).2.1
  rw [names] at law
  exact ⟨draft, run, blocks, names, counters, law⟩

end BasicToSharp
