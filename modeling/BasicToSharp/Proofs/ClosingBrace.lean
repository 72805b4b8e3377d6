import BasicToSharp.Proofs.LineEffect
import BasicToSharp.Proofs.LocalScope

/-!
# Closing braces

`End`, `Next`, `Wend` and `Loop` lines write a closing brace. The keyword decides which of the
open blocks is closed: a container, an enum, a loop, another block or the current function.
Either that block is taken away from the open ones or the closer is reported, and never both.

One case is left out of this. Behind `End` any word is accepted, and a word that names no
block of its own, such as `Select`, writes its brace without a trace: nothing is taken away
and nothing is reported.
-/

namespace BasicToSharp

/-- One thing that is open: a block that is kept in a stack, or the current function. -/
inductive OpenEntry
  | stacked (entry : Entry)
  | function (record : FunctionRecord)
  deriving DecidableEq, Repr

/-- The blocks of all stacks, stack by stack and innermost first in each. -/
def Stacks.entries (stacked : Stacks) : List Entry :=
  stacked.containers.map .container ++ stacked.enums.map .enumBlock ++
    stacked.doLoops.map .doLoop ++ stacked.blocks.map .block

/-- All that is open. -/
def Nesting.entries (nesting : Nesting) : List OpenEntry :=
  nesting.stacked.entries.map .stacked ++ nesting.function.toList.map .function

/-- Exactly one value is taken away, and the others keep their order. -/
def LosesOne {α : Type} (before after : List α) : Prop :=
  ∃ front value back, before = front ++ value :: back ∧ after = front ++ back

namespace LosesOne

variable {α β : Type} {before after : List α}

/-- One is lost of a whole if one is lost of its first part. -/
theorem append_right (loses : LosesOne before after) (more : List α) :
    LosesOne (before ++ more) (after ++ more) := by
  obtain ⟨front, value, back, rfl, rfl⟩ := loses
  exact ⟨front, value, back ++ more, by simp, by simp⟩

/-- One is lost of a whole if one is lost of its last part. -/
theorem append_left (loses : LosesOne before after) (more : List α) :
    LosesOne (more ++ before) (more ++ after) := by
  obtain ⟨front, value, back, rfl, rfl⟩ := loses
  exact ⟨more ++ front, value, back, by simp, by simp⟩

/-- What is lost of values is lost of their images. -/
theorem map (loses : LosesOne before after) (change : α → β) :
    LosesOne (before.map change) (after.map change) := by
  obtain ⟨front, value, back, rfl, rfl⟩ := loses
  exact ⟨front.map change, change value, back.map change, by simp, by simp⟩

/-- The tail has lost the head. -/
theorem tail (nonempty : before ≠ []) : LosesOne before before.tail := by
  obtain ⟨value, back, rfl⟩ := List.exists_cons_of_ne_nil nonempty
  exact ⟨[], value, back, rfl, rfl⟩

/-- Taking the first candidate away loses one, if there is a candidate. -/
theorem eraseP {removed : α → Bool} (found : before.countP removed ≠ 0) :
    LosesOne before (before.eraseP removed) := by
  obtain ⟨value, member, isRemoved⟩ := List.countP_pos_iff.mp (Nat.pos_of_ne_zero found)
  obtain ⟨first, front, back, -, -, whole, erased⟩ := List.exists_of_eraseP member isRemoved
  exact ⟨front, first, back, whole, erased⟩

/-- What has lost one is not the same. -/
theorem ne (loses : LosesOne before after) : before ≠ after := by
  obtain ⟨front, value, back, rfl, rfl⟩ := loses
  simp

end LosesOne

namespace Stacks

/-- Closing a kind of which a block is open takes exactly one block away. -/
theorem losesOne_pop {stacked : Stacks} {kind : StackKind} (opened : stacked.count kind ≠ 0) :
    LosesOne stacked.entries (stacked.pop kind).entries := by
  cases kind with
  | container kind =>
    have loses : LosesOne stacked.containers (stacked.containers.eraseP (·.kind == kind)) :=
      .eraseP opened
    exact (((loses.map _).append_right _).append_right _).append_right _
  | enumBlock =>
    have loses : LosesOne stacked.enums stacked.enums.tail :=
      .tail (List.ne_nil_of_length_pos (Nat.pos_of_ne_zero opened))
    exact (((loses.map _).append_left _).append_right _).append_right _
  | doLoop =>
    have loses : LosesOne stacked.doLoops stacked.doLoops.tail :=
      .tail (List.ne_nil_of_length_pos (Nat.pos_of_ne_zero opened))
    exact ((loses.map _).append_left _).append_right _
  | block kind =>
    have loses : LosesOne stacked.blocks (stacked.blocks.eraseP (kind == ·)) := by
      refine .eraseP ?_
      rwa [List.countP_congr fun other _ => by rw [BEq.comm]]
    rw [← List.erase_eq_eraseP] at loses
    exact (loses.map _).append_left _

/-- Closing a kind of which no block is open changes nothing. -/
theorem pop_of_count_eq_zero {stacked : Stacks} {kind : StackKind}
    (none : stacked.count kind = 0) : stacked.pop kind = stacked := by
  cases kind with
  | container kind =>
    have absent := List.countP_eq_zero.mp none
    simp only [pop, List.eraseP_of_forall_not absent]
  | enumBlock =>
    have empty : stacked.enums.tail = stacked.enums := by
      rw [List.eq_nil_of_length_eq_zero none, List.tail_nil]
    rw [pop, empty]
  | doLoop =>
    have empty : stacked.doLoops.tail = stacked.doLoops := by
      rw [List.eq_nil_of_length_eq_zero none, List.tail_nil]
    rw [pop, empty]
  | block kind => simp only [pop, List.erase_of_not_mem (List.count_eq_zero.mp none)]

end Stacks

/-- What a closer owes: it takes exactly one open thing away and is not reported, or it takes
nothing away and is reported once, by its name. -/
def Draft.ClosesOrReports (draft after : Draft) (keyword : String) : Prop :=
  (LosesOne draft.nesting.entries after.nesting.entries ∧
    after.diagnostics = draft.diagnostics) ∨
  (after.nesting.entries = draft.nesting.entries ∧
    after.diagnostics = draft.diagnostics.push ⟨draft.line, .unmatchedClose keyword⟩)

namespace Draft

variable {draft : Draft} {change : Nesting → Nesting} {keyword line : String}

/-- A closer of one kind of stacked block pays what it owes. -/
theorem closesOrReports_of_pop {kind : StackKind}
    (popped : (change draft.nesting).stacked = draft.nesting.stacked.pop kind)
    (function : (change draft.nesting).function = draft.nesting.function) :
    draft.ClosesOrReports
      (((draft.renest change).reportUnless (draft.nesting.stacked.count kind != 0) keyword).emit
        line) keyword := by
  have after : (change draft.nesting).entries =
      (draft.nesting.stacked.pop kind).entries.map .stacked ++
        draft.nesting.function.toList.map .function := by
    rw [Nesting.entries, popped, function]
  by_cases opened : draft.nesting.stacked.count kind = 0
  · rw [Stacks.pop_of_count_eq_zero opened] at after
    simp only [opened, bne_self_eq_false, reportUnless, Bool.false_eq_true, if_false]
    exact .inr ⟨after, rfl⟩
  · have isOpen : (draft.nesting.stacked.count kind != 0) = true := by simpa using opened
    simp only [isOpen, reportUnless, if_true]
    refine .inl ⟨?_, rfl⟩
    change LosesOne draft.nesting.entries (change draft.nesting).entries
    rw [after]
    exact ((Stacks.losesOne_pop opened).map _).append_right _

/-- A closer of the current function pays what it owes. -/
theorem closesOrReports_of_leave :
    draft.ClosesOrReports
      (((draft.renest Nesting.leaveFunction).reportUnless draft.nesting.insideFunction
        keyword).emit line) keyword := by
  have after : draft.nesting.leaveFunction.entries =
      draft.nesting.stacked.entries.map .stacked := by
    simp [Nesting.entries, Nesting.leaveFunction, Nesting.stacked]
  cases current : draft.nesting.function with
  | none =>
    simp only [Nesting.insideFunction, current, Option.isSome_none, reportUnless,
      Bool.false_eq_true, if_false]
    refine .inr ⟨after.trans ?_, rfl⟩
    simp [Nesting.entries, current]
  | some record =>
    simp only [Nesting.insideFunction, current, Option.isSome_some, reportUnless, if_true]
    refine .inl ⟨?_, rfl⟩
    change LosesOne draft.nesting.entries draft.nesting.leaveFunction.entries
    rw [after, Nesting.entries, current]
    exact ⟨_, .function record, [], rfl, (List.append_nil _).symm⟩

end Draft

/-! ## The words behind `End` -/

/-- The words behind `End` that name a block of their own and close it with a brace. -/
def blockTargets : List Token :=
  ["Class", "Module", "Enum", "If", "While", "Namespace", "Function", "Sub", "Get", "Set",
    "Operator"]

/-- A word that names no block leaves everything open, and counts as closed. -/
theorem Nesting.closeTarget_unknown (nesting : Nesting) {target : Token}
    (unknown : target ∉ blockTargets) : nesting.closeTarget target = (nesting, true) := by
  unfold closeTarget
  split
  case h_12 => rfl
  all_goals exact absurd (by decide) unknown

namespace Draft

/-- An `End` line as it is written when its word is neither missing nor `Property`. -/
def closeEnd (draft : Draft) (target : Token) : Draft :=
  ((draft.renest fun nesting => (nesting.closeTarget target).1).reportUnless
    (draft.nesting.closeTarget target).2 ("End " ++ target)).emit "\x7d"

/-- An `End` line with the word of a stacked block closes one or is reported. -/
theorem closesOrReports_closeEnd_stacked (draft : Draft) (kind : StackKind) {target : Token}
    (word : kind.frame.endWords.contains target = true) (stays : leavesFunction target = false) :
    draft.ClosesOrReports (draft.closeEnd target) ("End " ++ target) := by
  obtain ⟨popped, closed⟩ := draft.nesting.closeTarget_stacked word
  rw [closeEnd, closed]
  exact closesOrReports_of_pop popped (draft.nesting.closeTarget_function stays)

/-- An `End` line with a word for a block pays what it owes. -/
theorem closesOrReports_closeEnd (draft : Draft) {target : Token} (known : target ∈ blockTargets) :
    draft.ClosesOrReports (draft.closeEnd target) ("End " ++ target) := by
  have stacked := @draft.closesOrReports_closeEnd_stacked
  simp only [blockTargets, List.mem_cons, List.not_mem_nil, or_false] at known
  rcases known with rfl | rfl | rfl | rfl | rfl | rfl | function
  · exact stacked (.container .classBlock) rfl rfl
  · exact stacked (.container .moduleBlock) rfl rfl
  · exact stacked .enumBlock rfl rfl
  · exact stacked (.block .ifBlock) rfl rfl
  · exact stacked (.block .whileBlock) rfl rfl
  · exact stacked (.block .namespaceBlock) rfl rfl
  · rcases function with rfl | rfl | rfl | rfl | rfl <;> exact closesOrReports_of_leave

/-- An `End` line with any other word writes its brace and does nothing else. -/
theorem closeEnd_unknown (draft : Draft) {target : Token} (unknown : target ∉ blockTargets) :
    draft.closeEnd target = draft.emit "\x7d" := by
  simp [closeEnd, draft.nesting.closeTarget_unknown unknown, reportUnless, renest]

/-- A line that writes a brace and does nothing else owes something. -/
theorem not_closesOrReports_emit (draft : Draft) (line keyword : String) :
    ¬ draft.ClosesOrReports (draft.emit line) keyword := by
  rintro (⟨loses, -⟩ | ⟨-, reported⟩)
  · exact loses.ne rfl
  · have more := congrArg Array.size reported
    simp [emit] at more

/-- A `Next` or `Wend` line closes a loop or is reported. -/
theorem closesOrReports_nextLoop (draft : Draft) (keyword : Token) (line : String) :
    draft.ClosesOrReports
      (((draft.renest (·.afterNext (closedByNext keyword))).reportUnless
        (draft.nesting.hasBlock (closedByNext keyword)) keyword).emit line) keyword := by
  rw [Nesting.hasBlock_eq]
  exact closesOrReports_of_pop (draft.nesting.afterNext_stacked _)
    (by rw [Nesting.afterNext_frame])

/-- A `Loop` line closes a loop or is reported. -/
theorem closesOrReports_loopEnd (draft : Draft) (line : String) :
    draft.ClosesOrReports
      (((draft.renest fun nesting =>
        { nesting with doLoops := nesting.doLoops.tail }).reportUnless
          draft.nesting.insideDoLoop "Loop").emit line) "Loop" := by
  rw [Nesting.insideDoLoop_eq]
  exact closesOrReports_of_pop rfl rfl

end Draft

/-- The name by which a closer is reported. -/
def closerName (tokens : List Token) : Statement → String
  | .endBlock => "End " ++ tokenAt tokens 1
  | .loopEnd => "Loop"
  | _ => tokenAt tokens 0

/-- True of an `End` line whose word names no block of its own. -/
def ClosesUnknown (tokens : List Token) (statement : Statement) : Prop :=
  statement = .endBlock ∧ tokenAt tokens 1 ∉ blockTargets

/-- Take a line that is an `End`, `Next` or `Loop` line and whose rule writes a line that
starts with a closing brace. Exactly if it is no `End` line with a word of no block, it either
takes one open thing away and is not reported, or takes nothing away and is reported once. An
`End` line with such a word writes a brace and does nothing else. -/
theorem closing_brace_closes_or_reports {text : String} {tokens : List Token} {draft after : Draft}
    {lines : List String} {line : String}
    (closer : Statement.classify text tokens ∈
      [Statement.endBlock, Statement.nextLoop, Statement.loopEnd])
    (ran : ((Statement.classify text tokens).rule text tokens).run draft = .ok () after)
    (appended : after.output.toList = draft.output.toList ++ lines)
    (written : line ∈ lines) (brace : line.toList.head? = some '\x7d') :
    (draft.ClosesOrReports after (closerName tokens (Statement.classify text tokens)) ↔
      ¬ ClosesUnknown tokens (Statement.classify text tokens)) ∧
    (ClosesUnknown tokens (Statement.classify text tokens) → after = draft.emit "\x7d") := by
  generalize Statement.classify text tokens = statement at closer ran
  have loop : ∀ {statement : Statement} {after : Draft}, statement ≠ .endBlock →
      draft.ClosesOrReports after (closerName tokens statement) →
      (draft.ClosesOrReports after (closerName tokens statement) ↔
        ¬ ClosesUnknown tokens statement) ∧
      (ClosesUnknown tokens statement → after = draft.emit "\x7d") := by
    intro statement after isLoop closes
    have notUnknown : ¬ ClosesUnknown tokens statement := fun unknown => isLoop unknown.1
    exact ⟨iff_of_true closes notUnknown, fun unknown => absurd unknown notUnknown⟩
  cases Statement.makes_of_run ran with
  -- A bare `End` and `End Property` write no brace.
  | endProgram =>
    obtain rfl : lines = ["Environment.Exit(0);"] := by simpa [Draft.emit] using appended.symm
    rw [List.mem_singleton.mp written] at brace
    exact absurd brace (by decide)
  | endProperty =>
    obtain rfl : lines = [] := by simpa [Draft.renest] using appended
    cases written
  | endBlock =>
    rw [← Draft.closeEnd]
    by_cases known : tokenAt tokens 1 ∈ blockTargets
    · have notUnknown : ¬ ClosesUnknown tokens .endBlock := fun unknown => unknown.2 known
      exact ⟨iff_of_true (draft.closesOrReports_closeEnd known) notUnknown,
        fun unknown => absurd unknown notUnknown⟩
    · rw [draft.closeEnd_unknown known]
      have unknown : ClosesUnknown tokens .endBlock := ⟨rfl, known⟩
      exact ⟨iff_of_false (draft.not_closesOrReports_emit _ _) (not_not_intro unknown),
        fun _ => rfl⟩
  | nextLoop reading =>
    obtain rfl := Reading.token_eq reading
    exact loop (by simp) (draft.closesOrReports_nextLoop _ _)
  | loopEnd => exact loop (by simp) (draft.closesOrReports_loopEnd _)
  | _ => simp at closer

/-- The closer of a branch finds it below a loop that was opened in it and is still open. -/
theorem end_if_closes_below_loop :
    let draft : Draft := { nesting := { blocks := [.whileBlock, .ifBlock] } }
    let after := draft.closeEnd "If"
    ((lineStatement "End If").rule "End If" (lineTokens "End If")).run draft = .ok () after ∧
      after.nesting.blocks = [.whileBlock] ∧ draft.ClosesOrReports after "End If" := by
  intro draft after
  have tokens : lineTokens "End If" = ["End", "If"] := by decide
  have statement : Statement.classify "End If" ["End", "If"] = .endBlock := by decide
  have ran : ((Statement.classify "End If" ["End", "If"]).rule "End If" ["End", "If"]).run draft =
      .ok () after := by
    rw [statement]
    exact Rule.endBlock_run ["End", "If"] draft
  have appended : after.output.toList = draft.output.toList ++ ["\x7d"] := rfl
  have law := closing_brace_closes_or_reports (by rw [statement]; decide) ran appended
    (List.mem_singleton.mpr rfl) (by decide)
  rw [statement] at law
  refine ⟨?_, rfl, law.1.mpr fun unknown => unknown.2 (by decide)⟩
  rw [lineStatement, tokens]
  exact ran

/-- `End Select` writes a brace at the very start of a file, where nothing is open, and is
not reported. -/
theorem end_select_leaves_no_trace :
    lineStatement "End Select" = .endBlock ∧
    ∃ after, ((lineStatement "End Select").rule "End Select" (lineTokens "End Select")).run {} =
        .ok () after ∧
      after.output = #["\x7d"] ∧ ¬ ({} : Draft).ClosesOrReports after "End Select" := by
  have tokens : lineTokens "End Select" = ["End", "Select"] := by decide
  have statement : lineStatement "End Select" = .endBlock := by decide
  refine ⟨statement, ({} : Draft).emit "\x7d", ?_, rfl, Draft.not_closesOrReports_emit _ _ _⟩
  rw [statement, tokens]
  exact Rule.endBlock_run ["End", "Select"] {}

end BasicToSharp
