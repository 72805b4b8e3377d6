import BasicToSharp.Proofs.HeaderLine
import BasicToSharp.Proofs.Indentation
import BasicToSharp.Proofs.SourceLayout
import BasicToSharp.Proofs.TrimmedLines

/-!
# Converted files are indented by their braces

No line that is written has blanks at its ends, whatever statement it comes from and whether
the statement is accepted or refused. This is shown of one line and carried along the
conversion, together with what it rests on: enums have plain names, and the header of an open
container is a line that is not empty.

The finished file is laid out from such lines, with a unit of blanks. Hence its lines have
the levels that the braces before them give, and laying them out again changes nothing.
-/

namespace BasicToSharp

open Text

/-- No line written so far has a blank at either end. -/
def Draft.AllTrimmed (draft : Draft) : Prop := ∀ line ∈ draft.output, Trimmed line.toList

/-- The header of every open container is among the lines written and is not empty. -/
def Draft.HeadersFilled (draft : Draft) : Prop :=
  ∀ container ∈ draft.nesting.containers,
    ∃ header, draft.output[container.headerLine]? = some header ∧ header ≠ ""

section Writing

variable {draft after : Draft} {line header : String}

namespace Draft.AllTrimmed

/-- Only the written lines count. -/
theorem of_output (trimmed : draft.AllTrimmed) (same : after.output = draft.output) :
    after.AllTrimmed := by
  intro line member
  exact trimmed line (same ▸ member)

/-- A trimmed line is written. -/
theorem emit (trimmed : draft.AllTrimmed) (here : Trimmed line.toList) :
    (draft.emit line).AllTrimmed := by
  intro written member
  rcases Array.mem_push.mp member with old | rfl
  · exact trimmed written old
  · exact here

/-- A trimmed header is written, and its brace. -/
theorem openBrace (trimmed : draft.AllTrimmed) (here : Trimmed header.toList) :
    (draft.openBrace header).AllTrimmed :=
  (trimmed.emit here).emit (by decide)

/-- Notices write nothing. -/
theorem reportAll (trimmed : draft.AllTrimmed) (notices : List Notice) :
    (draft.reportAll notices).AllTrimmed :=
  trimmed.of_output (by rw [reportAll_eq])

/-- A closer is reported where nothing is open for it; that writes nothing. -/
theorem closeBrace (trimmed : draft.AllTrimmed) (change : Nesting → Nesting) (closed : Bool)
    (keyword : String) (here : Trimmed line.toList) :
    (((draft.renest change).reportUnless closed keyword).emit line).AllTrimmed := by
  have renested : (draft.renest change).AllTrimmed := trimmed.of_output rfl
  rw [reportUnless_eq]
  exact (renested.reportAll _).emit here

/-- A function is started with a trimmed signature. -/
theorem startFunction (trimmed : draft.AllTrimmed) {record : FunctionRecord} {generics : String}
    {comment : Option String}
    (here : Trimmed (record.bindParameters.signature generics ++ commentEnding comment).toList) :
    (draft.startFunction record generics comment).AllTrimmed := by
  have spaced : (if draft.needsGap then draft.emit "" else draft).AllTrimmed := by
    split
    · exact trimmed.emit (by decide)
    · exact trimmed
  exact (spaced.openBrace here).of_output rfl

/-- A line that is passed through is written trimmed. -/
theorem passLine (trimmed : draft.AllTrimmed) (tokens : List Token) :
    (draft.passLine tokens).AllTrimmed := by
  unfold Draft.passLine
  split
  · refine emit (trimmed.of_output ?_) (trimmed_enumeratorLine tokens)
    rw [recordEnumerator_frame]
  · exact (trimmed.reportAll _).emit (trimmed_statementLine tokens)

/-- Base types are added to a header that is not empty. -/
theorem addBases (trimmed : draft.AllTrimmed) {index : Nat} {bases : List String}
    (ends : ∀ base ∈ bases, EndsVisible base.toList ∧ base ≠ "")
    (found : draft.output[index]? = some header) (filled : header ≠ "") :
    { draft with
      output := draft.output.setIfInBounds index (bases.foldl addBase header) }.AllTrimmed := by
  intro written member
  rcases Array.mem_or_eq_of_mem_setIfInBounds member with old | rfl
  · exact trimmed written old
  · exact trimmed_addBases ends (trimmed header (Array.mem_of_getElem? found)) filled

end Draft.AllTrimmed

/-- What an accepted statement writes has no blanks at the ends. -/
theorem Statement.rule_allTrimmed (statement : Statement) {text : String} {tokens : List Token}
    (ran : (statement.rule text tokens).run draft = .ok () after)
    (trimmed : draft.AllTrimmed) (headers : draft.HeadersFilled) (enums : draft.PlainEnums)
    (comment : statement = .comment → Trimmed text.toList)
    (visible : ∀ token ∈ tokens.getLast?, (firstVisible token).isSome = true) :
    after.AllTrimmed := by
  cases makes_of_run ran with
  | blank | endProgram => exact trimmed.emit (by decide)
  | comment => exact trimmed.emit (trimmed_commentLine (comment rfl))
  | container reading =>
    exact Draft.AllTrimmed.openBrace (trimmed.of_output rfl)
      (ContainerHeader.read_trimmed _ tokens _ _ reading)
  | declaration reading =>
    refine Draft.AllTrimmed.emit (trimmed.of_output (by rw [Draft.register_frame])) ?_
    have named : ∀ entry ∈ draft.symbols.enums.entries, Token.isIdentifier entry.1 = true :=
      fun entry member => (enums entry member).1
    exact trimmed_of_flush (DeclarationLine.read_flush named _ tokens _ reading)
      (DeclarationLine.read_endsVisible _ tokens _ reading)
  | doLoop reading =>
    exact Draft.AllTrimmed.openBrace (trimmed.of_output rfl) (readDo_trimmed tokens _ reading)
  | endProperty | pendingProperty => exact trimmed.of_output rfl
  | endBlock | nextLoop => exact trimmed.closeBrace _ _ _ (by decide)
  | exitJump reading => exact trimmed.emit (exitStatement_trimmed tokens _ reading)
  | enumHeader reading =>
    exact Draft.AllTrimmed.openBrace (trimmed.of_output rfl)
      (EnumHeader.read_trimmed tokens _ _ reading)
  | forLoop reading =>
    exact Draft.AllTrimmed.openBrace ((trimmed.reportAll _).of_output rfl)
      (LoopHeader.read_trimmed _ tokens _ reading)
  | function reading =>
    have leads := FunctionHeader.read_plain _ tokens _ _ _ reading
    have clause := FunctionHeader.read_clause visible _ _ _ _ reading
    exact (trimmed.startFunction (leads.trimmed_signature _ clause)).reportAll _
  | accessor reading =>
    have leads := AccessorHeader.read_plain draft tokens _ _ reading
    exact trimmed.startFunction (leads.trimmed_signature _ nofun)
  | ifBlock reading =>
    exact Draft.AllTrimmed.openBrace (trimmed.of_output rfl) (IfLine.read_trimmed tokens _ reading)
  | ifStatement reading => exact trimmed.emit (IfLine.read_trimmed tokens _ reading)
  | elseIfBranch reading =>
    exact (trimmed.emit (by decide)).openBrace (elseIfHeader_trimmed tokens _ reading)
  | elseBranch reading =>
    refine (trimmed.emit (by decide)).openBrace ?_
    split at reading
    · exact elseIfHeader_trimmed tokens _ reading
    · cases reading
      decide
  | loopEnd reading => exact trimmed.closeBrace _ _ _ (readLoopEnd_trimmed _ tokens _ reading)
  | namespaceHeader reading =>
    exact Draft.AllTrimmed.openBrace (trimmed.of_output rfl)
      (readNamespace_trimmed tokens _ reading)
  | property alone reading =>
    refine Draft.AllTrimmed.emit (trimmed.of_output (by rw [Draft.registerProperty_frame])) ?_
    exact trimmed_of_flush (PropertyLine.read_flush _ tokens _ _ reading)
      (PropertyLine.read_endsVisible _ tokens _ _ reading)
  | returnJump reading => exact trimmed.emit (returnStatement_trimmed tokens _ reading)
  | whileLoop =>
    exact Draft.AllTrimmed.openBrace (trimmed.of_output rfl) (trimmed_blockHeader _ _)
  | inheritance reading =>
    obtain ⟨innermost, written, stated⟩ := readInheritance_yields draft tokens _ reading
    obtain ⟨header, isHeader, filled⟩ := headers _ (List.mem_of_head? innermost)
    obtain rfl := Option.some.inj (isHeader.symm.trans written)
    exact trimmed.addBases (readBases_endsVisible _ _ stated) written filled
  | other => exact trimmed.passLine tokens

end Writing

section Lines

variable {draft after : Draft} {text : String}

/-- Base types empty no header. -/
theorem addBases_ne_empty (bases : List String) {header : String} (filled : header ≠ "") :
    bases.foldl addBase header ≠ "" := by
  induction bases generalizing header with
  | nil => exact filled
  | cons base rest inductionHypothesis =>
    exact inductionHypothesis (by simp [addBase, filled])

namespace Draft.Effect

/-- A line that is written and not empty is never emptied. -/
theorem line_filled (effect : draft.Effect text after) {index : Nat} {line : String}
    (written : draft.output[index]? = some line) (filled : line ≠ "") :
    ∃ later, after.output[index]? = some later ∧ later ≠ "" := by
  obtain ⟨inside, -⟩ := Array.getElem?_eq_some_iff.mp written
  rcases effect.lines with ⟨⟨lines, output⟩, -⟩ | ⟨container, header, -, found, output⟩
  · exact ⟨line, (getElem?_of_append output inside).trans written, filled⟩
  · by_cases same : container.headerLine = index
    · subst same
      obtain rfl : header = line := Option.some.inj (found.symm.trans written)
      refine ⟨_, ?_, addBases_ne_empty (draft.basesOf text) filled⟩
      rw [output, Array.getElem?_setIfInBounds_self_of_lt inside]
    · exact ⟨line, by rw [output, Array.getElem?_setIfInBounds_ne same, written], filled⟩

/-- A line keeps the headers of open containers filled. -/
theorem headersFilled (effect : draft.Effect text after) (before : draft.HeadersFilled) :
    after.HeadersFilled := by
  have kept : ∀ container ∈ draft.nesting.containers,
      ∃ header, after.output[container.headerLine]? = some header ∧ header ≠ "" := by
    intro container member
    obtain ⟨header, written, filled⟩ := before container member
    exact effect.line_filled written filled
  intro container member
  rcases effect.containers with
    closed | ⟨opened, header, containers, position, output, keyword, reading⟩
  · exact kept container (closed.subset member)
  · rw [containers] at member
    rcases List.mem_cons.mp member with rfl | old
    · refine ⟨header, ?_, ne_empty_of_plain (ContainerHeader.read_plain _ _ keyword _ reading)⟩
      rw [← Array.getElem?_toList, output, position]
      simp
    · exact kept container old

end Draft.Effect

/-- What holds of a draft throughout a conversion. -/
structure Draft.Tidy (draft : Draft) : Prop where
  lines : draft.AllTrimmed
  headers : draft.HeadersFilled
  enums : draft.PlainEnums

/-- A conversion starts tidy. -/
theorem Draft.start_tidy (options : Options) (input : List SourceLine) :
    (Draft.start options input).Tidy :=
  ⟨nofun, nofun, nofun⟩

/-- One line keeps a draft tidy, accepted or refused, if it is trimmed in case it is a
comment. -/
theorem Draft.convertLine_tidy (converted : draft.convertLine text = .ok after)
    (comment : lineStatement text = .comment → Trimmed text.toList) (tidy : draft.Tidy) :
    after.Tidy := by
  refine ⟨?_, (convertLine_effect converted).headersFilled tidy.headers,
    (convertLine_frame converted).2.2 tidy.enums⟩
  rcases draft.convertLine_cases text with ⟨_, ran, same⟩ | ⟨cause, -, same⟩
  · obtain rfl := Except.ok.inj (converted.symm.trans same)
    exact Statement.rule_allTrimmed _ ran tidy.lines tidy.headers tidy.enums comment
      (wellQuoted_lineTokens text).visible_of_getLast?
  · obtain rfl := Except.ok.inj (converted.symm.trans same)
    have reported : (draft.report (.malformed cause)).AllTrimmed := tidy.lines.of_output rfl
    exact reported.passLine _

/-- Converting lines keeps a draft tidy. -/
theorem Draft.convertFrom_tidy {cursor : Nat} {lines : List SourceLine}
    (converted : draft.convertFrom cursor lines = .ok after)
    (comments : ∀ line ∈ lines, lineStatement line.text = .comment → Trimmed line.text.toList)
    (tidy : draft.Tidy) : after.Tidy := by
  induction lines generalizing draft cursor with
  | nil =>
    cases converted
    exact tidy
  | cons line rest inductionHypothesis =>
    obtain ⟨here, later⟩ := List.forall_mem_cons.mp comments
    simp only [convertFrom] at converted
    split at converted
    · next middle done =>
      have moved : (draft.moveTo cursor line).Tidy := ⟨tidy.lines, tidy.headers, tidy.enums⟩
      exact inductionHypothesis converted later (convertLine_tidy done here moved)
    · cases converted

end Lines

namespace SourceLine

/-- A prepared line that is a comment is trimmed. The other lines of a declaration that is
split start with `Dim` and are no comments. -/
theorem linesOf_comment (split : Bool) {text : String} (trimmed : Trimmed text.toList) :
    ∀ line ∈ linesOf split text, lineStatement line = .comment → Trimmed line.toList := by
  intro line member comment
  unfold linesOf at member
  split at member
  · next declares =>
    have isDim : startsWithDim text = true := (Bool.and_eq_true_iff.mp declares).2
    obtain ⟨-, c, rest, starts, letter⟩ := startsWithDim_chars trimmed.1 isDim
    rcases mem_splitDeclaration member with rfl | ⟨more, rfl⟩
    · exact trimmed
    · have chars : (String.ofList (text.toList.takeWhile (!isBlank ·)) ++ more).toList =
          c :: (rest ++ more.toList) := by
        rw [String.toList_append, String.toList_ofList, starts]
        rfl
      exact absurd comment (code_of_letter chars letter).2
  · rwa [List.mem_singleton.mp member]

/-- All comments of a prepared source are trimmed. -/
theorem prepareFrom_comment (split : Bool) (number : Nat) (lines : List String) :
    ∀ line ∈ prepareFrom split number lines,
      lineStatement line.text = .comment → Trimmed line.text.toList := by
  induction lines generalizing number with
  | nil => nofun
  | cons first rest inductionHypothesis =>
    intro line member
    rw [prepareFrom, List.mem_append] at member
    rcases member with here | later
    · obtain ⟨text, isText, rfl⟩ := List.mem_map.mp here
      exact linesOf_comment split (trimmed_stripComment (trimmed_trim first)) text isText
    · exact inductionHypothesis (number + 1) line later

end SourceLine

/-- Lines stay trimmed when their words are put in order. -/
theorem Draft.AllTrimmed.ordered {draft : Draft} (trimmed : draft.AllTrimmed) :
    ∀ line ∈ draft.ordered, Trimmed line.toList := by
  unfold Draft.ordered
  split
  · intro line member
    obtain ⟨written, isWritten, rfl⟩ := List.mem_map.mp member
    exact Layout.trimmed_reorderLine (trimmed written (Array.mem_toList_iff.mp isWritten))
  · intro line member
    exact trimmed line (Array.mem_toList_iff.mp member)

/-- Throughout the conversion of a file, no line that is written has a blank at either end.
With a unit of blanks, the lines of the converted file are laid out by their braces: every line
that is not blank stands, behind the unit repeated, at the level that the lines before it give,
and blank lines are empty, stand alone and at neither end. Without their indentation, the lines
that are not blank are those written, in their order; and laying out the lines without their
indentation gives the same lines again. -/
theorem converted_lines_are_laid_out {source : String} {options : Options}
    {conversion : Conversion} (converted : convert source options = .ok conversion)
    (blank : options.indent.toList.all isBlank = true) :
    let input := SourceLine.prepare source options.splitDeclarations
    let start := Draft.start options input
    (∀ part reached, part <+: input → start.convertFrom 0 part = .ok reached →
      ∀ line ∈ reached.output, Trimmed line.toList) ∧
    Layout.LaidOut options.indent conversion.lines ∧
    (∃ draft, start.convertFrom 0 input = .ok draft ∧
      (conversion.lines.filter (· ≠ "")).map trimLeft = draft.ordered.filter (· ≠ "")) ∧
    Layout.indent (conversion.lines.map trimLeft) options.indent = conversion.lines := by
  intro input start
  have allTidy : ∀ part reached, part <+: input → start.convertFrom 0 part = .ok reached →
      reached.Tidy := by
    intro part reached isPart done
    exact Draft.convertFrom_tidy done
      (fun line member => SourceLine.prepareFrom_comment _ _ _ line (isPart.subset member))
      (Draft.start_tidy options input)
  obtain ⟨draft, done⟩ := start.convertFrom_ok 0 input
  have ordered := (allTidy input draft List.prefix_rfl done).lines.ordered
  have finished : conversion.lines = Layout.indent draft.ordered options.indent := by
    unfold convert at converted
    simp only at converted
    split at converted
    · cases converted
    · rw [done] at converted
      cases converted
      rw [Draft.finish, Draft.convertFrom_options done]
      rfl
  rw [finished]
  exact ⟨fun part reached isPart reaches => (allTidy part reached isPart reaches).lines,
    Layout.laidOut_indent blank ordered,
    ⟨draft, done, Layout.map_trimLeft_filter_indent blank ordered⟩,
    Layout.indent_map_trimLeft blank ordered⟩

/-- A closer too many, blank lines at both ends and a comment behind a signature. -/
theorem converted_lines_are_laid_out_unbalanced :
    let source := "\n Class A\nInherits B\n\n\n' note  \nSub F() Handles x  \n" ++
      "End Sub\nEnd Class\nEnd If\n\n"
    let lines := ["class A : B", "\x7b", "", "\t// note", "", "\tvoid F() // Handles x", "\t\x7b",
      "\t\x7d", "\x7d", "\x7d"]
    ∃ conversion, convert source { indent := "\t" } = .ok conversion ∧
      conversion.lines = lines ∧ Layout.LaidOut "\t" lines ∧
      Layout.indent (lines.map trimLeft) "\t" = lines := by
  intro source lines
  have computed : (convert source { indent := "\t" }).toOption.map (·.lines) = some lines := by
    decide +kernel
  cases converted : convert source { indent := "\t" } with
  | error cause =>
    rw [converted] at computed
    cases computed
  | ok conversion =>
    rw [converted] at computed
    have same : conversion.lines = lines := Option.some.inj computed
    obtain ⟨-, laidOut, -, again⟩ := converted_lines_are_laid_out converted (by decide)
    rw [same] at laidOut again
    exact ⟨conversion, rfl, same, laidOut, again⟩

end BasicToSharp
