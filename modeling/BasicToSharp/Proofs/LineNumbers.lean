import BasicToSharp.Proofs.InRange
import BasicToSharp.Proofs.Run

/-!
# Line numbers

A prepared line carries the number of the source line it comes from. Every source line gives at
least one prepared line, and only a declaration of several names gives more, so the numbers go
up through all the lines of the source. What is prepared of one source line can therefore be
picked out by its number, and `prepareFrom_filter` says what it is.

A notice is recorded under the number that the draft has been moved to, whichever rule records
it. One line adds its notices behind those of the lines before it (`Draft.convertLine_reports`),
and so the notices of a file stand in the order of its lines.
-/

namespace BasicToSharp

open Text (isBlank)

/-! ## First words -/

namespace Text

variable {text : String}

/-- Blanks at the end are no part of the first word. -/
theorem takeWhile_dropTrailingBlanks (chars : List Char) :
    (dropTrailingBlanks chars).takeWhile (!isBlank ·) = chars.takeWhile (!isBlank ·) := by
  have stops : (chars.rtakeWhile isBlank).takeWhile (!isBlank ·) = [] := by
    cases trailing : chars.rtakeWhile isBlank with
    | nil => rfl
    | cons c rest =>
      have blank : isBlank c = true := List.mem_rtakeWhile_imp (trailing ▸ List.mem_cons_self)
      rw [List.takeWhile_cons_of_neg (by simp [blank])]
  conv_rhs => rw [← dropTrailingBlanks_append chars]
  rw [List.takeWhile_append, stops, List.append_nil]
  split
  · next whole => exact (List.takeWhile_prefix _).eq_of_length whole
  · rfl

/-- Trimming keeps the first word. -/
theorem firstWord_trim (text : String) : firstWord (trim text) = firstWord text := by
  rw [firstWord_of_startsVisible (trimmed_trim text).1, trim, String.toList_ofList, trimBlanks,
    takeWhile_dropTrailingBlanks, firstWord]

end Text

/-! ## What is prepared of one line -/

namespace SourceLine

variable {raw text : String} {split : Bool}

/-- Every line is prepared as at least one line. -/
theorem prepareLine_ne_nil (split : Bool) (raw : String) : prepareLine split raw ≠ [] := by
  unfold prepareLine
  simp only
  split
  · exact splitDeclaration_ne_nil _
  · exact List.cons_ne_nil _ _

/-- A line that holds anything leaves no empty text. -/
theorem blank_of_mem_prepareLine (member : "" ∈ prepareLine split raw) :
    ∀ c ∈ raw.toList, isBlank c = true := by
  have trimmed := Text.trimmed_trim raw
  rw [← trim_eq_empty_iff, ← stripComment_eq_empty_iff trimmed.1]
  unfold prepareLine at member
  simp only at member
  split at member
  · next declares =>
    have isDim := (Bool.and_eq_true_iff.mp declares).2
    exact absurd rfl (splitDeclaration_ne_empty (trimmed_stripComment trimmed).1 isDim member)
  · exact (List.mem_singleton.mp member).symm

/-- A blank line is prepared as one empty line. -/
theorem prepareLine_blank (split : Bool) (blank : ∀ c ∈ raw.toList, isBlank c = true) :
    prepareLine split raw = [""] := by
  have nothing : Text.trim raw = "" := (trim_eq_empty_iff raw).mpr blank
  have noDim : startsWithDim (stripComment "") = false := by decide +kernel
  rw [prepareLine, nothing]
  simp only [noDim, Bool.and_false, Bool.false_eq_true, if_false]
  rfl

/-- A comment that starts inside the first word leaves no blank behind it. -/
theorem splitDeclaration_of_first_word (other : startsWithDim raw = false)
    (isDim : startsWithDim (stripComment (Text.trim raw)) = true) :
    splitDeclaration (stripComment (Text.trim raw)) = [stripComment (Text.trim raw)] := by
  have trimmed := Text.trimmed_trim raw
  have visible := (trimmed_stripComment trimmed).1
  obtain ⟨-, ending, -, whole⟩ := stripComment_ending trimmed
  generalize stripComment (Text.trim raw) = text at isDim visible whole
  unfold splitDeclaration
  cases cut : Text.cutAtBlank text.toList with
  | none => rfl
  | some parts =>
    -- A blank behind the word would make it the first word of the whole line too.
    obtain ⟨word, after⟩ := parts
    obtain ⟨blank, -, chars⟩ := Text.cutAtBlank_eq_some cut
    have stops : ¬ (text.toList.takeWhile (!isBlank ·)).length = text.toList.length := by
      rw [← Text.cutAtBlank_word cut, chars]
      simp
    have same : Text.firstWord text = Text.firstWord raw := by
      rw [← Text.firstWord_trim raw, Text.firstWord_of_startsVisible visible,
        Text.firstWord_of_startsVisible trimmed.1, whole, List.takeWhile_append, if_neg stops]
    rw [startsWithDim, same, ← startsWithDim, other] at isDim
    cases isDim

/-- A line that declares nothing, or is not to be split, is prepared as one line. -/
theorem prepareLine_single (single : split = false ∨ startsWithDim raw = false) :
    prepareLine split raw = [stripComment (Text.trim raw)] := by
  unfold prepareLine
  simp only
  split
  · next declares =>
    obtain ⟨splits, isDim⟩ := Bool.and_eq_true_iff.mp declares
    rcases single with whole | other
    · rw [whole] at splits
      cases splits
    · exact splitDeclaration_of_first_word other isDim
  · rfl

/-! ## What is prepared of all lines -/

variable {number : Nat} {lines : List String}

/-- Prepared lines have the numbers from the first on. -/
theorem number_of_mem_prepareFrom {line : SourceLine}
    (member : line ∈ prepareFrom split number lines) : number ≤ line.number := by
  induction lines generalizing number with
  | nil => cases member
  | cons raw rest inductionHypothesis =>
    rcases List.mem_append.mp member with here | later
    · obtain ⟨text, -, rfl⟩ := List.mem_map.mp here
      exact Nat.le_refl number
    · have above := inductionHypothesis later
      omega

/-- The numbers of prepared lines never fall. -/
theorem pairwise_prepareFrom (split : Bool) (number : Nat) (lines : List String) :
    (prepareFrom split number lines).Pairwise (·.number ≤ ·.number) := by
  induction lines generalizing number with
  | nil => exact .nil
  | cons raw rest inductionHypothesis =>
    rw [prepareFrom, List.pairwise_append]
    refine ⟨?_, inductionHypothesis (number + 1), ?_⟩
    · rw [List.pairwise_map]
      exact List.pairwise_of_forall fun _ _ => Nat.le_refl number
    · intro line here later isLater
      obtain ⟨text, -, rfl⟩ := List.mem_map.mp here
      have above := number_of_mem_prepareFrom isLater
      exact Nat.le_of_succ_le above

/-- The lines of one number are those that are prepared of one source line. -/
theorem prepareFrom_filter (split : Bool) (number index : Nat) (lines : List String) :
    (prepareFrom split number lines).filter (·.number = number + index) =
      (lines[index]?.toList.flatMap (prepareLine split)).map (⟨number + index, ·⟩) := by
  induction lines generalizing number index with
  | nil => rfl
  | cons raw rest inductionHypothesis =>
    rw [prepareFrom, List.filter_append]
    cases index with
    | zero =>
      have here : ((prepareLine split raw).map (SourceLine.mk number)).filter
          (·.number = number + 0) = (prepareLine split raw).map (SourceLine.mk number) := by
        rw [List.filter_eq_self]
        simp
      have later : (prepareFrom split (number + 1) rest).filter (·.number = number + 0) = [] := by
        rw [List.filter_eq_nil_iff]
        intro line member
        have above := number_of_mem_prepareFrom member
        simp only [decide_eq_true_eq]
        omega
      rw [here, later]
      simp
    | succ index =>
      have here : ((prepareLine split raw).map (SourceLine.mk number)).filter
          (·.number = number + (index + 1)) = [] := by
        rw [List.filter_eq_nil_iff]
        simp
      have next : number + (index + 1) = number + 1 + index := by omega
      rw [here, List.nil_append, next, inductionHypothesis, List.getElem?_cons_succ]

/-- The prepared lines of a source by their numbers. The numbers never go down and are those of
the lines of the source. An empty text comes from a blank line, and a blank line gives one empty
text. A line gives one text, unless it declares names and is to be split. -/
structure NumberedBy (lines : List String) (split : Bool) (prepared : List SourceLine) : Prop where
  ordered : prepared.Pairwise (·.number ≤ ·.number)
  numbers : ∀ number, (∃ line ∈ prepared, line.number = number) ↔
    1 ≤ number ∧ number ≤ lines.length
  empty : ∀ line ∈ prepared, line.text = "" →
    ∃ raw, lines[line.number - 1]? = some raw ∧ ∀ c ∈ raw.toList, isBlank c = true
  blank : ∀ index raw, lines[index]? = some raw → (∀ c ∈ raw.toList, isBlank c = true) →
    prepared.filter (·.number = index + 1) = [⟨index + 1, ""⟩]
  single : ∀ index raw, lines[index]? = some raw → split = false ∨ startsWithDim raw = false →
    prepared.filter (·.number = index + 1) = [⟨index + 1, stripComment (Text.trim raw)⟩]

/-- The prepared lines of one number are those made of the source line of that number. -/
theorem prepare_filter {source : String} {index : Nat} (split : Bool)
    (present : (Text.lines source)[index]? = some raw) :
    (prepare source split).filter (·.number = index + 1) =
      (prepareLine split raw).map (⟨index + 1, ·⟩) := by
  have picked := prepareFrom_filter split 1 index (Text.lines source)
  rw [present, Nat.add_comm 1 index] at picked
  simpa [prepare] using picked

/-- Each prepared line comes from the source line of its number. -/
theorem exists_of_mem_prepare {source : String} {line : SourceLine}
    (member : line ∈ prepare source split) :
    1 ≤ line.number ∧ ∃ raw, (Text.lines source)[line.number - 1]? = some raw ∧
      line.text ∈ prepareLine split raw := by
  have positive : 1 ≤ line.number := number_of_mem_prepareFrom member
  have picked := prepareFrom_filter split 1 (line.number - 1) (Text.lines source)
  have own : line ∈ (prepare source split).filter (·.number = 1 + (line.number - 1)) := by
    rw [List.mem_filter]
    exact ⟨member, by simp; omega⟩
  rw [prepare, picked] at own
  obtain ⟨text, isText, same⟩ := List.mem_map.mp own
  obtain ⟨raw, isRaw, isPart⟩ := List.mem_flatMap.mp isText
  refine ⟨positive, raw, Option.mem_toList.mp isRaw, ?_⟩
  rw [← same]
  exact isPart

/-- A prepared source is numbered by its lines. -/
theorem prepare_numberedBy (source : String) (split : Bool) :
    NumberedBy (Text.lines source) split (prepare source split) where
  ordered := pairwise_prepareFrom split 1 _
  numbers number := by
    constructor
    · rintro ⟨line, member, rfl⟩
      obtain ⟨positive, raw, present, -⟩ := exists_of_mem_prepare member
      obtain ⟨within, -⟩ := List.getElem?_eq_some_iff.mp present
      omega
    · rintro ⟨positive, within⟩
      have present : (Text.lines source)[number - 1]? = some (Text.lines source)[number - 1] :=
        List.getElem?_eq_getElem (by omega)
      obtain ⟨text, isText⟩ := List.exists_mem_of_ne_nil _
        (prepareLine_ne_nil split (Text.lines source)[number - 1])
      have own := List.mem_map_of_mem (f := SourceLine.mk (number - 1 + 1)) isText
      rw [← prepare_filter split present] at own
      exact ⟨_, (List.mem_filter.mp own).1, by simp; omega⟩
  empty line member empty := by
    obtain ⟨-, raw, present, isText⟩ := exists_of_mem_prepare member
    rw [empty] at isText
    exact ⟨raw, present, blank_of_mem_prepareLine isText⟩
  blank index raw present blank := by
    rw [prepare_filter split present, prepareLine_blank split blank]
    rfl
  single index raw present single := by
    rw [prepare_filter split present, prepareLine_single single]
    rfl

end SourceLine

/-! ## What is noticed about lines -/

namespace Draft

variable {draft after : Draft} {text : String} {cursor : Nat} {lines : List SourceLine}

/-- Converting a line adds notices under the number of the line. -/
theorem convertLine_reports (converted : draft.convertLine text = .ok after) :
    ∃ notices : List Notice, after.diagnostics.toList =
      draft.diagnostics.toList ++ notices.map (Diagnostic.mk draft.line) := by
  rcases draft.convertLine_cases text with ⟨_, ran, same⟩ | ⟨cause, -, same⟩
  · obtain rfl := Except.ok.inj (converted.symm.trans same)
    obtain ⟨notices, continues, -⟩ := Statement.rule_continues _ ran
    exact ⟨notices, by simp [continues.diagnostics]⟩
  · -- A refused line is reported first, and then its words as it is passed through.
    obtain rfl := Except.ok.inj (converted.symm.trans same)
    obtain ⟨words, continues⟩ := Continues.passLine (draft.report (.malformed cause))
      (lineTokens text)
    refine ⟨.malformed cause :: words.map .unregisteredWord, ?_⟩
    simpa [report] using congrArg Array.toList continues.diagnostics

/-- Converting lines adds notices under their numbers, in the order of the lines. -/
theorem convertFrom_reports (converted : draft.convertFrom cursor lines = .ok after) :
    ∃ added, after.diagnostics.toList = draft.diagnostics.toList ++ added ∧
      (∀ diagnostic ∈ added, ∃ line ∈ lines, diagnostic.line = line.number) ∧
      (lines.Pairwise (·.number ≤ ·.number) → added.Pairwise (·.line ≤ ·.line)) := by
  induction lines generalizing draft cursor with
  | nil =>
    cases converted
    exact ⟨[], by simp, by simp, fun _ => .nil⟩
  | cons line rest inductionHypothesis =>
    simp only [convertFrom] at converted
    split at converted
    · next middle done =>
      obtain ⟨notices, here⟩ := convertLine_reports done
      obtain ⟨later, behind, numbers, ordered⟩ := inductionHypothesis converted
      refine ⟨notices.map (Diagnostic.mk line.number) ++ later, ?_, ?_, ?_⟩
      · rw [behind, here, List.append_assoc]
        rfl
      · intro diagnostic member
        rcases List.mem_append.mp member with isHere | isLater
        · obtain ⟨notice, -, rfl⟩ := List.mem_map.mp isHere
          exact ⟨line, List.mem_cons_self, rfl⟩
        · obtain ⟨origin, isOrigin, same⟩ := numbers diagnostic isLater
          exact ⟨origin, List.mem_cons_of_mem line isOrigin, same⟩
      · intro ascending
        obtain ⟨least, rest⟩ := List.pairwise_cons.mp ascending
        rw [List.pairwise_append, List.pairwise_map]
        refine ⟨List.pairwise_of_forall fun _ _ => Nat.le_refl _, ordered rest, ?_⟩
        intro diagnostic isHere other isLater
        obtain ⟨notice, -, rfl⟩ := List.mem_map.mp isHere
        obtain ⟨origin, isOrigin, same⟩ := numbers other isLater
        rw [same]
        exact least origin isOrigin
    · cases converted

end Draft

/-- The notice at a position is recorded by the conversion of this one of the lines: there are
more notices behind the line than before it, and the position is among those. -/
def Draft.RecordedBy (draft : Draft) (cursor : Nat) (lines : List SourceLine) (position : Nat)
    (line : SourceLine) : Prop :=
  ∃ (index : Nat) (stage : Stage), (draft.trace cursor lines)[index]? = some stage ∧
    lines[index]? = some line ∧ stage.text = line.text ∧
    stage.before.diagnostics.size ≤ position ∧ position < stage.after.diagnostics.size

/-- Every notice that is added along lines is recorded by one of them, under its number. -/
theorem Draft.convertFrom_records {draft after : Draft} {cursor position : Nat}
    {lines : List SourceLine} {diagnostic : Diagnostic}
    (converted : draft.convertFrom cursor lines = .ok after)
    (noticed : after.diagnostics.toList[position]? = some diagnostic)
    (new : draft.diagnostics.size ≤ position) :
    ∃ line, draft.RecordedBy cursor lines position line ∧ diagnostic.line = line.number := by
  induction lines generalizing draft cursor with
  | nil =>
    cases converted
    rw [List.getElem?_eq_none (by simpa using new)] at noticed
    cases noticed
  | cons line rest inductionHypothesis =>
    simp only [convertFrom] at converted
    split at converted
    · next middle done =>
      have stages : draft.trace cursor (line :: rest) =
          ⟨draft.moveTo cursor line, line.text, middle⟩ :: middle.trace (cursor + 1) rest := by
        simp only [trace, done]
      -- Either the first line added the notice, or it was still to come behind it.
      by_cases recorded : position < middle.diagnostics.size
      · obtain ⟨notices, here⟩ := convertLine_reports done
        obtain ⟨later, behind, -⟩ := convertFrom_reports converted
        have own : (notices.map (Diagnostic.mk line.number))[position - draft.diagnostics.size]? =
            some diagnostic := by
          rw [behind, List.getElem?_append_left (by simpa using recorded), here,
            List.getElem?_append_right (by simpa [moveTo] using new)] at noticed
          simpa [moveTo] using noticed
        obtain ⟨notice, -, rfl⟩ := List.mem_map.mp (List.mem_of_getElem? own)
        exact ⟨line, ⟨0, _, by rw [stages]; rfl, rfl, rfl, new, recorded⟩, rfl⟩
      · obtain ⟨origin, ⟨index, stage, isStage, records⟩, number⟩ :=
          inductionHypothesis converted (by omega)
        exact ⟨origin, ⟨index + 1, stage, by rw [stages]; exact isStage, records⟩, number⟩
    · cases converted

/-- The notices of a conversion by their line numbers. The numbers never go down, are those of
lines of the source, and each is the number of the prepared line at whose conversion the notice
was recorded. -/
structure Conversion.NoticedBy (conversion : Conversion) (source : String) (options : Options) :
    Prop where
  ordered : conversion.diagnostics.Pairwise (·.line ≤ ·.line)
  within : ∀ diagnostic ∈ conversion.diagnostics,
    1 ≤ diagnostic.line ∧ diagnostic.line ≤ (Text.lines source).length
  recorded : ∀ (position : Nat) (diagnostic : Diagnostic),
    conversion.diagnostics[position]? = some diagnostic →
      let input := SourceLine.prepare source options.splitDeclarations
      ∃ line, (Draft.start options input).RecordedBy 0 input position line ∧
        diagnostic.line = line.number

/-- What a conversion notices, it notices at lines of the source. -/
theorem convert_noticedBy {source : String} {options : Options} {conversion : Conversion}
    (done : convert source options = .ok conversion) : conversion.NoticedBy source options := by
  have numbered := SourceLine.prepare_numberedBy source options.splitDeclarations
  obtain ⟨draft, converted⟩ := Draft.convertFrom_ok
    (Draft.start options (SourceLine.prepare source options.splitDeclarations)) 0
    (SourceLine.prepare source options.splitDeclarations)
  have noticed : conversion.diagnostics = draft.diagnostics.toList := by
    unfold convert at done
    simp only [converted] at done
    split at done
    · cases done
    · cases done
      rfl
  obtain ⟨added, whole, numbers, ordered⟩ := Draft.convertFrom_reports converted
  obtain rfl : draft.diagnostics.toList = added := by simpa [Draft.start] using whole
  refine ⟨?_, ?_, ?_⟩
  · rw [noticed]
    exact ordered numbered.ordered
  · rw [noticed]
    intro diagnostic member
    obtain ⟨line, isLine, same⟩ := numbers diagnostic member
    rw [same]
    exact (numbered.numbers line.number).mp ⟨line, isLine, rfl⟩
  · intro position diagnostic present
    rw [noticed] at present
    exact Draft.convertFrom_records converted present (Nat.zero_le position)

/-- Line numbers are faithful. Of every source, and whether declarations are split or not, the
lines are prepared under numbers that go up from one to the number of lines and leave none out;
empty texts stand for the blank lines, one for one, and only a declaration that is to be split
gives more than one line. A source that holds anything is converted, and what is noticed stands
in the order of the lines, each notice under the number of the line that gave rise to it. -/
theorem line_numbers_are_faithful (source : String) :
    (∀ split, SourceLine.NumberedBy (Text.lines source) split (SourceLine.prepare source split)) ∧
      ∀ options,
        (∀ c ∈ source.toList, isBlank c = true) ∧ convert source options = .error .emptyInput ∨
          ∃ conversion, convert source options = .ok conversion ∧
            conversion.NoticedBy source options := by
  refine ⟨SourceLine.prepare_numberedBy source, fun options => ?_⟩
  by_cases blank : ∀ c ∈ source.toList, isBlank c = true
  · exact .inl ⟨blank, convert_blank options blank⟩
  · obtain ⟨conversion, done⟩ := convert_visible options (by simpa using blank)
    exact .inr ⟨conversion, done, convert_noticedBy done⟩

end BasicToSharp
