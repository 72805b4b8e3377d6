import BasicToSharp.Conversion
import BasicToSharp.Proofs.LeadingWords
import BasicToSharp.Proofs.LineStart

/-!
# The depth of braces

A line that starts with an opening brace goes one deeper, one that starts with a closing
brace comes one back, and every other line stays. Lines are balanced when no line comes
back from depth zero and the last one is back there. The depth of a draft is followed
through every way of writing a line, and laying the lines out does not change it.
-/

namespace BasicToSharp

open Text

/-- What a line does to the depth of braces. -/
inductive BraceMove
  | opens
  | closes
  | stays
  deriving DecidableEq, Repr

/-- What a line does to the depth, by its first visible character. -/
def braceMove (line : String) : BraceMove :=
  match firstVisible line with
  | some '\x7b' => .opens
  | some '\x7d' => .closes
  | _ => .stays

/-- The depth behind a line; there is none when the line closes what is not open. -/
def BraceMove.after : BraceMove → Nat → Option Nat
  | .opens, depth => some (depth + 1)
  | .closes, 0 => none
  | .closes, depth + 1 => some depth
  | .stays, depth => some depth

/-- The depth behind several lines. -/
def depthAfter (depth : Nat) (lines : List String) : Option Nat :=
  lines.foldlM (fun depth line => (braceMove line).after depth) depth

/-- Lines whose braces close in pairs: the depth never falls below zero and ends there. -/
def Balanced (lines : List String) : Prop := depthAfter 0 lines = some 0

instance (lines : List String) : Decidable (Balanced lines) :=
  inferInstanceAs (Decidable (depthAfter 0 lines = some 0))

/-- The depth behind the lines that a draft has written. -/
def Draft.depth (draft : Draft) : Option Nat := depthAfter 0 draft.output.toList

/-- The depth behind a line is that from which the others go on. -/
@[simp] theorem depthAfter_cons (depth : Nat) (line : String) (rest : List String) :
    depthAfter depth (line :: rest) =
      ((braceMove line).after depth).bind (depthAfter · rest) := rfl

/-- The depth depends on what the lines do to it and on nothing else. -/
theorem depthAfter_congr {lines lines' : List String} (depth : Nat)
    (same : lines.map braceMove = lines'.map braceMove) :
    depthAfter depth lines = depthAfter depth lines' := by
  have moves : ∀ lines : List String, depthAfter depth lines =
      (lines.map braceMove).foldlM (fun depth move => move.after depth) depth := by
    intro lines
    rw [List.foldlM_map]
    rfl
  rw [moves, moves, same]

/-- A line that starts plainly stays at its depth. -/
theorem braceMove_of_plain {line : String} (plain : startsPlain line = true) :
    braceMove line = .stays := by
  obtain ⟨c, found, noBrace⟩ := (Option.any_eq_true _ _).mp plain
  simp only [Bool.and_eq_true, bne_iff_ne, ne_eq] at noBrace
  simp [braceMove, found, noBrace]

section Lines

/-- A comment starts plainly. -/
theorem commentLine_plain (text : String) : startsPlain (commentLine text) = true := by
  unfold commentLine
  split
  · split
    · exact startsPlain_append (by decide) _
    · exact startsPlain_append (by decide) _
  · decide

/-- A statement that is passed through starts as its first token. -/
theorem statementLine_plain {tokens : List Token} (leads : leadsPlain tokens = true) :
    startsPlain (statementLine tokens) = true := by
  have plain := Expression.startsPlain_render leads
  unfold statementLine
  simp only
  split
  · exact plain
  · split
    · exact plain
    · exact startsPlain_append plain _

/-- An enumerator whose tokens lead with a plain one starts plainly. -/
theorem enumeratorLine_plain {tokens : List Token} (leads : leadsPlain tokens = true) :
    startsPlain (enumeratorLine tokens) = true := by
  have plain := Expression.startsPlain_render leads
  unfold enumeratorLine
  simp only
  split
  · exact plain
  · exact startsPlain_append plain _

/-- The footer of a loop closes it, whatever its condition. -/
theorem loopFooter_closes (condition : String) : braceMove (loopFooter condition) = .closes := by
  have first : firstVisible (loopFooter condition) = some '\x7d' := by
    unfold loopFooter Phrase.render
    rw [Phrase.leadTokens_eq (show "\x7d".isEmpty = false by decide), List.singleton_append,
      Spacing.join, firstVisible_append, firstVisible_trim, firstVisible_append,
      show firstVisible "\x7d" = some '\x7d' by decide]
    rfl
  simp [braceMove, first]

/-- Whatever a `Loop` line says, it is written as a closer. -/
theorem readLoopEnd_closes (kind : Option DoKind) (tokens : List Token) :
    Reading.Yields (fun footer => braceMove footer = .closes) (readLoopEnd kind tokens) := by
  unfold readLoopEnd
  simp only
  split
  · exact .ok (by decide)
  · split
    · exact .ok (loopFooter_closes _)
    · split
      · exact .bind fun _ _ => .bind fun _ _ => .ok (loopFooter_closes _)
      · split
        · exact .bind fun _ _ => .bind fun _ _ => .ok (loopFooter_closes _)
        · exact Reading.yields_refuse _ _ _

/-- A header keeps its start when a base type is added to it. -/
theorem braceMove_addBase (header base : String) :
    braceMove (addBase header base) = braceMove header := by
  have added : braceMove ((if hasBaseMark header.toList then ", " else " : ") ++ base) =
      .stays := by
    refine braceMove_of_plain (startsPlain_append ?_ base)
    split <;> decide
  unfold addBase
  rw [String.append_assoc]
  unfold braceMove at added ⊢
  rw [firstVisible_append]
  cases firstVisible header with
  | some c => rfl
  | none => exact added

/-- Base types are added behind a header and keep its start. -/
theorem braceMove_addBases (bases : List String) (header : String) :
    braceMove (bases.foldl addBase header) = braceMove header := by
  induction bases generalizing header with
  | nil => rfl
  | cons base rest inductionHypothesis =>
    rw [List.foldl_cons, inductionHypothesis, braceMove_addBase]

end Lines

namespace Draft

variable {draft : Draft} {line : String}

/-- What a written line does to the depth. -/
theorem depth_emit (draft : Draft) (line : String) :
    (draft.emit line).depth = draft.depth.bind (braceMove line).after := by
  simp [depth, depthAfter]

/-- A line without a brace at its start keeps the depth. -/
theorem depth_emit_stays (stays : braceMove line = .stays) :
    (draft.emit line).depth = draft.depth := by
  rw [depth_emit, stays]
  cases draft.depth <;> rfl

/-- A line that starts plainly keeps the depth. -/
theorem depth_emit_plain (plain : startsPlain line = true) :
    (draft.emit line).depth = draft.depth :=
  depth_emit_stays (braceMove_of_plain plain)

/-- A closer comes back from a block that is open. -/
theorem depth_emit_closes {depth : Nat} (closes : braceMove line = .closes)
    (deep : draft.depth = some (depth + 1)) : (draft.emit line).depth = some depth := by
  rw [depth_emit, closes, deep]
  rfl

/-- A header with its brace goes one deeper. -/
theorem depth_openBrace {depth : Nat} (plain : startsPlain line = true)
    (here : draft.depth = some depth) : (draft.openBrace line).depth = some (depth + 1) := by
  rw [openBrace, depth_emit, depth_emit_plain plain, here]
  rfl

/-- Replacing a line by one that starts alike keeps the depth. -/
theorem depth_replace {index : Nat} {old new : String} (found : draft.output[index]? = some old)
    (same : braceMove new = braceMove old) :
    { draft with output := draft.output.setIfInBounds index new }.depth = draft.depth := by
  apply depthAfter_congr
  obtain ⟨bound, here⟩ := Array.getElem?_eq_some_iff.mp found
  have inside : index < (draft.output.toList.map braceMove).length := by simpa using bound
  have kept : braceMove old = (draft.output.toList.map braceMove)[index] := by simp [← here]
  simp only [Array.toList_setIfInBounds, List.map_set, same]
  rw [kept, List.set_getElem_self]

end Draft

namespace Layout

/-- Moving `static` moves no brace to the start of a line or away from it. -/
theorem braceMove_reorderLine (line : String) :
    braceMove (reorderLine line) = braceMove line := by
  have words : Vocabulary.visibilities.all startsPlain = true := by decide
  have stays : ∀ {line first second rest : String}, LeadingWords line first second rest →
      startsPlain first = true → braceMove line = .stays := by
    intro line first second rest leading plain
    rw [leading.text, String.append_assoc, String.append_assoc]
    exact braceMove_of_plain (startsPlain_append plain _)
  have done := reordered_reorderLine line
  generalize reorderLine line = reordered at done ⊢
  cases done with
  | exchanged before visibility after =>
    have plain := List.all_eq_true.mp words _ (List.contains_iff_mem.mp visibility)
    rw [stays before (by decide), stays after plain]
  | unchanged => rfl

/-- An indentation by blanks is blank. -/
theorem all_indentation {unit : String} (blank : unit.toList.all isBlank = true) (depth : Nat) :
    (indentation unit depth).toList.all isBlank = true := by
  induction depth with
  | zero => rfl
  | succ depth inductionHypothesis =>
    rw [indentation, List.replicate_succ, String.join_cons, String.toList_append, List.all_append,
      blank]
    exact inductionHypothesis

/-- An indentation by blanks shows nothing. -/
theorem firstVisible_indentation {unit : String} (blank : unit.toList.all isBlank = true)
    (depth : Nat) : firstVisible (indentation unit depth) = none := by
  rw [firstVisible, List.find?_eq_none]
  intro c member
  simp [List.all_eq_true.mp (all_indentation blank depth) c member]

/-- Indentation by blanks keeps the depth of braces, and so does tidying blank lines. -/
theorem depthAfter_indentFrom {unit : String} (blank : unit.toList.all isBlank = true)
    (lines : List String) (level : Nat) (gap : Bool) (depth : Nat) :
    depthAfter depth (indentFrom unit level gap lines) = depthAfter depth lines := by
  have empty : braceMove "" = .stays := by decide
  induction lines generalizing level gap depth with
  | nil => rfl
  | cons line rest inductionHypothesis =>
    unfold indentFrom
    split
    · next isEmpty =>
      rw [String.isEmpty_iff.mp isEmpty, depthAfter_cons, empty, inductionHypothesis]
      rfl
    · have indented : ∀ level, braceMove (indentation unit level ++ line) = braceMove line := by
        intro level
        unfold braceMove
        rw [firstVisible_append, firstVisible_indentation blank, Option.none_or]
      simp only
      split
      · simp only [depthAfter_cons, empty, BraceMove.after, Option.bind_some, indented,
          inductionHypothesis]
      · simp only [depthAfter_cons, indented, inductionHypothesis]

/-- Indenting lines by blanks keeps the depth. -/
theorem depthAfter_indent {unit : String} (blank : unit.toList.all isBlank = true)
    (lines : List String) (depth : Nat) :
    depthAfter depth (indent lines unit) = depthAfter depth lines := by
  rw [indent, depthAfter_indentFrom blank]
  induction lines with
  | nil => rfl
  | cons line rest inductionHypothesis =>
    by_cases isEmpty : line.isEmpty = true
    · rw [List.dropWhile_cons_of_pos isEmpty, inductionHypothesis, depthAfter_cons,
        String.isEmpty_iff.mp isEmpty, show braceMove "" = .stays by decide]
      rfl
    · rw [List.dropWhile_cons_of_neg isEmpty]

end Layout

/-- The order of words does not matter to the depth. -/
theorem Draft.depthAfter_ordered (draft : Draft) : depthAfter 0 draft.ordered = draft.depth := by
  unfold ordered
  split
  · apply depthAfter_congr
    simp [Layout.reorderStatic, Layout.braceMove_reorderLine]
  · rfl

/-- The finished file has the depth of the draft, if its indentation is blank. -/
theorem Draft.depthAfter_finish {draft : Draft}
    (blank : draft.options.indent.toList.all isBlank = true) :
    depthAfter 0 draft.finish.lines = draft.depth := by
  rw [finish, Layout.depthAfter_indent blank, depthAfter_ordered]

end BasicToSharp
