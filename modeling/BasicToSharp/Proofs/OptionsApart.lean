import BasicToSharp.Proofs.Transplant

/-!
# Options do not leak into the conversion

Of the options, only whether declarations are split changes what lines there are to convert.
The others say how the result is laid out and whether unknown words are reported. Conversions
of one source under options that split alike therefore go through the same drafts, in
surroundings of their own: they end with the same open blocks, symbols and lines, and each
lays these lines out by its own options.
-/

namespace BasicToSharp

/-- The draft at which the conversion of a source ends. -/
def lastDraft (source : String) (options : Options) : Except RangeFault Draft :=
  let input := SourceLine.prepare source options.splitDeclarations
  (Draft.start options input).convertFrom 0 input

/-- The lines of a conversion, from the lines written. -/
def Options.layOut (options : Options) (lines : List String) : List String :=
  Layout.indent (if options.reorderStatic then Layout.reorderStatic lines else lines)
    options.indent

/-- A source that holds something is converted by laying out what its last draft holds. -/
theorem convert_of_lastDraft {source : String} {options : Options} {draft : Draft}
    (filled : (SourceLine.prepare source options.splitDeclarations).all (·.text.isEmpty) = false)
    (ends : lastDraft source options = .ok draft) :
    convert source options =
      .ok ⟨options.layOut draft.output.toList, draft.diagnostics.toList⟩ := by
  have kept : draft.options = options := Draft.convertFrom_options ends
  unfold lastDraft at ends
  simp only [convert, filled, Bool.false_eq_true, if_false]
  rw [ends]
  simp [Draft.finish, Draft.ordered, Options.layOut, kept]

/-- Two conversions of one source, under options that agree on splitting declarations, both
fail or both succeed. If they succeed, they end with the same open blocks, the same symbols
and the same lines written; each result is these lines in the layout of its own options; and
the diagnostics are the same but for unknown words, of which there are none where they are
not to be reported. -/
theorem options_do_not_leak (source : String) (one other : Options)
    (same : one.splitDeclarations = other.splitDeclarations) :
    (∃ error, convert source one = .error error ∧ convert source other = .error error) ∨
    ∃ (draft draft' : Draft) (written : List String),
      lastDraft source one = .ok draft ∧ lastDraft source other = .ok draft' ∧
      draft'.nesting = draft.nesting ∧ draft'.symbols = draft.symbols ∧
      draft.output.toList = written ∧ draft'.output.toList = written ∧
      convert source one = .ok ⟨one.layOut written, draft.diagnostics.toList⟩ ∧
      convert source other = .ok ⟨other.layOut written, draft'.diagnostics.toList⟩ ∧
      draft'.diagnostics.toList.filter (!·.notice.isUnregistered) =
        draft.diagnostics.toList.filter (!·.notice.isUnregistered) ∧
      (one.reportUnregistered = false →
        ∀ diagnostic ∈ draft.diagnostics.toList, diagnostic.notice.isUnregistered = false) ∧
      (other.reportUnregistered = false →
        ∀ diagnostic ∈ draft'.diagnostics.toList, diagnostic.notice.isUnregistered = false) := by
  cases blank : (SourceLine.prepare source one.splitDeclarations).all (·.text.isEmpty) with
  | true =>
    refine .inl ⟨.emptyInput, ?_, ?_⟩
    · simp [convert, blank]
    · simp [convert, ← same, blank]
  | false =>
    let input := SourceLine.prepare source one.splitDeclarations
    have alike : List.Forall₂ SourceLine.ReadsAlike input input :=
      List.forall₂_same.mpr fun line _ => .refl line
    have begun : SameNotices one other #[] #[] :=
      ⟨rfl, fun _ => rfl, fun _ => by simp, fun _ => by simp⟩
    obtain ⟨draft, diagnostics, notices, ends, parallel⟩ :=
      (Draft.start one input).convertFrom_transplant 0 alike alike begun
    have ends' : lastDraft source other = .ok (draft.transplant other input diagnostics) := by
      unfold lastDraft
      rw [← same]
      exact parallel
    refine .inr ⟨draft, draft.transplant other input diagnostics, draft.output.toList, ends, ends',
      rfl, rfl, rfl, rfl, convert_of_lastDraft blank ends,
      convert_of_lastDraft (same ▸ blank) ends', notices.known, ?_, ?_⟩
    · simpa [Draft.start] using notices.silent
    · simpa [Draft.transplant] using notices.silent'

/-- Here the options differ in all that they may differ in, and one of two notices is about
an unknown word. -/
theorem options_do_not_leak_words :
    let source := "Next\nClass C\nShared Public q As Integer\nFrob(q)"
    let other : Options := { indent := "  ", reorderStatic := false, reportUnregistered := false }
    Options.splitDeclarations {} = other.splitDeclarations ∧
    ∃ draft draft' : Draft, lastDraft source {} = .ok draft ∧ lastDraft source other = .ok draft' ∧
      draft'.symbols = draft.symbols ∧ draft'.output.toList = draft.output.toList ∧
      draft.diagnostics.size = 2 ∧ draft'.diagnostics.size = 1 := by
  intro source other
  have computed : (convert source {}).toOption.map (·.diagnostics.length) = some 2 ∧
      (convert source other).toOption.map (·.diagnostics.length) = some 1 := by decide +kernel
  refine ⟨rfl, ?_⟩
  rcases options_do_not_leak source {} other rfl with ⟨error, failed, -⟩ |
    ⟨draft, draft', written, ends, ends', -, symbols, output, output', converted, converted', -⟩
  · rw [failed] at computed
    cases computed.1
  · rw [converted, converted'] at computed
    refine ⟨draft, draft', ends, ends', symbols, output'.trans output.symm, ?_, ?_⟩
    · simpa [Except.toOption] using computed.1
    · simpa [Except.toOption] using computed.2

end BasicToSharp
