import BasicToSharp.Proofs.RuleAgreement

/-!
# A refused line

A rule either accepts its line, and then the conversion of the line is what the rule has
left, or refuses it. A refusal comes before anything is written: the draft left behind is
the one that the rule was given, with its open blocks, symbols, lines and notices. The
line is then passed through from that draft under one report, which names the construct
and the reason of the refusal and the number of the line.

So the report of a malformed line stands for a refusal and for nothing else: an accepted
line adds none, and a refused line adds one.
-/

namespace BasicToSharp

/-- Converting a line is what its rule does, or, when the rule refuses, one report and the
line passed through, on the draft as it was before. No third outcome exists. -/
theorem refused_line_is_reported_and_passed_through (draft : Draft) (text : String) :
    match ((lineStatement text).rule text (lineTokens text)).run draft with
    | .ok () after =>
      draft.convertLine text = .ok after ∧
        ∃ added : List Diagnostic,
          after.diagnostics.toList = draft.diagnostics.toList ++ added ∧
          ∀ diagnostic ∈ added, ∀ cause, diagnostic.notice ≠ .malformed cause
    | .error (.malformed cause) left =>
      left = draft ∧
        ∃ (after : Draft) (words : List Diagnostic),
          (Rule.passThrough (lineTokens text)).run
            { draft with
              diagnostics := draft.diagnostics.push ⟨draft.line, .malformed cause⟩ } =
            .ok () after ∧
          draft.convertLine text = .ok after ∧
          after.diagnostics.toList =
            draft.diagnostics.toList ++ ⟨draft.line, .malformed cause⟩ :: words ∧
          ∀ diagnostic ∈ words, ∃ word, diagnostic.notice = .unregisteredWord word
    | .error .outOfRange _ => False := by
  match ran : ((lineStatement text).rule text (lineTokens text)).run draft with
  | .ok () after =>
    obtain ⟨notices, continues, sound⟩ := Statement.rule_continues _ ran
    refine ⟨Draft.convertLine_accepted ran, notices.map (Diagnostic.mk draft.line), ?_, ?_⟩
    · simp [continues.diagnostics]
    · intro diagnostic member
      obtain ⟨notice, added, rfl⟩ := List.mem_map.mp member
      exact sound notice added
  | .error (.malformed cause) left =>
    obtain ⟨words, continues⟩ := Draft.Continues.passLine (draft.report (.malformed cause))
      (lineTokens text)
    refine ⟨Statement.rule_error _ ran, _,
      (words.map Notice.unregisteredWord).map (Diagnostic.mk draft.line),
      Rule.passThrough_run _ _, Draft.convertLine_refused ran, ?_, ?_⟩
    · have diagnostics := congrArg Array.toList continues.diagnostics
      simpa [Draft.report] using diagnostics
    · intro diagnostic member
      obtain ⟨notice, reported, rfl⟩ := List.mem_map.mp member
      obtain ⟨word, -, rfl⟩ := List.mem_map.mp reported
      exact ⟨word, rfl⟩
  | .error .outOfRange left => exact lineRule_in_range draft left text ran

example : (Draft.start {} []).refusal "Public Class" = some ⟨.classHeader, .missingName⟩ := by
  decide +kernel

end BasicToSharp
