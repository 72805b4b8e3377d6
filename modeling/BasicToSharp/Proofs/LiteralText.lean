import BasicToSharp.Proofs.RuleAgreement

/-!
# The text of literals does not steer the conversion

Take a draft that some conversion has reached and two lines that differ only in the text
of their string literals. Converting one or the other accepts the same statement or
refuses it for the same cause, and leaves drafts of one shape: whatever a literal says, a
keyword, a bracket, a number, it opens no block, declares no name and causes no notice.

What is needed of the draft is only that its enumerators have plain names. This holds of
every draft that is reached, and keeps the value of an enumerator, when it is a literal,
from being taken for the name of an earlier one.
-/

namespace BasicToSharp

open Token (Alike AlikeFrom Outside)

namespace Token

/-- True of a position strictly inside a literal: its token is no quote, and the quotes
before it leave a literal open. -/
def InLiteral (tokens : List Token) (index : Nat) : Prop :=
  tokenAt tokens index ≠ quote ∧ ¬ Outside tokens index

instance (tokens : List Token) (index : Nat) : Decidable (InLiteral tokens index) :=
  inferInstanceAs (Decidable (_ ≠ _ ∧ ¬ _ = false))

/-- Equally many tokens, which are the same except strictly inside literals. -/
structure DifferInLiterals (left right : List Token) : Prop where
  length_eq : left.length = right.length
  same : ∀ index < left.length, tokenAt left index = tokenAt right index ∨
    InLiteral left index ∧ InLiteral right index

instance (left right : List Token) : Decidable (DifferInLiterals left right) :=
  decidable_of_iff (left.length = right.length ∧
      ∀ index < left.length, tokenAt left index = tokenAt right index ∨
        InLiteral left index ∧ InLiteral right index)
    ⟨fun ⟨length_eq, same⟩ => ⟨length_eq, same⟩, fun ⟨length_eq, same⟩ => ⟨length_eq, same⟩⟩

/-- A walk along two lists of equal length keeps them alike as long as each position has
the same token on both sides, or plain tokens inside a literal of both. -/
theorem alikeFrom_of_positions {inside : Bool} {left right : List Token}
    (length : left.length = right.length)
    (same : ∀ index, tokenAt left index = tokenAt right index ∨
      (tokenAt left index ≠ quote ∧ insideAfter inside (left.take index) = true) ∧
        tokenAt right index ≠ quote ∧ insideAfter inside (right.take index) = true) :
    AlikeFrom inside left right := by
  induction left generalizing inside right with
  | nil =>
    rw [List.length_eq_zero_iff.mp length.symm]
    exact .nil inside
  | cons one restLeft inductionHypothesis =>
    obtain ⟨other, restRight, rfl⟩ : ∃ other rest, right = other :: rest := by
      cases right with
      | nil => cases length
      | cons other rest => exact ⟨other, rest, rfl⟩
    have lengthRest : restLeft.length = restRight.length := Nat.succ.inj length
    -- The next positions are judged from behind the first token.
    have rest : ∀ next, (if one = quote then !inside else inside) = next →
        (if other = quote then !inside else inside) = next →
        AlikeFrom next restLeft restRight := by
      rintro next rfl agrees
      apply inductionHypothesis lengthRest
      intro index
      have later := same (index + 1)
      simp only [List.take_succ_cons, insideAfter_cons, agrees] at later
      exact later
    rcases same 0 with equal | ⟨⟨plain, isInside⟩, plain', -⟩
    · have equal : one = other := equal
      subst equal
      by_cases isQuote : one = quote
      · subst isQuote
        exact .toggle (rest (!inside) (by simp) (by simp))
      · cases inside with
        | false => exact .code isQuote (rest false (by simp [isQuote]) (by simp [isQuote]))
        | true => exact .literal isQuote isQuote (rest true (by simp [isQuote]) (by simp [isQuote]))
    · have plain : one ≠ quote := plain
      have plain' : other ≠ quote := plain'
      have isInside : inside = true := isInside
      subst isInside
      exact .literal plain plain' (rest true (by simp [plain]) (by simp [plain']))

/-- Lists that differ only strictly inside literals are alike. -/
theorem DifferInLiterals.alike {left right : List Token} (differ : DifferInLiterals left right) :
    Alike left right := by
  apply alikeFrom_of_positions differ.length_eq
  intro index
  by_cases within : index < left.length
  · rcases differ.same index within with equal | ⟨⟨plain, inner⟩, plain', inner'⟩
    · exact .inl equal
    · exact .inr ⟨⟨plain, by simpa [Outside] using inner⟩, plain', by simpa [Outside] using inner'⟩
  · have beyond : ¬ index < right.length := differ.length_eq ▸ within
    exact .inl (by simp [tokenAt, within, beyond])

end Token

/-- The drafts that a conversion can come to: the start, and from there any line at any
place. -/
inductive Draft.Reached : Draft → Prop
  | start (options : Options) (input : List SourceLine) : Reached (Draft.start options input)
  | moveTo {draft : Draft} (reached : Reached draft) (cursor : Nat) (line : SourceLine) :
      Reached (draft.moveTo cursor line)
  | line {draft after : Draft} {text : String} (reached : Reached draft)
      (converted : draft.convertLine text = .ok after) : Reached after

/-- Along a conversion enums and enumerators have plain names. -/
theorem Draft.Reached.plainEnums {draft : Draft} (reached : draft.Reached) :
    draft.PlainEnums := by
  induction reached with
  | start options input => nofun
  | moveTo _ _ _ inductionHypothesis => exact inductionHypothesis
  | line _ converted inductionHypothesis =>
    exact (Draft.convertLine_frame converted).2.2 inductionHypothesis

section Lines

variable {draft : Draft} {left right : String}

/-- Two lines of one kind whose tokens are alike have rules with outcomes of one kind. -/
theorem lineRule_same (plain : draft.PlainEnums) (code : lineStatement left ≠ .comment)
    (kind : lineStatement left = lineStatement right)
    (alike : Alike (lineTokens left) (lineTokens right)) :
    SameOutcome draft (((lineStatement left).rule left (lineTokens left)).run draft)
      (((lineStatement right).rule right (lineTokens right)).run draft) := by
  rw [← kind]
  by_cases unknown : lineStatement left = .other
  · simp only [unknown, Statement.rule, Rule.passThrough_run]
    exact .accepted (Draft.shape_passLine plain alike)
  · exact (lineStatement left).rule_same draft right alike
      (Statement.classify_form left (lineTokens left)) code unknown

/-- Two lines that are alike are refused for the same cause or not at all, and leave drafts
of one shape. A refused line is passed through under the same report. -/
theorem Draft.convertLine_same (plain : draft.PlainEnums)
    (outcomes : SameOutcome draft (((lineStatement left).rule left (lineTokens left)).run draft)
      (((lineStatement right).rule right (lineTokens right)).run draft))
    (alike : Alike (lineTokens left) (lineTokens right)) :
    draft.refusal left = draft.refusal right ∧
      ∃ after after', draft.convertLine left = .ok after ∧
        draft.convertLine right = .ok after' ∧ after.shape = after'.shape := by
  generalize one : ((lineStatement left).rule left (lineTokens left)).run draft = outcome at outcomes
  generalize other : ((lineStatement right).rule right (lineTokens right)).run draft = outcome'
    at outcomes
  cases outcomes with
  | accepted same =>
    refine ⟨by simp [refusal, one, other], _, _, convertLine_accepted one,
      convertLine_accepted other, same⟩
  | refused cause =>
    refine ⟨by simp [refusal, one, other], _, _, convertLine_refused one,
      convertLine_refused other, ?_⟩
    have plainReport : (draft.report (.malformed cause)).PlainEnums := plain
    exact shape_passLine plainReport alike

/-- The text of literals does not steer the conversion. Let two lines, neither of them a
comment, have the same tokens except strictly inside literals. From any draft that is
reached they are statements of one kind, they are both accepted or both refused for the
same cause, and the drafts after them have one shape. -/
theorem literal_text_keeps_shape (reached : draft.Reached)
    (code : lineStatement left ≠ .comment) (code' : lineStatement right ≠ .comment)
    (differ : Token.DifferInLiterals (Token.tokenize left) (Token.tokenize right)) :
    lineStatement left = lineStatement right ∧ draft.refusal left = draft.refusal right ∧
      ∃ after after', draft.convertLine left = .ok after ∧
        draft.convertLine right = .ok after' ∧ after.shape = after'.shape := by
  have alike : Alike (lineTokens left) (lineTokens right) :=
    Alike.concatenations_alike differ.alike
  have kind : lineStatement left = lineStatement right :=
    Statement.classify_alike alike code code'
  have plain := reached.plainEnums
  exact ⟨kind, Draft.convertLine_same plain (lineRule_same plain code kind alike) alike⟩

/-- A literal that spells a keyword, or a bracket and another keyword, leaves a branch what
it is. -/
theorem literal_text_keeps_shape_of_branch :
    (Draft.start {} []).Reached ∧
      Token.DifferInLiterals (Token.tokenize "If s = \"Then\" Then")
        (Token.tokenize "If s = \") Else\" Then") ∧
      lineStatement "If s = \"Then\" Then" = lineStatement "If s = \") Else\" Then" ∧
      (Draft.start {} []).refusal "If s = \"Then\" Then" =
        (Draft.start {} []).refusal "If s = \") Else\" Then" ∧
      ∃ after after', (Draft.start {} []).convertLine "If s = \"Then\" Then" = .ok after ∧
        (Draft.start {} []).convertLine "If s = \") Else\" Then" = .ok after' ∧
        after.shape = after'.shape := by
  have reached : (Draft.start {} []).Reached := .start {} []
  have differ : Token.DifferInLiterals (Token.tokenize "If s = \"Then\" Then")
      (Token.tokenize "If s = \") Else\" Then") := by decide +kernel
  exact ⟨reached, differ,
    literal_text_keeps_shape reached (by decide +kernel) (by decide +kernel) differ⟩

end Lines

end BasicToSharp
