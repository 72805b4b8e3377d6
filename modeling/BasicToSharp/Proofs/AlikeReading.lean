import BasicToSharp.Conversion.Line
import BasicToSharp.Proofs.Alike
import BasicToSharp.Proofs.RuleOutcome
import BasicToSharp.Proofs.TypeReading

/-!
# Readings of lines that are alike

Every reader is run on two lists that are alike. The two readings agree: both succeed with
results that have the same shape, or both are refused for the same cause. Neither asks for
a part of the line that is not there; since every list is alike to itself, this says of
each reader on its own that it never leaves its line.

What has the same shape differs from reader to reader: types, names and positions are
equal, while texts that are only written out may hold the text of a literal and are not
compared.
-/

namespace BasicToSharp

open Token (Alike AlikeFrom AlikeParts Outside)

namespace Reading

variable {α β γ δ : Type}

/-- Both readings succeed with related results, or both are refused for the same cause. -/
def Agree (related : α → β → Prop) : Reading α → Reading β → Prop
  | .ok one, .ok other => related one other
  | .error (.malformed cause), .error (.malformed cause') => cause = cause'
  | _, _ => False

/-- Readings that agree, whatever their results. -/
abbrev AgreeLoosely (one : Reading α) (other : Reading β) : Prop :=
  Agree (fun _ _ => True) one other

/-- Results that are related agree. -/
theorem Agree.ok {related : α → β → Prop} {one : α} {other : β} (same : related one other) :
    Agree related (.ok one) (.ok other) := same

/-- Refusing for one reason agrees with refusing for it. -/
theorem agree_refuse (related : α → β → Prop) (construct : Construct) (reason : Reason) :
    Agree related (refuse construct reason) (refuse construct reason) := rfl

/-- Readings that agree both succeed with related results, or are refused for one cause. -/
theorem Agree.cases {related : α → β → Prop} {one : Reading α} {other : Reading β}
    (agree : Agree related one other) :
    (∃ value value', one = .ok value ∧ other = .ok value' ∧ related value value') ∨
      ∃ cause, one = .error (.malformed cause) ∧ other = .error (.malformed cause) := by
  unfold Agree at agree
  split at agree
  · exact .inl ⟨_, _, rfl, rfl, agree⟩
  · exact .inr ⟨_, rfl, by rw [agree]⟩
  · exact agree.elim

/-- Agreement passes from a reading to what is done with its result. -/
theorem Agree.bind {related : α → β → Prop} {next : γ → δ → Prop} {one : Reading α}
    {other : Reading β} {further : α → Reading γ} {further' : β → Reading δ}
    (agree : Agree related one other)
    (rest : ∀ value value', related value value' → Agree next (further value) (further' value')) :
    Agree next (one >>= further) (other >>= further') := by
  rcases agree.cases with ⟨value, value', rfl, rfl, same⟩ | ⟨cause, rfl, rfl⟩
  · exact rest value value' same
  · exact rfl

/-- Agreement on more is agreement on less. -/
theorem Agree.mono {related weaker : α → β → Prop} {one : Reading α} {other : Reading β}
    (agree : Agree related one other)
    (weaken : ∀ value value', related value value' → weaker value value') :
    Agree weaker one other := by
  rcases agree.cases with ⟨value, value', rfl, rfl, same⟩ | ⟨cause, rfl, rfl⟩
  · exact weaken value value' same
  · exact rfl

/-- A value that both sides look for is the same on both. -/
theorem agree_require (value : Option α) (construct : Construct) (reason : Reason) :
    Agree (fun one other => one = other ∧ value = some one) (require value construct reason)
      (require value construct reason) := by
  cases value with
  | none => exact agree_refuse _ construct reason
  | some value => exact ⟨rfl, rfl⟩

/-- A reading that agrees with itself in some way gives the same on both sides. -/
theorem Agree.self {related : α → α → Prop} {reading : Reading α}
    (agree : Agree related reading reading) :
    Agree (fun one other => one = other) reading reading := by
  match reading, agree with
  | .ok _, _ => exact rfl
  | .error (.malformed _), _ => exact rfl

end Reading

open Reading (Agree AgreeLoosely agree_refuse agree_require)

section Slices

variable {left right tokens : List Token} {first last index : Nat}

/-- A slice within the tokens can be taken. -/
theorem slice_ok (ordered : first ≤ last) (within : last ≤ tokens.length) :
    Reading.slice tokens first last = .ok ((tokens.take last).drop first) := by
  simp [Reading.slice, ordered, within]

/-- A slice from an outside position is alike in both lines. -/
theorem slice_agree (alike : Alike left right) (outside : Outside left first)
    (ordered : first ≤ last) (within : last ≤ left.length) :
    Agree (fun one other => one = (left.take last).drop first ∧ Alike one other)
      (Reading.slice left first last) (Reading.slice right first last) := by
  have within' : last ≤ right.length := AlikeFrom.length_eq alike ▸ within
  rw [slice_ok ordered within, slice_ok ordered within']
  have outsideTaken : Outside (left.take last) first := by
    unfold Outside at outside ⊢
    rwa [List.take_take, Nat.min_eq_left ordered]
  exact ⟨rfl, Alike.drop (AlikeFrom.take alike last) outsideTaken⟩

/-- What stands from a position outside literals on is alike. -/
theorem sliceFrom_agree (alike : Alike left right) (outside : Outside left first)
    (within : first ≤ left.length) :
    Agree (fun one other => one = left.drop first ∧ Alike one other)
      (Reading.sliceFrom left first) (Reading.sliceFrom right first) := by
  have whole := slice_agree alike outside within (Nat.le_refl left.length)
  rw [List.take_length] at whole
  unfold Reading.sliceFrom
  rwa [← AlikeFrom.length_eq alike]

/-- What stands up to a position is alike. -/
theorem sliceUpTo_agree (alike : Alike left right) (within : last ≤ left.length) :
    Agree (fun one other => one = left.take last ∧ Alike one other)
      (Reading.sliceUpTo left last) (Reading.sliceUpTo right last) :=
  slice_agree alike (Token.outside_zero left) (Nat.zero_le last) within

/-- The token at a position outside literals is the same. -/
theorem token_agree (alike : Alike left right) (outside : Outside left index)
    (within : index < left.length) :
    Agree (fun one other => one = other ∧ one = tokenAt left index)
      (Reading.token left index) (Reading.token right index) := by
  have within' : index < right.length := AlikeFrom.length_eq alike ▸ within
  have same := Alike.tokenAt_eq alike outside
  simp only [tokenAt, List.getD_eq_getElem?_getD, List.getElem?_eq_getElem within,
    List.getElem?_eq_getElem within', Option.getD_some] at same
  simp [Reading.token, Agree, within, within', same, tokenAt]

end Slices

section Types

variable {γ δ : Type} {left right tokens : List Token} {index : Nat}

/-- The same type is read, up to the same position outside literals. -/
theorem typeRef_agree (alike : Alike left right) :
    Agree (fun one other => one = other ∧ one.2 ≤ left.length ∧ Outside left one.2)
      (Reading.typeRef left) (Reading.typeRef right) := by
  unfold Reading.typeRef
  rcases TypeRef.read_alike alike with ⟨cause, one, other⟩ |
    ⟨reference, used, one, other, within, outside⟩
  · rw [one, other]
    rfl
  · rw [one, other]
    exact ⟨rfl, within, outside⟩

/-- The same type is written, and what follows it is outside literals. -/
theorem typeText_agree (alike : Alike left right) :
    Agree (fun one other => one = other ∧ one.2 ≤ left.length ∧ Outside left one.2)
      (Reading.typeText left) (Reading.typeText right) := by
  apply Agree.bind (typeRef_agree alike)
  rintro ⟨reference, used⟩ _ ⟨rfl, within, outside⟩
  exact ⟨rfl, within, outside⟩

/-- A type at an outside position is the same in both lines, and what is done with it goes
on from an outside position. -/
theorem typeBehind_agree {related : γ → δ → Prop} {next : String × Nat → Reading γ}
    {next' : String × Nat → Reading δ} (alike : Alike left right)
    (outside : Outside left index) (within : index ≤ left.length)
    (rest : ∀ text used, index + used ≤ left.length → Outside left (index + used) →
      Agree related (next (text, used)) (next' (text, used))) :
    Agree related (do next (← Reading.typeText (← Reading.sliceFrom left index)))
      (do next' (← Reading.typeText (← Reading.sliceFrom right index))) := by
  apply Agree.bind (sliceFrom_agree alike outside within)
  rintro _ behind ⟨rfl, alikeBehind⟩
  apply Agree.bind (typeText_agree alikeBehind)
  rintro ⟨text, used⟩ _ ⟨rfl, withinUsed, outsideUsed⟩
  rw [List.length_drop] at withinUsed
  exact rest text used (by omega) (outside.add outsideUsed)

/-- A keyword at a position is a token of the line. -/
theorem lt_length_of_isKeyword {word : String}
    (isWord : Token.isKeyword (tokenAt tokens index) word = true)
    (filled : Token.isKeyword "" word = false) : index < tokens.length := by
  apply lt_length_of_tokenAt_ne
  intro empty
  rw [empty, filled] at isWord
  exact Bool.false_ne_true isWord

/-- The position behind a keyword at an outside position is outside. -/
theorem outside_behind_keyword {word : String} (outside : Outside tokens index)
    (isWord : Token.isKeyword (tokenAt tokens index) word = true)
    (plain : Token.isKeyword Token.quote word = false) : Outside tokens (index + 1) := by
  apply outside.succ
  intro isQuote
  rw [isQuote, plain] at isWord
  exact Bool.false_ne_true isWord

/-- The position behind a given token, which is no quote, is outside. -/
theorem outside_behind_token {token : Token} (outside : Outside tokens index)
    (isToken : tokenAt tokens index = token) (plain : token ≠ Token.quote) :
    Outside tokens (index + 1) :=
  outside.succ (isToken ▸ plain)

/-- What stands behind a name outside literals is outside too. -/
theorem outside_behind_name (outside : Outside tokens index)
    (named : Token.isIdentifier (tokenAt tokens index) = true) : Outside tokens (index + 1) :=
  outside.succ (TypeRef.plain_of_identifier named)

/-- A position with a token on it is within the line. -/
theorem lt_length_of_token {token : Token} (isToken : tokenAt tokens index = token)
    (filled : token ≠ "") : index < tokens.length :=
  lt_length_of_tokenAt_ne (isToken ▸ filled)

/-- What stands behind a keyword at an outside position is alike in both lines. -/
theorem behindKeyword_agree {related : γ → δ → Prop} {next : List Token → Reading γ}
    {next' : List Token → Reading δ} {word : String} (alike : Alike left right)
    (outside : Outside left index)
    (isWord : Token.isKeyword (tokenAt left index) word = true)
    (filled : Token.isKeyword "" word = false)
    (plain : Token.isKeyword Token.quote word = false)
    (rest : ∀ behind behind', Alike behind behind' → Agree related (next behind) (next' behind')) :
    Agree related (do next (← Reading.sliceFrom left (index + 1)))
      (do next' (← Reading.sliceFrom right (index + 1))) := by
  apply Agree.bind (sliceFrom_agree alike (outside_behind_keyword outside isWord plain)
    (lt_length_of_isKeyword isWord filled))
  rintro _ behind ⟨rfl, alikeBehind⟩
  exact rest _ behind alikeBehind

/-- What stands in the parentheses that open at an outside position is alike in both lines,
and the position behind them is outside. -/
theorem parenthesized_agree {related : γ → δ → Prop} {next : Nat → List Token → Reading γ}
    {next' : Nat → List Token → Reading δ} {construct : Construct} {reason : Reason}
    (alike : Alike left right) (outside : Outside left index)
    (opened : tokenAt left index = "(")
    (rest : ∀ close inner inner', Outside left (close + 1) → Alike inner inner' →
      Agree related (next close inner) (next' close inner')) :
    Agree related
      (do
        let close ← Reading.require (Token.closing left index) construct reason
        next close (← Reading.slice left (index + 1) close))
      (do
        let close ← Reading.require (Token.closing right index) construct reason
        next' close (← Reading.slice right (index + 1) close)) := by
  rw [← Alike.closing_eq alike outside]
  apply Agree.bind (agree_require _ _ _)
  rintro close _ ⟨rfl, found⟩
  obtain ⟨order, short, closeOutside, closes⟩ := Token.closing_some opened outside found
  apply Agree.bind (slice_agree alike (outside_behind_token outside opened (by decide)) order
    (Nat.le_of_lt short))
  rintro _ inner ⟨rfl, alikeInner⟩
  exact rest close _ inner (outside_behind_token closeOutside closes (by decide)) alikeInner

end Types

section Conditions

variable {left right : List Token}

/-- Lists that are alike are both empty or both not. -/
theorem isEmpty_eq (alike : Alike left right) : left.isEmpty = right.isEmpty := by
  cases alike <;> rfl

/-- Stripping outer parentheses keeps conditions alike. -/
theorem stripParentheses_agree (alike : Alike left right) :
    Agree Alike (stripParentheses left) (stripParentheses right) := by
  have start := Token.outside_zero left
  unfold stripParentheses
  rw [← Alike.tokenAt_eq alike start, ← Alike.closing_eq alike start,
    ← AlikeFrom.length_eq alike]
  split
  · next wrapped =>
    obtain ⟨order, short, -, -⟩ := Token.closing_some wrapped.1 start wrapped.2
    have outside := outside_behind_token start wrapped.1 (by decide)
    exact (slice_agree alike outside (by omega) (by omega)).mono fun _ _ same => same.2
  · exact Agree.ok alike

/-- Conditions that are alike are read alike, or refused for the same cause. -/
theorem readCondition_agree (construct : Construct) (alike : Alike left right) :
    Agree Alike (readCondition construct left) (readCondition construct right) := by
  apply Agree.bind (stripParentheses_agree alike)
  intro inner inner' alikeInner
  rw [isEmpty_eq alikeInner]
  split
  · exact agree_refuse _ construct _
  · exact Agree.ok alikeInner

/-- However it is written, a condition is accepted on both sides, or refused for the same cause. -/
theorem conditionBy_agree (write : List Token → String) (construct : Construct)
    (alike : Alike left right) :
    AgreeLoosely (conditionBy write construct left) (conditionBy write construct right) :=
  (readCondition_agree construct alike).bind fun _ _ _ => trivial

end Conditions

section Branches

variable {left right : List Token}

/-- `Return` lines that are alike are accepted, or refused for the same cause. -/
theorem returnStatement_agree (alike : Alike left right) (filled : 0 < left.length) :
    AgreeLoosely (returnStatement left) (returnStatement right) := by
  have filled' : 0 < right.length := AlikeFrom.length_eq alike ▸ filled
  unfold returnStatement Reading.sliceFrom
  rw [slice_ok filled (Nat.le_refl _), slice_ok filled' (Nat.le_refl _)]
  simp only [Reading.ok_bind]
  split <;> split <;> trivial

/-- `Exit` lines that are alike are accepted, or refused for the same cause. -/
theorem exitStatement_agree (alike : Alike left right) (outside : Outside left 1) :
    AgreeLoosely (exitStatement left) (exitStatement right) := by
  unfold exitStatement
  rw [Alike.tokenAt_eq alike outside]
  split <;> first | exact Agree.ok True.intro | exact agree_refuse _ _ _

/-- The statements of a branch are accepted, or refused for the same cause. -/
theorem branchStatement_agree (alike : Alike left right) :
    AgreeLoosely (branchStatement left) (branchStatement right) := by
  have start := Token.outside_zero left
  unfold branchStatement
  rw [← Alike.tokenAt_eq alike start]
  split
  · exact agree_refuse _ _ _
  · next isReturn => exact returnStatement_agree alike (lt_length_of_token isReturn (by decide))
  · next isExit => exact exitStatement_agree alike (outside_behind_token start isExit (by decide))
  · trivial

/-- The branches behind `Then` are accepted, or refused for the same cause. -/
theorem branchesText_agree (alike : Alike left right) :
    AgreeLoosely (branchesText left) (branchesText right) := by
  have sameElse : Token.findKeyword left "Else" = Token.findKeyword right "Else" :=
    Alike.findUnquoted_eq alike _
  unfold branchesText
  rw [← sameElse]
  split
  · next index found =>
    obtain ⟨within, outside, plain, -⟩ := Token.findUnquoted_some found
    apply Agree.bind (sliceUpTo_agree alike (Nat.le_of_lt within))
    rintro _ before ⟨rfl, alikeBefore⟩
    apply Agree.bind (branchStatement_agree alikeBefore)
    intro first first' _
    apply Agree.bind (sliceFrom_agree alike (outside.succ plain) within)
    rintro _ behind ⟨rfl, alikeBehind⟩
    exact (branchStatement_agree alikeBehind).bind fun _ _ _ => trivial
  · exact branchStatement_agree alike

/-- Both lines open a block, or neither does. -/
def IfLine.SameForm : IfLine → IfLine → Prop
  | .block _, .block _ => True
  | .statement _, .statement _ => True
  | _, _ => False

/-- `If` lines that are alike both open a block or are both written as statements. -/
theorem IfLine.read_agree (alike : Alike left right) (isIf : tokenAt left 0 = "If") :
    Agree IfLine.SameForm (IfLine.read left) (IfLine.read right) := by
  have sameThen : Token.findKeyword left "Then" = Token.findKeyword right "Then" :=
    Alike.findUnquoted_eq alike _
  have filled : 0 < left.length := lt_length_of_token isIf (by decide)
  have behindIf : Outside left 1 :=
    outside_behind_token (Token.outside_zero left) isIf (by decide)
  unfold IfLine.read
  rw [← sameThen]
  split
  · apply Agree.bind (sliceFrom_agree alike behindIf filled)
    rintro _ behind ⟨rfl, alikeBehind⟩
    exact (conditionBy_agree _ _ alikeBehind).bind fun _ _ _ => trivial
  · next index found =>
    obtain ⟨within, outside, plain, isThen⟩ := Token.findUnquoted_some found
    have positive : 1 ≤ index := by
      rcases Nat.eq_zero_or_pos index with rfl | positive
      · rw [isIf] at isThen
        exact absurd isThen (by decide)
      · exact positive
    apply Agree.bind (slice_agree alike behindIf positive (Nat.le_of_lt within))
    rintro _ between ⟨rfl, alikeBetween⟩
    apply Agree.bind (conditionBy_agree _ _ alikeBetween)
    intro condition condition' _
    apply Agree.bind (sliceFrom_agree alike (outside.succ plain) within)
    rintro _ behind ⟨rfl, alikeBehind⟩
    rw [isEmpty_eq alikeBehind]
    split
    · trivial
    · exact (branchesText_agree alikeBehind).bind fun _ _ _ => trivial

/-- An `ElseIf` branch starts with that word or with the two words `Else If`. -/
theorem elseIfHeader_agree (alike : Alike left right)
    (isBranch : tokenAt left 0 = "ElseIf" ∨ tokenAt left 0 = "Else" ∧ tokenAt left 1 = "If") :
    AgreeLoosely (elseIfHeader left) (elseIfHeader right) := by
  have start := Token.outside_zero left
  have sameThen : Token.findKeyword left "Then" = Token.findKeyword right "Then" :=
    Alike.findUnquoted_eq alike _
  have filled : 0 < left.length := by
    rcases isBranch with isElseIf | ⟨isElse, -⟩
    · exact lt_length_of_token isElseIf (by decide)
    · exact lt_length_of_token isElse (by decide)
  -- The words before the condition are no quotes, so the condition starts outside literals.
  have skipped : ∀ skip, skip = (if tokenAt left 0 = "Else" then 2 else 1) →
      skip ≤ left.length ∧ Outside left skip := by
    rintro _ rfl
    rcases isBranch with isElseIf | ⟨isElse, isIf⟩
    · rw [if_neg (by rw [isElseIf]; decide)]
      exact ⟨filled, outside_behind_token start isElseIf (by decide)⟩
    · rw [if_pos isElse]
      have behindElse := outside_behind_token start isElse (by decide)
      exact ⟨lt_length_of_token isIf (by decide), outside_behind_token behindElse isIf (by decide)⟩
  unfold elseIfHeader
  apply Agree.bind (token_agree alike start filled)
  rintro first _ ⟨rfl, isFirst⟩
  obtain ⟨skipWithin, skipOutside⟩ := skipped _ (by rw [← isFirst])
  rw [← sameThen, ← AlikeFrom.length_eq alike]
  have stop : ∀ stop, stop = (Token.findKeyword left "Then").getD left.length →
      stop ≤ left.length ∧ Outside left (min (if first = "Else" then 2 else 1) stop) := by
    rintro _ rfl
    cases found : Token.findKeyword left "Then" with
    | none =>
      rw [Option.getD_none, Nat.min_eq_left skipWithin]
      exact ⟨Nat.le_refl _, skipOutside⟩
    | some index =>
      obtain ⟨within, outside, -, -⟩ := Token.findUnquoted_some found
      refine ⟨Nat.le_of_lt within, ?_⟩
      rw [Option.getD_some]
      rcases Nat.le_total (if first = "Else" then 2 else 1) index with order | order
      · rwa [Nat.min_eq_left order]
      · rwa [Nat.min_eq_right order]
  obtain ⟨stopWithin, stopOutside⟩ := stop _ rfl
  apply Agree.bind (slice_agree alike stopOutside (Nat.min_le_right _ _) stopWithin)
  rintro _ between ⟨rfl, alikeBetween⟩
  exact (conditionBy_agree _ _ alikeBetween).bind fun _ _ _ => trivial

end Branches

section Loops

variable {left right : List Token} {index : Nat}

/-- The type in an `As` clause is the same, and so is the position behind it. -/
theorem asClause_agree (alike : Alike left right) (outside : Outside left index) :
    Agree (fun one other => one = other ∧ Outside left one.2) (Reading.asClause left index)
      (Reading.asClause right index) := by
  unfold Reading.asClause
  rw [← Alike.tokenAt_eq alike outside]
  split
  · next isAs =>
    exact typeBehind_agree alike (outside_behind_keyword outside isAs (by decide))
      (lt_length_of_isKeyword isAs (by decide)) fun _ _ _ behind => ⟨rfl, behind⟩
  · exact ⟨rfl, outside⟩

/-- Both ranges have alike bounds. -/
def LoopRange.SameBounds (one other : LoopRange) : Prop :=
  Alike one.start other.start ∧ Alike one.stop other.stop

/-- The ranges of loops that are alike have bounds that are alike. -/
theorem LoopRange.read_agree (alike : Alike left right) {equals : Nat}
    (outside : Outside left equals) (isEquals : tokenAt left equals = "=") :
    Agree LoopRange.SameBounds (LoopRange.read left equals) (LoopRange.read right equals) := by
  have sameTo : Token.findKeyword left "To" = Token.findKeyword right "To" :=
    Alike.findUnquoted_eq alike _
  have sameStep : Token.findKeyword left "Step" = Token.findKeyword right "Step" :=
    Alike.findUnquoted_eq alike _
  unfold LoopRange.read
  rw [← sameTo, ← sameStep, ← AlikeFrom.length_eq alike]
  apply Agree.bind (agree_require _ _ _)
  rintro toIndex _ ⟨rfl, found⟩
  obtain ⟨foundTo, order⟩ := Option.filter_eq_some_iff.mp found
  obtain ⟨toWithin, toOutside, toPlain, -⟩ := Token.findUnquoted_some foundTo
  simp only [decide_eq_true_eq] at order
  have behindEquals := outside_behind_token outside isEquals (by decide)
  -- The range ends at `Step` where that stands behind `To`, and else with the line.
  generalize bounded : (Token.findKeyword left "Step").filter (fun index => toIndex < index) = step
  have stepFound : ∀ index, step = some index →
      toIndex < index ∧ index < left.length ∧ Outside left (index + 1) := by
    rintro index rfl
    obtain ⟨foundStep, behind⟩ := Option.filter_eq_some_iff.mp bounded
    obtain ⟨within, stepOutside, plain, -⟩ := Token.findUnquoted_some foundStep
    exact ⟨by simpa using behind, within, stepOutside.succ plain⟩
  have stopWithin : toIndex + 1 ≤ step.getD left.length ∧ step.getD left.length ≤ left.length := by
    cases step with
    | none => exact ⟨toWithin, Nat.le_refl _⟩
    | some index => exact ⟨(stepFound index rfl).1, Nat.le_of_lt (stepFound index rfl).2.1⟩
  apply Agree.bind (slice_agree alike behindEquals order (Nat.le_of_lt toWithin))
  rintro _ start ⟨rfl, alikeStart⟩
  apply Agree.bind (slice_agree alike (toOutside.succ toPlain) stopWithin.1 stopWithin.2)
  rintro _ stop ⟨rfl, alikeStop⟩
  simp only [isEmpty_eq alikeStart, isEmpty_eq alikeStop]
  cases step with
  | none =>
    simp only [Reading.pure_eq_ok, Reading.ok_bind]
    split
    · exact agree_refuse _ _ _
    · exact ⟨alikeStart, alikeStop⟩
  | some index =>
    obtain ⟨-, within, behindStep⟩ := stepFound index rfl
    apply Agree.bind (sliceFrom_agree alike behindStep within)
    rintro _ part ⟨rfl, alikePart⟩
    simp only [Reading.pure_eq_ok, Reading.ok_bind, Option.any_some, isEmpty_eq alikePart]
    split
    · exact agree_refuse _ _ _
    · exact ⟨alikeStart, alikeStop⟩

/-- Both headers count the same variable, with the same certainty about its type. -/
def LoopHeader.SameCounter (one other : LoopHeader) : Prop :=
  one.counter = other.counter ∧ one.isAssumed = other.isAssumed

/-- What a header says of its counter depends on the bounds only as numbers. -/
theorem LoopHeader.ofRange_same {one other : LoopRange} (counter : Token)
    (declared known : Option String) (same : one.SameBounds other) :
    (LoopHeader.ofRange counter declared known one).SameCounter
      (LoopHeader.ofRange counter declared known other) := by
  have bounds : boundsType one.start one.stop = boundsType other.start other.stop := by
    unfold boundsType
    rw [Alike.readLiteral_eq same.1, Alike.readLiteral_eq same.2]
  refine ⟨rfl, ?_⟩
  simp only [LoopHeader.ofRange, bounds]

/-- Counted loops that are alike count the same variable, with the same certainty. -/
theorem LoopHeader.readFor_agree (nesting : Nesting) (alike : Alike left right)
    (behindFor : Outside left 1) :
    Agree LoopHeader.SameCounter (LoopHeader.readFor nesting left)
      (LoopHeader.readFor nesting right) := by
  unfold LoopHeader.readFor
  simp only
  rw [← Alike.tokenAt_eq alike behindFor]
  split
  · next named =>
    apply Agree.bind (asClause_agree alike (outside_behind_name behindFor named))
    rintro ⟨declared, equals⟩ _ ⟨rfl, outside⟩
    simp only
    rw [← Alike.tokenAt_eq alike outside]
    split
    · next isEquals =>
      apply Agree.bind (LoopRange.read_agree alike outside isEquals)
      intro range range' same
      exact LoopHeader.ofRange_same _ _ _ same
    · exact agree_refuse _ _ _
  · exact agree_refuse _ _ _

/-- Loops over collections that are alike have the same item. -/
theorem LoopHeader.readForEach_agree (alike : Alike left right) (behindEach : Outside left 2) :
    Agree LoopHeader.SameCounter (LoopHeader.readForEach left)
      (LoopHeader.readForEach right) := by
  unfold LoopHeader.readForEach
  simp only
  rw [← Alike.tokenAt_eq alike behindEach]
  split
  · next named =>
    apply Agree.bind (asClause_agree alike (outside_behind_name behindEach named))
    rintro ⟨declared, index⟩ _ ⟨rfl, outside⟩
    simp only
    rw [← Alike.tokenAt_eq alike outside]
    split
    · next isIn =>
      apply behindKeyword_agree alike outside isIn (by decide) (by decide)
      intro collection collection' alikeCollection
      rw [isEmpty_eq alikeCollection]
      split
      · exact agree_refuse _ _ _
      · exact ⟨rfl, rfl⟩
    · exact agree_refuse _ _ _
  · exact agree_refuse _ _ _

/-- Loop headers that are alike count the same variable, with the same certainty. -/
theorem LoopHeader.read_agree (nesting : Nesting) (alike : Alike left right)
    (isFor : tokenAt left 0 = "For") :
    Agree LoopHeader.SameCounter (LoopHeader.read nesting left)
      (LoopHeader.read nesting right) := by
  have behindFor := outside_behind_token (Token.outside_zero left) isFor (by decide)
  unfold LoopHeader.read
  rw [← Alike.tokenAt_eq alike behindFor]
  split
  · next isEach =>
    exact LoopHeader.readForEach_agree alike (outside_behind_keyword behindFor isEach (by decide))
  · exact LoopHeader.readFor_agree nesting alike behindFor

/-- `Do` lines that are alike open loops of one kind. -/
theorem readDo_agree (alike : Alike left right) (isDo : tokenAt left 0 = "Do") :
    Agree (fun one other => one.1 = other.1) (readDo left) (readDo right) := by
  have behindDo := outside_behind_token (Token.outside_zero left) isDo (by decide)
  unfold readDo
  simp only
  rw [← Alike.tokenAt_eq alike behindDo]
  split
  · exact rfl
  · split
    · next isWhile =>
      apply behindKeyword_agree alike behindDo isWhile (by decide) (by decide)
      intro behind behind' alikeBehind
      exact (conditionBy_agree _ _ alikeBehind).bind fun _ _ _ => rfl
    · split
      · next isUntil =>
        apply behindKeyword_agree alike behindDo isUntil (by decide) (by decide)
        intro behind behind' alikeBehind
        exact (conditionBy_agree _ _ alikeBehind).bind fun _ _ _ => rfl
      · exact agree_refuse _ _ _

/-- `Loop` lines that are alike are accepted, or refused for the same cause. -/
theorem readLoopEnd_agree (kind : Option DoKind) (alike : Alike left right)
    (isLoop : tokenAt left 0 = "Loop") :
    AgreeLoosely (readLoopEnd kind left) (readLoopEnd kind right) := by
  have behindLoop := outside_behind_token (Token.outside_zero left) isLoop (by decide)
  unfold readLoopEnd
  simp only
  rw [← Alike.tokenAt_eq alike behindLoop]
  split
  · trivial
  · split
    · trivial
    · split
      · next isUntil =>
        apply behindKeyword_agree alike behindLoop isUntil (by decide) (by decide)
        intro behind behind' alikeBehind
        exact (conditionBy_agree _ _ alikeBehind).bind fun _ _ _ => trivial
      · split
        · next isWhile =>
          apply behindKeyword_agree alike behindLoop isWhile (by decide) (by decide)
          intro behind behind' alikeBehind
          exact (conditionBy_agree _ _ alikeBehind).bind fun _ _ _ => trivial
        · exact agree_refuse _ _ _

end Loops

end BasicToSharp
