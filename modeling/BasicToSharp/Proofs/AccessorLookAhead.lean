import BasicToSharp.Proofs.CommentLine

/-!
# Looking ahead for an accessor

A property header has to know whether accessors follow, before the lines behind it are
converted. It finds out by passing over empty lines and apostrophe comments and asking whether
the words of the next line open an accessor. When that line is reached, its kind is decided by
tests in an order, on tokens in which ampersands are joined.

Joining ampersands makes no difference (`Statement.accessorKeyword_concatenations`). The rest
does: a `Rem` comment is not passed over, and neither is a line of stray characters, although
neither is a statement; and a line may have the words of an accessor and yet be of a kind that
is tested earlier. `LookAheadMisled` has these cases. In all others the header is right about
what comes: it stays pending for an accessor, and otherwise is written.
-/

namespace BasicToSharp

/-- True of an accessor. -/
def Statement.isAccessor : Statement → Bool
  | .accessor _ => true
  | _ => false

/-- True of the kinds of lines that are no statements. -/
def Statement.saysNothing : Statement → Bool
  | .blank | .comment => true
  | _ => false

/-- Whether the first line that is a statement is an accessor, by the kinds that the lines will
have when they are converted. -/
def accessorComes (lines : List SourceLine) : Bool :=
  ((lines.map fun line => lineStatement line.text).find? (!·.saysNothing)).any Statement.isAccessor

/-- Whether the look-ahead passes over a line. -/
def isPassedOver (text : String) : Bool :=
  text.isEmpty || text.toList.head? == some Token.apostrophe

/-- Whether the words of a line open an accessor, of whatever kind the line is. -/
def opensAccessor (text : String) : Bool := (Statement.accessorKeyword (lineTokens text)).isSome

/-- The lines behind a property header for which looking ahead gives a wrong answer. -/
inductive LookAheadMisled : List SourceLine → Prop
  | beyond {line : SourceLine} {more : List SourceLine} (passed : isPassedOver line.text = true)
      (later : LookAheadMisled more) : LookAheadMisled (line :: more)
  /-- A line that is no statement stands before the accessor, and is taken for what comes. -/
  | hidden {line : SourceLine} {more : List SourceLine} (seen : isPassedOver line.text = false)
      (idle : (lineStatement line.text).saysNothing = true) (silent : opensAccessor line.text = false)
      (comes : accessorComes more = true) : LookAheadMisled (line :: more)
  /-- A comment that has the words of an accessor is taken for one. -/
  | remark {line : SourceLine} {more : List SourceLine} (seen : isPassedOver line.text = false)
      (idle : (lineStatement line.text).saysNothing = true) (opens : opensAccessor line.text = true)
      (other : accessorComes more = false) : LookAheadMisled (line :: more)
  /-- A statement of another kind has the words of an accessor and is taken for one. -/
  | earlier {line : SourceLine} {more : List SourceLine}
      (active : (lineStatement line.text).saysNothing = false) (opens : opensAccessor line.text = true)
      (other : (lineStatement line.text).isAccessor = false) : LookAheadMisled (line :: more)

section Ampersands

variable {tokens others : List Token} {previous : Token} {marked : List Token.Marked}
  {word : String} {keyword count : Nat}

/-- Joining ampersands changes tokens to `+` and no others: where the result has no `+`,
nothing has been changed. -/
theorem Token.take_joinAmpersands
    (free : "+" ∉ (joinAmpersands previous marked).take count) :
    (joinAmpersands previous marked).take count = (marked.map Marked.token).take count := by
  induction marked generalizing previous count with
  | nil => rfl
  | cons first rest inductionHypothesis =>
    cases count with
    | zero => rfl
    | succ count =>
      simp only [joinAmpersands, List.take_succ_cons, List.mem_cons, not_or,
        List.map_cons] at free ⊢
      rw [inductionHypothesis free.2]
      split at free
      · exact absurd rfl free.1
      · next unchanged => rw [if_neg unchanged]

/-- Joining ampersands changes ampersands only: where there are none, nothing is changed. -/
theorem Token.take_joinAmpersands_of_free (free : "&" ∉ (marked.map Marked.token).take count) :
    (joinAmpersands previous marked).take count = (marked.map Marked.token).take count := by
  induction marked generalizing previous count with
  | nil => rfl
  | cons first rest inductionHypothesis =>
    cases count with
    | zero => rfl
    | succ count =>
      simp only [List.map_cons, List.take_succ_cons, List.mem_cons, not_or] at free
      have other : first.token ≠ "&" := Ne.symm free.1
      simp only [joinAmpersands, List.take_succ_cons, List.map_cons,
        inductionHypothesis free.2]
      simp [other]

namespace Statement

/-- An accessor's keyword with what stands before and directly behind it. -/
theorem accessorNamed_of_take (same : tokens.take (keyword + 2) = others.take (keyword + 2))
    (found : accessorNamed tokens word = some keyword) :
    accessorNamed others word = some keyword := by
  obtain ⟨named, behind⟩ := Option.filter_eq_some_iff.mp found
  obtain ⟨before, taken, length, fresh, plain⟩ := declarationKeyword_eq_some_iff.mp named
  have upTo : others.take (keyword + 1) = before ++ [word] := by
    have shorter := congrArg (List.take (keyword + 1)) same
    simpa [List.take_take, taken] using shorter.symm
  have next : tokenAt others (keyword + 1) = tokenAt tokens (keyword + 1) := by
    have here := congrArg (fun start => start.getD (keyword + 1) "") same
    simpa [tokenAt, List.getElem?_take_of_lt] using here.symm
  refine Option.filter_eq_some_iff.mpr
    ⟨declarationKeyword_eq_some_iff.mpr ⟨before, upTo, length, fresh, plain⟩, ?_⟩
  rw [next]
  exact behind

/-- No symbol but a parenthesis is among the tokens up to the one behind an accessor's
keyword. -/
theorem not_mem_of_accessorNamed {symbol : Token} (found : accessorNamed tokens word = some keyword)
    (differs : word ≠ symbol) (noWord : Token.isIdentifier symbol = false)
    (noParenthesis : symbol ≠ "(") (noEnd : symbol ≠ "") : symbol ∉ tokens.take (keyword + 2) := by
  obtain ⟨named, behind⟩ := Option.filter_eq_some_iff.mp found
  obtain ⟨before, taken, -, -, plain⟩ := declarationKeyword_eq_some_iff.mp named
  rw [List.take_add_one, taken]
  simp only [List.mem_append, List.mem_singleton, Option.mem_toList, not_or]
  refine ⟨⟨fun member => ?_, Ne.symm differs⟩, fun next => ?_⟩
  · have isWord := List.all_eq_true.mp plain _ member
    rw [noWord] at isWord
    cases isWord
  · rw [tokenAt, List.getD_eq_getElem?_getD, Option.mem_def.mp next] at behind
    simp [noParenthesis, noEnd] at behind

/-- Joining ampersands neither makes nor hides an accessor's keyword. -/
theorem accessorNamed_concatenations (notPlus : word ≠ "+") (notAmpersand : word ≠ "&") :
    accessorNamed (Token.concatenations tokens) word = accessorNamed tokens word := by
  have marks : (Token.mark tokens).map Token.Marked.token = tokens :=
    Token.markFrom_map_token false tokens
  apply Option.ext
  intro keyword
  constructor
  · intro found
    have free := not_mem_of_accessorNamed found notPlus (by decide) (by decide) (by decide)
    have same := Token.take_joinAmpersands free
    rw [marks] at same
    exact accessorNamed_of_take same found
  · intro found
    have free := not_mem_of_accessorNamed found notAmpersand (by decide) (by decide) (by decide)
    have same : (Token.concatenations tokens).take (keyword + 2) = tokens.take (keyword + 2) := by
      rw [← marks] at free
      exact (Token.take_joinAmpersands_of_free free).trans (by rw [marks])
    exact accessorNamed_of_take same.symm found

/-- Rewriting `&` as `+` moves no accessor keyword. -/
theorem accessorKeyword_concatenations (tokens : List Token) :
    accessorKeyword (Token.concatenations tokens) = accessorKeyword tokens := by
  unfold accessorKeyword
  rw [accessorNamed_concatenations (by decide) (by decide),
    accessorNamed_concatenations (by decide) (by decide)]

end Statement

end Ampersands

section LookAhead

variable {text : String} {line : SourceLine} {more : List SourceLine}

/-- Lines that are passed over are no statements. -/
theorem saysNothing_of_passedOver (passed : isPassedOver text = true) :
    (lineStatement text).saysNothing = true := by
  rcases Bool.or_eq_true _ _ ▸ passed with isEmpty | comment
  · rw [String.isEmpty_iff.mp isEmpty]
    decide +kernel
  · obtain ⟨rest, chars⟩ : ∃ rest, text.toList = Token.apostrophe :: rest :=
      List.head?_eq_some_iff.mp (beq_iff_eq.mp comment)
    rw [lineStatement_comment chars]
    rfl

/-- The header of an accessor is seen by the look-ahead. -/
theorem opensAccessor_of_isAccessor (is : (lineStatement text).isAccessor = true) :
    opensAccessor text = true := by
  have form := Statement.classify_form text (lineTokens text)
  rw [← lineStatement] at form
  cases statement : lineStatement text with
  | accessor keyword =>
    rw [statement] at form
    exact Option.isSome_iff_exists.mpr ⟨keyword, form⟩
  | _ =>
    rw [statement] at is
    cases is

/-- What looking ahead finds, line by line. -/
theorem accessorFollows_cons (line : SourceLine) (more : List SourceLine) :
    accessorFollows (line :: more) =
      if isPassedOver line.text then accessorFollows more else opensAccessor line.text := by
  have skips : (!line.text.isEmpty && line.text.toList.head? != some Token.apostrophe) =
      !isPassedOver line.text := by
    rw [isPassedOver, Bool.not_or, bne]
  cases passed : isPassedOver line.text with
  | true => simp [accessorFollows, skips, passed]
  | false =>
    simp [accessorFollows, skips, passed, opensAccessor, lineTokens,
      Statement.accessorKeyword_concatenations]

/-- What comes, line by line. -/
theorem accessorComes_cons (line : SourceLine) (more : List SourceLine) :
    accessorComes (line :: more) =
      if (lineStatement line.text).saysNothing then accessorComes more
      else (lineStatement line.text).isAccessor := by
  cases idle : (lineStatement line.text).saysNothing with
  | true => simp [accessorComes, idle]
  | false => simp [accessorComes, idle]

/-- Looking ahead gives a wrong answer in the cases of `LookAheadMisled`, and in no others. -/
theorem accessorFollows_eq_iff (lines : List SourceLine) :
    accessorFollows lines = accessorComes lines ↔ ¬ LookAheadMisled lines := by
  induction lines with
  | nil => exact ⟨fun _ => nofun, fun _ => rfl⟩
  | cons line more inductionHypothesis =>
    rw [accessorFollows_cons, accessorComes_cons]
    cases passed : isPassedOver line.text with
    | true =>
      have idle := saysNothing_of_passedOver passed
      rw [if_pos rfl, if_pos idle, inductionHypothesis]
      refine not_congr ⟨.beyond passed, fun misled => ?_⟩
      cases misled with
      | beyond _ later => exact later
      | hidden seen => simp [passed] at seen
      | remark seen => simp [passed] at seen
      | earlier active => simp [idle] at active
    | false =>
      rw [if_neg Bool.false_ne_true]
      cases idle : (lineStatement line.text).saysNothing with
      | true =>
        rw [if_pos rfl]
        constructor
        · intro same misled
          cases misled with
          | beyond skipped => simp [passed] at skipped
          | hidden _ _ silent comes => simp [silent, comes] at same
          | remark _ _ opens other => simp [opens, other] at same
          | earlier active => simp [idle] at active
        · intro sound
          cases opens : opensAccessor line.text with
          | false =>
            cases comes : accessorComes more with
            | false => rfl
            | true => exact absurd (.hidden passed idle opens comes) sound
          | true =>
            cases comes : accessorComes more with
            | false => exact absurd (.remark passed idle opens comes) sound
            | true => rfl
      | false =>
        rw [if_neg Bool.false_ne_true]
        constructor
        · intro same misled
          cases misled with
          | beyond skipped => simp [passed] at skipped
          | hidden _ isIdle => simp [idle] at isIdle
          | remark _ isIdle => simp [idle] at isIdle
          | earlier _ opens other => simp [opens, other] at same
        · intro sound
          cases is : (lineStatement line.text).isAccessor with
          | true => exact opensAccessor_of_isAccessor is
          | false =>
            cases opens : opensAccessor line.text with
            | false => rfl
            | true => exact absurd (.earlier idle opens is) sound

end LookAhead

section Header

variable {draft after : Draft} {text : String} {keyword : Nat}

/-- An accepted header that sees an accessor follow writes nothing and stays pending. -/
theorem Draft.convertLine_property_pending (is : lineStatement text = .property keyword)
    (follows : draft.accessorFollows = true) (accepted : draft.refusal text = none)
    (converted : draft.convertLine text = .ok after) :
    after.output = draft.output ∧ after.nesting.propertyHeader = some draft.cursor := by
  obtain ⟨left, ran, same⟩ := accepted_of_refusal accepted
  obtain rfl := Except.ok.inj (converted.symm.trans same)
  rw [is] at ran
  cases Statement.makes_of_run ran with
  | pendingProperty => exact ⟨rfl, rfl⟩
  | property alone => cases alone.symm.trans follows

/-- An accepted header that sees no accessor follow is written as one line. -/
theorem Draft.convertLine_property_alone (is : lineStatement text = .property keyword)
    (alone : draft.accessorFollows = false) (accepted : draft.refusal text = none)
    (converted : draft.convertLine text = .ok after) :
    ∃ property, PropertyLine.read draft.nesting (lineTokens text) keyword = .ok property ∧
      after.output = draft.output.push property.line := by
  obtain ⟨left, ran, same⟩ := accepted_of_refusal accepted
  obtain rfl := Except.ok.inj (converted.symm.trans same)
  rw [is] at ran
  cases Statement.makes_of_run ran with
  | pendingProperty accessors => cases alone.symm.trans accessors
  | property _ reading =>
    refine ⟨_, reading, ?_⟩
    rw [registerProperty_frame]
    rfl

end Header

/-- A property header at the cursor looks ahead to the lines behind it. Its answer agrees with
the kinds that these lines have when they are reached, in all cases but those of
`LookAheadMisled`. So outside these, an accepted header that an accessor comes after writes
nothing and is remembered for it, and any other is written as an automatic property. A header
that is not accepted is reported. -/
theorem property_agrees_with_what_comes (draft : Draft) {text : String} {keyword : Nat}
    (is : lineStatement text = .property keyword) :
    let behind := draft.input.drop (draft.cursor + 1)
    (draft.accessorFollows = accessorComes behind ↔ ¬ LookAheadMisled behind) ∧
    (¬ LookAheadMisled behind → ∃ after, draft.convertLine text = .ok after ∧
      match draft.refusal text with
      | some cause => ⟨draft.line, .malformed cause⟩ ∈ after.diagnostics
      | none =>
        if accessorComes behind then
          after.output = draft.output ∧ after.nesting.propertyHeader = some draft.cursor
        else ∃ property, PropertyLine.read draft.nesting (lineTokens text) keyword = .ok property ∧
          after.output = draft.output.push property.line) := by
  intro behind
  have agreement : draft.accessorFollows = accessorComes behind ↔ ¬ LookAheadMisled behind :=
    accessorFollows_eq_iff behind
  refine ⟨agreement, fun sound => ?_⟩
  have agrees := agreement.mpr sound
  obtain ⟨after, converted⟩ := draft.convertLine_ok text
  refine ⟨after, converted, ?_⟩
  cases refusal : draft.refusal text with
  | some cause => exact Draft.reported_of_refusal refusal converted
  | none =>
    cases comes : accessorComes behind with
    | true =>
      rw [if_pos rfl]
      exact Draft.convertLine_property_pending is (agrees.trans comes) refusal converted
    | false =>
      rw [if_neg Bool.false_ne_true]
      exact Draft.convertLine_property_alone is (agrees.trans comes) refusal converted

/-- Behind this header an empty line and a comment are passed over, and the accessor has a
modifier. The header is remembered for it. -/
theorem property_agrees_behind_comment :
    let input := SourceLine.prepare "Property X As Integer\n\n' Get\nPublic Get" true
    let draft := (Draft.start {} input).moveTo 0 ⟨1, "Property X As Integer"⟩
    lineStatement "Property X As Integer" = .property 0 ∧ ¬ LookAheadMisled (input.drop 1) ∧
      ∃ after, draft.convertLine "Property X As Integer" = .ok after ∧ after.output = #[] ∧
        after.nesting.propertyHeader = some 0 := by
  intro input draft
  have is : lineStatement "Property X As Integer" = .property 0 := by decide +kernel
  obtain ⟨agreement, outcome⟩ := property_agrees_with_what_comes draft is
  have prepared : input = [⟨1, "Property X As Integer"⟩, ⟨2, ""⟩, ⟨3, "' Get"⟩,
      ⟨4, "Public Get"⟩] := by decide +kernel
  have follows : accessorFollows (input.drop 1) = true := by
    rw [prepared]
    decide +kernel
  have comes : accessorComes (input.drop 1) = true := by
    rw [prepared]
    decide +kernel
  have accepted : draft.refusal "Property X As Integer" = none := by decide +kernel
  have sound := agreement.mp (follows.trans comes.symm)
  obtain ⟨after, converted, remembered⟩ := outcome sound
  simp only [accepted] at remembered
  obtain ⟨output, pending⟩ := (if_pos comes).mp remembered
  exact ⟨is, sound, after, converted, output, pending⟩

/-- A `Rem` comment hides the accessor behind it: the header is written as an automatic
property, and the accessor, which finds no header, is refused. -/
theorem property_misses_accessor_behind_remark :
    let source := "Property X As Integer\nRem note\nGet\nReturn 1\nEnd Get\nEnd Property"
    let input := SourceLine.prepare source true
    LookAheadMisled (input.drop 1) ∧
      (input.map fun line => lineStatement line.text) =
        [.property 0, .comment, .accessor 0, .returnJump, .endBlock, .endBlock] ∧
      accessorFollows (input.drop 1) = false ∧ accessorComes (input.drop 1) = true ∧
      (convert source {}).toOption.map (·.lines) =
        some ["int X \x7b get; set; \x7d", "// note", "Get;", "return 1;", "\x7d"] := by
  intro source input
  have prepared : input = [⟨1, "Property X As Integer"⟩, ⟨2, "Rem note"⟩, ⟨3, "Get"⟩,
      ⟨4, "Return 1"⟩, ⟨5, "End Get"⟩, ⟨6, "End Property"⟩] := by decide +kernel
  have written : (convert source {}).toOption.map (·.lines) =
      some ["int X \x7b get; set; \x7d", "// note", "Get;", "return 1;", "\x7d"] := by
    decide +kernel
  rw [prepared]
  refine ⟨.hidden ?_ ?_ ?_ ?_, ?_, ?_, ?_, written⟩ <;> decide +kernel

end BasicToSharp
