import BasicToSharp.Proofs.DeclaredNames
import BasicToSharp.Proofs.DoubleRounding
import BasicToSharp.Proofs.FirstToken
import BasicToSharp.Proofs.RuleOutcome

/-!
# The direction of counting loops

A loop between two integer literals that gives no step counts by one. Its direction is chosen by
the doubles of the bounds. It is the right one, and the loop then leaves after as many rounds as
the bounds are apart, unless the upper bound is behind the lower one and both have one double:
such a loop counts down from the lower bound and never leaves.
-/

namespace BasicToSharp

open Token (Name Spelling insideAfter quote)
open ByPosition (Left)
open Number (nearestDouble Literal)

/-! ## Literals in a line -/

/-- An integer literal, as its tokens and its value. -/
structure IntegerLiteral where
  tokens : List Token
  value : Int
  reads : Number.readInteger (String.join tokens) = some value

/-- True of the characters of integer literals. -/
def isNumeralChar (c : Char) : Bool := c.isDigit || c == '+' || c == '-'

/-- What is read as digits is not empty and has only characters of numerals. -/
theorem Number.readDigits_some {chars : List Char} {value : Nat}
    (reads : readDigits chars = some value) :
    chars ≠ [] ∧ ∀ c ∈ chars, isNumeralChar c = true := by
  unfold readDigits at reads
  split at reads
  · next digits =>
    simp only [Bool.and_eq_true, Bool.not_eq_true', List.isEmpty_eq_false_iff,
      List.all_eq_true] at digits
    refine ⟨digits.1, fun c member => ?_⟩
    rw [isNumeralChar, digits.2 c member]
    rfl
  · cases reads

/-- An integer in range has a magnitude below two to the 64th. -/
theorem Number.inRange_some {number value : Int} (reads : inRange number = some value) :
    value.natAbs < 2 ^ 64 := by
  unfold inRange largestInteger smallestInteger at reads
  split at reads
  · obtain rfl := Option.some.inj reads
    omega
  · cases reads

/-- What is read as an integer has digits and signs only, and the integer is short. -/
theorem Number.readInteger_some {text : String} {value : Int}
    (reads : readInteger text = some value) :
    (∀ c ∈ text.toList, isNumeralChar c = true) ∧ text.toList ≠ [] ∧ value.natAbs < 2 ^ 64 := by
  unfold readInteger at reads
  split at reads
  · next digits chars =>
    obtain ⟨magnitude, isDigits, inside⟩ := Option.bind_eq_some_iff.mp reads
    rw [chars]
    exact ⟨List.forall_mem_cons.mpr ⟨rfl, (readDigits_some isDigits).2⟩, List.cons_ne_nil _ _,
      inRange_some inside⟩
  · next digits chars =>
    obtain ⟨magnitude, isDigits, inside⟩ := Option.bind_eq_some_iff.mp reads
    rw [chars]
    exact ⟨List.forall_mem_cons.mpr ⟨rfl, (readDigits_some isDigits).2⟩, List.cons_ne_nil _ _,
      inRange_some inside⟩
  · obtain ⟨magnitude, isDigits, inside⟩ := Option.bind_eq_some_iff.mp reads
    exact ⟨(readDigits_some isDigits).2, (readDigits_some isDigits).1, inRange_some inside⟩

/-- A character of a numeral is no letter. -/
theorem isLower_toLower_of_numeral {c : Char} (numeral : isNumeralChar c = true) :
    c.toLower.isLower = false := by
  have basic : c.toNat < 128 := by
    simp only [isNumeralChar, Char.isDigit, Bool.or_eq_true, Bool.and_eq_true, decide_eq_true_eq,
      beq_iff_eq] at numeral
    rcases numeral with (⟨-, digit⟩ | rfl) | rfl
    · have high : c.toNat ≤ 57 := UInt32.le_iff_toNat_le.mp digit
      omega
    · decide
    · decide
  have numerals : ∀ n < 128, isNumeralChar (Char.ofNat n) = true →
      (Char.ofNat n).toLower.isLower = false := by decide +kernel
  have here := numerals c.toNat basic
  rw [Char.ofNat_toNat] at here
  exact here numeral

/-- A part of an integer literal spells no keyword. -/
theorem Token.isKeyword_numeral {token : Token} {keyword : String} {letter : Char}
    {letters : List Char} (numeral : ∀ c ∈ token.toList, isNumeralChar c = true)
    (spelled : keyword.toList.map Char.toLower = letter :: letters)
    (lower : letter.isLower = true) : Token.isKeyword token keyword = false := by
  rw [Bool.eq_false_iff]
  intro isKeyword
  cases chars : token.toList with
  | nil => simp [Token.isKeyword, Text.sameIgnoringCase, chars, spelled] at isKeyword
  | cons c rest =>
    have first := Token.toLower_of_isKeyword chars spelled isKeyword
    have here := isLower_toLower_of_numeral (numeral c (by rw [chars]; exact List.mem_cons_self))
    rw [first, lower] at here
    cases here

/-- Nothing is found where no token passes the test. -/
theorem Token.findUnquoted_eq_none {tokens : List Token} {test : Token → Bool}
    (fails : ∀ token ∈ tokens, test token = false) : Token.findUnquoted tokens test = none := by
  cases found : Token.findUnquoted tokens test with
  | none => rfl
  | some index =>
    obtain ⟨inside, -, -, passes⟩ := Token.findUnquoted_some found
    have member : tokenAt tokens index ∈ tokens := by simp [tokenAt, inside]
    rw [fails _ member] at passes
    cases passes

namespace IntegerLiteral

/-- The text of a literal. -/
def text (literal : IntegerLiteral) : String := String.join literal.tokens

variable (literal : IntegerLiteral)

/-- The tokens of an integer have only characters of numerals. -/
theorem tokens_numeral : ∀ token ∈ literal.tokens, ∀ c ∈ token.toList, isNumeralChar c = true := by
  intro token member c inside
  apply (Number.readInteger_some literal.reads).1
  rw [String.toList_join]
  exact List.mem_flatMap.mpr ⟨token, member, inside⟩

/-- An integer has tokens. -/
theorem tokens_ne_nil : literal.tokens ≠ [] := by
  intro none
  apply (Number.readInteger_some literal.reads).2.1
  rw [none]
  rfl

/-- An integer leaves no literal open. -/
theorem insideAfter_tokens : insideAfter false literal.tokens = false := by
  apply Token.insideAfter_of_not_mem
  intro member
  have numeral := literal.tokens_numeral quote member Token.quoteChar (by decide)
  exact absurd numeral (by decide)

/-- The tokens of an integer are read as its value. -/
theorem literal_read : Literal.read literal.tokens = some (.integer literal.value) := by
  simp only [Literal.read, literal.reads]

/-- A literal has none of the keywords of a loop. -/
theorem findKeyword_tokens {keyword : String} {letter : Char} {letters : List Char}
    (spelled : keyword.toList.map Char.toLower = letter :: letters)
    (lower : letter.isLower = true) : Token.findKeyword literal.tokens keyword = none :=
  Token.findUnquoted_eq_none fun token member =>
    Token.isKeyword_numeral (literal.tokens_numeral token member) spelled lower

end IntegerLiteral

/-! ## The header of a loop -/

/-- A loop between two integer literals that gives neither a type nor a step. -/
structure LiteralLoop where
  forWord : Spelling "for"
  counter : Name
  first : IntegerLiteral
  toWord : Spelling "To"
  last : IntegerLiteral

namespace LiteralLoop

/-- The tokens of the line. -/
def tokens (loop : LiteralLoop) : List Token :=
  loop.forWord.val :: loop.counter.val :: "=" ::
    (loop.first.tokens ++ loop.toWord.val :: loop.last.tokens)

/-- The header in C#, counting up or down. -/
def header (loop : LiteralLoop) (ascends : Bool) : String :=
  "for (int " ++ loop.counter.val ++ " = " ++ loop.first.text ++ "; " ++ loop.counter.val ++
    " != " ++ loop.last.text ++ "; " ++ loop.counter.val ++ (if ascends then "++" else "--") ++ ")"

/-- True of a loop whose counter has the name of a keyword that the header is read by. -/
def Reserved (loop : LiteralLoop) : Prop :=
  Token.isKeyword loop.counter.val "each" = true ∨ Token.isKeyword loop.counter.val "To" = true

/-- True of a loop whose bounds go up but are one as doubles. -/
def Misdirected (loop : LiteralLoop) : Prop :=
  loop.first.value < loop.last.value ∧
    nearestDouble loop.first.value = nearestDouble loop.last.value

variable (loop : LiteralLoop)

/-- Where a keyword is found in the line: at the counter, between the bounds, or nowhere. -/
theorem findKeyword_tokens {keyword : String} {letter : Char} {letters : List Char}
    (spelled : keyword.toList.map Char.toLower = letter :: letters)
    (lower : letter.isLower = true) (notFor : Token.isKeyword "for" keyword = false)
    (notEqual : Token.isKeyword "=" keyword = false) :
    Token.findKeyword loop.tokens keyword =
      if Token.isKeyword loop.counter.val keyword then some 1
      else if Token.isKeyword loop.toWord.val keyword then some (loop.first.tokens.length + 3)
      else none := by
  have forPlain : loop.forWord.val ≠ quote := by
    intro same
    exact absurd (same ▸ loop.forWord.property) (by decide)
  have counterPlain : loop.counter.val ≠ quote := by
    intro same
    exact absurd (same ▸ loop.counter.property) (by decide)
  have toPlain : loop.toWord.val ≠ quote := by
    intro same
    exact absurd (same ▸ loop.toWord.property) (by decide)
  have first := loop.first.findKeyword_tokens spelled lower
  have last := loop.last.findKeyword_tokens spelled lower
  unfold Token.findKeyword at first last ⊢
  unfold tokens
  rw [Token.findUnquoted_cons forPlain, loop.forWord.isKeyword_other notFor,
    Token.findUnquoted_cons counterPlain, Token.findUnquoted_cons (by decide), notEqual,
    Token.findUnquoted_append loop.first.insideAfter_tokens, first,
    Token.findUnquoted_cons toPlain, last]
  by_cases isCounter : Token.isKeyword loop.counter.val keyword = true
  · simp [isCounter]
  · by_cases isTo : Token.isKeyword loop.toWord.val keyword = true
    · simp [isCounter, isTo]
    · simp [isCounter, isTo]

/-- The first `To` of a loop stands behind its start, unless the counter reads as one. -/
theorem findKeyword_to : Token.findKeyword loop.tokens "To" =
    if Token.isKeyword loop.counter.val "To" then some 1
    else some (loop.first.tokens.length + 3) := by
  have spelled : "To".toList.map Char.toLower = ['t', 'o'] := rfl
  rw [loop.findKeyword_tokens spelled rfl rfl rfl, if_pos loop.toWord.property]

/-- There is no step behind the bounds, even if the counter has the name. -/
theorem findKeyword_step :
    (Token.findKeyword loop.tokens "Step").filter (loop.first.tokens.length + 3 < ·) = none := by
  have spelled : "Step".toList.map Char.toLower = ['s', 't', 'e', 'p'] := rfl
  have notStep : Token.isKeyword loop.toWord.val "Step" = false :=
    loop.toWord.isKeyword_other (by decide)
  rw [loop.findKeyword_tokens spelled rfl rfl rfl, notStep]
  split
  · simp
  · rfl

/-- The bounds are read as they stand in the line. -/
theorem range_read (other : ¬ Token.isKeyword loop.counter.val "To" = true) :
    LoopRange.read loop.tokens 2 = .ok ⟨loop.first.tokens, loop.last.tokens, none⟩ := by
  have behind : Left loop.tokens 3 (loop.first.tokens ++ loop.toWord.val :: loop.last.tokens) :=
    (Left.start loop.tokens).next.next.next
  have start := behind.slice
  have stop : Reading.slice loop.tokens (3 + loop.first.tokens.length + 1) loop.tokens.length =
      .ok loop.last.tokens := behind.advance.next.sliceFrom
  have later : (some (loop.first.tokens.length + 3)).filter (2 < ·) =
      some (loop.first.tokens.length + 3) := by simp
  rw [Nat.add_comm 3] at start stop
  unfold LoopRange.read
  rw [findKeyword_to, if_neg other, later]
  simp [Reading.require, findKeyword_step, start, stop, loop.first.tokens_ne_nil,
    loop.last.tokens_ne_nil]

/-- A counter with the name of the keyword is taken for it. -/
theorem range_read_to (isTo : Token.isKeyword loop.counter.val "To" = true) :
    LoopRange.read loop.tokens 2 = Reading.refuse .forLoop .missingTo := by
  unfold LoopRange.read
  rw [findKeyword_to, if_pos isTo]
  rfl

/-- Before its bounds, a header is read by its counter alone. -/
theorem read_counter (nesting : Nesting)
    (notEach : ¬ Token.isKeyword loop.counter.val "each" = true)
    (new : nesting.function.bind (·.local? loop.counter.val) = none) :
    LoopHeader.read nesting loop.tokens = (do
      let range ← LoopRange.read loop.tokens 2
      return .ofRange loop.counter.val none none range) := by
  have counter : tokenAt loop.tokens 1 = loop.counter.val := rfl
  have equals : tokenAt loop.tokens 2 = "=" := rfl
  have noClause : Reading.asClause loop.tokens 2 = .ok (none, 2) := by
    rw [Reading.asClause, equals, if_neg (by decide)]
    rfl
  unfold LoopHeader.read LoopHeader.readFor
  simp [counter, notEach, loop.counter.property, noClause, equals, new]

/-- A header with a reserved counter is refused. -/
theorem read_reserved (nesting : Nesting) (reserved : loop.Reserved)
    (new : nesting.function.bind (·.local? loop.counter.val) = none) :
    ∃ cause, LoopHeader.read nesting loop.tokens = .error (.malformed cause) := by
  by_cases isEach : Token.isKeyword loop.counter.val "each" = true
  · have counter : tokenAt loop.tokens 1 = loop.counter.val := rfl
    have equals : Token.isIdentifier (tokenAt loop.tokens 2) = false :=
      show Token.isIdentifier "=" = false by decide
    rw [LoopHeader.read, counter, if_pos isEach, LoopHeader.readForEach, equals]
    exact ⟨_, rfl⟩
  · have isTo := reserved.resolve_left isEach
    rw [read_counter _ _ isEach new, range_read_to _ isTo]
    exact ⟨_, rfl⟩

/-- Any other header is read, with the direction that the doubles of its bounds have. -/
theorem read_header (nesting : Nesting) (free : ¬ loop.Reserved)
    (new : nesting.function.bind (·.local? loop.counter.val) = none) :
    LoopHeader.read nesting loop.tokens = .ok ⟨loop.counter.val,
      loop.header (nearestDouble loop.first.value < nearestDouble loop.last.value), false⟩ := by
  obtain ⟨notEach, notTo⟩ := not_or.mp free
  rw [read_counter _ _ notEach new, range_read _ notTo]
  have direction : (Number.Binary64.ofInt loop.first.value).lt (.ofInt loop.last.value) =
      decide (nearestDouble loop.first.value < nearestDouble loop.last.value) := by
    rw [Bool.eq_iff_iff, decide_eq_true_iff]
    exact Number.Binary64.ofInt_lt_ofInt (Number.readInteger_some loop.first.reads).2.2
      (Number.readInteger_some loop.last.reads).2.2
  have typed : "for (" ++ ("int" ++ " ") = "for (int " := by decide
  have plain : ("int" == "decimal") = false := by decide
  simp only [Reading.ok_bind, Reading.pure_eq_ok, LoopHeader.ofRange, boundsType, boundText,
    unitIncrement, loop.first.literal_read, loop.last.literal_read, Literal.value, direction,
    Option.none_or, Option.isSome_none, Bool.false_and, Bool.false_eq_true, if_false, numberText,
    plain, typed]
  unfold header IntegerLiteral.text
  rfl

end LiteralLoop

/-! ## Running a loop -/

/-- A draft with a counting loop opened. -/
def Draft.openLoop (draft : Draft) (counter : Token) (header : String) : Draft :=
  (draft.renest fun nesting =>
    { nesting with
      counters := counter :: nesting.counters
      blocks := .forBlock :: nesting.blocks }).openBrace header

/-- The header of an opened loop can be read off the draft. -/
theorem Draft.openLoop_injective {draft : Draft} {counter : Token} {header header' : String}
    (same : draft.openLoop counter header = draft.openLoop counter header') : header = header' := by
  have output := congrArg Draft.output same
  simpa [openLoop, openBrace, emit, renest, Array.push_eq_push] using output

/-- A loop that runs until its counter is at the last value, and changes the counter by a step
after each round, leaves from here after that many rounds. -/
inductive LeavesAfter (last step : Int) : Int → Nat → Prop
  | here : LeavesAfter last step last 0
  | round {counter : Int} {rounds : Nat} (going : counter ≠ last)
      (rest : LeavesAfter last step (counter + step) rounds) :
      LeavesAfter last step counter (rounds + 1)

/-- A loop that changes its counter leaves as soon as its steps add up. -/
theorem leavesAfter_iff {last step : Int} (moves : step ≠ 0) (counter : Int) (rounds : Nat) :
    LeavesAfter last step counter rounds ↔ counter + rounds * step = last := by
  constructor
  · intro leaves
    induction leaves with
    | here => simp
    | round _ _ inductionHypothesis =>
      rw [← inductionHypothesis]
      push_cast
      ring
  · intro total
    induction rounds generalizing counter with
    | zero =>
      obtain rfl : counter = last := by simpa using total
      exact .here
    | succ rounds inductionHypothesis =>
      push_cast at total
      refine .round (fun same => ?_) (inductionHypothesis (counter + step) ?_)
      · have stands : ((rounds : Int) + 1) * step = 0 := by
          rw [← same] at total
          omega
        rcases mul_eq_zero.mp stands with noRound | noStep
        · omega
        · exact moves noStep
      · rw [← total]
        ring

namespace LiteralLoop

variable (loop : LiteralLoop)

/-- The direction of a loop can be told from its header. -/
theorem header_injective {ascends ascends' : Bool}
    (same : loop.header ascends = loop.header ascends') : ascends = ascends' := by
  have chars := congrArg String.toList same
  unfold header at chars
  simp only [String.toList_append, List.append_cancel_right_eq,
    List.append_cancel_left_eq] at chars
  revert chars
  cases ascends <;> cases ascends' <;> decide

/-- The direction of the doubles is that of the bounds, unless the bounds go up and their
doubles do not. -/
theorem direction_right_iff :
    decide (nearestDouble loop.first.value < nearestDouble loop.last.value) =
        decide (loop.first.value < loop.last.value) ↔ ¬ loop.Misdirected := by
  rw [decide_eq_decide, Misdirected]
  rcases lt_or_ge loop.first.value loop.last.value with up | down
  · have ordered := Number.nearestDouble_mono up.le
    simp only [up, iff_true, true_and]
    omega
  · have ordered := Number.nearestDouble_mono down
    simp only [Int.not_lt.mpr down, iff_false, false_and, not_false_eq_true, iff_true]
    omega

/-- Bounds within `2 ^ 53` are their own doubles. -/
theorem not_misdirected_of_le (firstSmall : loop.first.value.natAbs ≤ 2 ^ 53)
    (lastSmall : loop.last.value.natAbs ≤ 2 ^ 53) : ¬ loop.Misdirected := by
  rintro ⟨up, same⟩
  rw [Number.nearestDouble_of_le firstSmall, Number.nearestDouble_of_le lastSmall] at same
  exact up.ne same

end LiteralLoop

/-- A loop between two integer literals, which gives neither a type nor a step and whose counter
is no local, in any draft. It is written as a loop that counts up if the first bound is less than
the last and down if not, exactly if its counter is not named as a keyword of the header and its
bounds do not go up to a number with the same double, which bounds within `2 ^ 53` never do. A
counter named so has the header refused, and any other header is written, with the direction of
the doubles. A loop in the right direction leaves after as many rounds as its bounds are apart;
one in the wrong direction never leaves. -/
theorem literal_loop_counts_right_iff {draft : Draft} (loop : LiteralLoop)
    (new : draft.nesting.function.bind (·.local? loop.counter.val) = none) :
    ((Rule.forLoop loop.tokens).run draft = .ok () (draft.openLoop loop.counter.val
          (loop.header (loop.first.value < loop.last.value))) ↔
        ¬ loop.Reserved ∧ ¬ loop.Misdirected) ∧
      (loop.first.value.natAbs ≤ 2 ^ 53 → loop.last.value.natAbs ≤ 2 ^ 53 →
        ¬ loop.Misdirected) ∧
      (loop.Reserved → ∃ cause, (Rule.forLoop loop.tokens).run draft =
        .error (.malformed cause) draft) ∧
      (¬ loop.Reserved → (Rule.forLoop loop.tokens).run draft =
        .ok () (draft.openLoop loop.counter.val
          (loop.header (nearestDouble loop.first.value < nearestDouble loop.last.value)))) ∧
      (∀ rounds, LeavesAfter loop.last.value (if loop.first.value < loop.last.value then 1 else -1)
        loop.first.value rounds ↔ rounds = (loop.last.value - loop.first.value).natAbs) ∧
      (loop.Misdirected → ∀ rounds,
        ¬ LeavesAfter loop.last.value (-1) loop.first.value rounds) := by
  have refused : loop.Reserved → ∃ cause, (Rule.forLoop loop.tokens).run draft =
      .error (.malformed cause) draft := by
    intro reserved
    obtain ⟨cause, reading⟩ := loop.read_reserved draft.nesting reserved new
    refine ⟨cause, ?_⟩
    rw [Rule.forLoop_run, reading]
    rfl
  have written : ¬ loop.Reserved → (Rule.forLoop loop.tokens).run draft =
      .ok () (draft.openLoop loop.counter.val
        (loop.header (nearestDouble loop.first.value < nearestDouble loop.last.value))) := by
    intro free
    rw [Rule.forLoop_run, loop.read_header draft.nesting free new]
    rfl
  refine ⟨⟨fun right => ?_, ?_⟩, loop.not_misdirected_of_le, refused, written,
    fun rounds => ?_, ?_⟩
  · have free : ¬ loop.Reserved := by
      intro reserved
      obtain ⟨cause, run⟩ := refused reserved
      rw [run] at right
      cases right
    rw [written free] at right
    obtain ⟨-, same⟩ := EStateM.Result.ok.inj right
    exact ⟨free, loop.direction_right_iff.mp
      (loop.header_injective (Draft.openLoop_injective same))⟩
  · rintro ⟨free, straight⟩
    rw [written free, loop.direction_right_iff.mpr straight]
  · split
    · rw [leavesAfter_iff (by decide)]
      omega
    · rw [leavesAfter_iff (by decide)]
      omega
  · rintro ⟨up, -⟩ rounds leaves
    rw [leavesAfter_iff (by decide)] at leaves
    omega

/-- A loop whose last bound has a sign counts down, and leaves after seven rounds. -/
theorem literal_loop_counts_right_iff_signed :
    let loop : LiteralLoop := ⟨⟨"For", by decide⟩, ⟨"i", by decide⟩, ⟨["3"], 3, by decide +kernel⟩,
      ⟨"To", by decide⟩, ⟨["-", "4"], -4, by decide +kernel⟩⟩
    (Rule.forLoop ["For", "i", "=", "3", "To", "-", "4"]).run {} = .ok ()
        (({} : Draft).openLoop "i" (loop.header false)) ∧
      LeavesAfter (-4) (-1) 3 7 := by
  intro loop
  obtain ⟨right, small, -, -, leaves, -⟩ := @literal_loop_counts_right_iff {} loop rfl
  have free : ¬ loop.Reserved := not_or.mpr ⟨by decide, by decide⟩
  exact ⟨right.mpr ⟨free, small (by decide) (by decide)⟩, (leaves 7).mpr (by decide)⟩

/-- From `2 ^ 53` up to the next number, whose double is the same, a loop counts down and never
leaves. -/
theorem literal_loop_runs_away :
    ((Draft.start {} []).convertFrom 0
        [⟨1, "For i = 9007199254740992 To 9007199254740993"⟩]).toOption.map Draft.output =
      some #["for (int i = 9007199254740992; i != 9007199254740993; i--)", "\x7b"] ∧
    ∀ rounds, ¬ LeavesAfter 9007199254740993 (-1) 9007199254740992 rounds := by
  refine ⟨by decide +kernel, fun rounds leaves => ?_⟩
  rw [leavesAfter_iff (by decide)] at leaves
  omega

end BasicToSharp
