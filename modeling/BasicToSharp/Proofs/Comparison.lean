import BasicToSharp.Proofs.BranchHeader

/-!
# Comparisons in the header of a branch

An `If` line with one comparison becomes the header of a block. How its operands and its
operator are spaced must not matter, and mostly it does not: a word and an operator are told
apart by their characters, and blanks between them change nothing. But a sign that touches the
operator is gathered into it. What is then read is no relation, and it is written as it stands.

The line is read piece by piece. Its blanks decide whether the operator and the sign are two
tokens or one, and that is all that is left of the spacing when the header is written.
-/

namespace BasicToSharp

open Text (AllBlank)
open Token (Kind quote)

/-! ## Relations -/

/-- The six relations between two values. -/
inductive Relation
  | equal
  | unequal
  | less
  | greater
  | atMost
  | atLeast
  deriving DecidableEq, Repr

namespace Relation

/-- The spelling of a relation in the source. -/
def basic : Relation → Token
  | .equal => "="
  | .unequal => "<>"
  | .less => "<"
  | .greater => ">"
  | .atMost => "<="
  | .atLeast => ">="

/-- The spelling of a relation in the output. -/
def sharp : Relation → Token
  | .equal => "=="
  | .unequal => "!="
  | .less => "<"
  | .greater => ">"
  | .atMost => "<="
  | .atLeast => ">="

/-- In a condition the sign of a relation is written as its counterpart. -/
theorem conditionToken_basic (relation : Relation) :
    Expression.conditionToken relation.basic = relation.sharp := by
  cases relation <;> decide

/-- The sign of a relation in the source is an operator. -/
theorem fits_basic (relation : Relation) : Kind.operators.fits relation.basic = true := by
  cases relation <;> decide

/-- The sign of a relation in the output is an operator. -/
theorem fits_sharp (relation : Relation) : Kind.operators.fits relation.sharp = true := by
  cases relation <;> decide

end Relation

/-- The sign of an operand. -/
inductive Sign
  | plus
  | minus
  deriving DecidableEq, Repr

/-- The token of a sign. -/
def Sign.token : Sign → Token
  | .plus => "+"
  | .minus => "-"

/-- A sign is an operator. -/
theorem Sign.fits_token (sign : Sign) : Kind.operators.fits sign.token = true := by
  cases sign <;> decide

/-- What is written for a sign that may be missing. -/
def signText : Option Sign → String
  | none => ""
  | some sign => sign.token

/-! ## Operands -/

/-- A name that no table knows and that is no comparison in words. -/
structure PlainName (name : Token) : Prop where
  identifier : Token.isIdentifier name = true
  unregistered : Vocabulary.isUnregistered name = true
  notIs : Token.isKeyword name "Is" = false
  notIsNot : Token.isKeyword name "IsNot" = false

instance (name : Token) : Decidable (PlainName name) :=
  decidable_of_iff
    (Token.isIdentifier name = true ∧ Vocabulary.isUnregistered name = true ∧
      Token.isKeyword name "Is" = false ∧ Token.isKeyword name "IsNot" = false)
    ⟨fun ⟨identifier, unregistered, notIs, notIsNot⟩ =>
      ⟨identifier, unregistered, notIs, notIsNot⟩,
    fun plain => ⟨plain.identifier, plain.unregistered, plain.notIs, plain.notIsNot⟩⟩

/-- A word that stands for itself in a condition and ends it nowhere. -/
structure StandsForItself (token : Token) : Prop where
  word : Kind.word.fits token = true
  notThen : Token.isKeyword token "Then" = false
  notOpening : token ∉ openingWords
  unchanged : Expression.conditionToken token = token

namespace Text

/-- The one letter that only the look-up form folds. -/
def kelvin : Char := '\u212A'

/-- Every character but the kelvin sign folds as it does in ASCII. -/
theorem lowerLatin_eq {c : Char} (other : c ≠ kelvin) : lowerLatin c = c.toLower := by
  simp only [lowerLatin, beq_iff_eq]
  exact if_neg other

/-- A character that is no lower-case letter is the look-up form of itself only. -/
theorem eq_of_lowerLatin {c form : Char} (folds : lowerLatin c = form)
    (other : form.isLower = false) : c = form := by
  by_cases isKelvin : c = kelvin
  · subst isKelvin folds
    exact absurd other (by decide)
  · rw [lowerLatin_eq isKelvin] at folds
    by_cases capital : c.val ≥ 'A'.val ∧ c.val ≤ 'Z'.val
    · have letters :
          (List.range 26).all (fun n => (Char.ofNat (n + 65)).toLower.isLower) = true := by decide
      have low : 65 ≤ c.toNat := UInt32.le_iff_toNat_le.mp capital.1
      have high : c.toNat ≤ 90 := UInt32.le_iff_toNat_le.mp capital.2
      have here := List.all_eq_true.mp letters (c.toNat - 65) (List.mem_range.mpr (by omega))
      rw [Nat.sub_add_cancel low, Char.ofNat_toNat, folds, other] at here
      cases here
    · have unchanged : c.toLower = c := dif_neg capital
      rw [← folds, unchanged]

/-- A keyword in any case has the keyword's look-up form. -/
theorem lookupForm_of_isKeyword {token keyword form : String}
    (same : Token.isKeyword token keyword = true)
    (lower : keyword.toList.map Char.toLower = form.toList) (latin : kelvin ∉ form.toList) :
    lookupForm token = form := by
  have lowered : token.toList.map Char.toLower = form.toList := (beq_iff_eq.mp same).trans lower
  rw [lookupForm, ← String.toList_inj, String.toList_ofList, ← lowered]
  refine List.map_congr_left fun c member => lowerLatin_eq ?_
  rintro rfl
  have unchanged : kelvin.toLower = kelvin := by decide
  rw [← lowered] at latin
  exact latin (List.mem_map.mpr ⟨kelvin, member, unchanged⟩)

/-- A word whose look-up form is that of a keyword is the keyword in some case, unless a letter
of the form could have come from elsewhere. -/
theorem isKeyword_of_lookupForm {token keyword form : String} (same : lookupForm token = form)
    (lower : keyword.toList.map Char.toLower = form.toList) (latin : 'k' ∉ form.toList) :
    Token.isKeyword token keyword = true := by
  have folded : token.toList.map lowerLatin = form.toList := by
    rw [← same, lookupForm, String.toList_ofList]
  refine beq_iff_eq.mpr ?_
  rw [lower, ← folded]
  refine List.map_congr_left fun c member => (lowerLatin_eq ?_).symm
  rintro rfl
  rw [← folded] at latin
  exact latin (List.mem_map.mpr ⟨kelvin, member, by decide⟩)

end Text

/-- A name is a word. -/
theorem Token.fits_of_identifier {name : Token} (identifier : Token.isIdentifier name = true) :
    Kind.word.fits name = true := by
  unfold Token.isIdentifier at identifier
  split at identifier
  · cases identifier
  · next first rest chars =>
    simp only [Bool.and_eq_true, Bool.or_eq_true] at identifier
    obtain ⟨starts, later⟩ := identifier
    have here : Token.isWordChar first = true := by
      rcases starts with letter | underscore <;> simp_all [Token.isWordChar]
    simp [Kind.fits, chars, here, later]

/-- A number is a word. -/
theorem Token.fits_of_numeric {number : Token} (numeric : Token.isNumeric number = true) :
    Kind.word.fits number = true := by
  simp only [Token.isNumeric, Bool.and_eq_true, List.all_eq_true] at numeric
  simp only [Kind.fits, Bool.and_eq_true, List.all_eq_true]
  refine ⟨numeric.1, fun c member => ?_⟩
  simp [Token.isWordChar, numeric.2 c member]

/-- A condition differs from an expression only in `=` and in words that compare and combine. -/
theorem conditionToken_eq_expressionToken {token : Token}
    (other : ∀ form ∈ ["=", "is", "isnot", "and", "or"], Text.lookupForm token ≠ form) :
    Expression.conditionToken token = Expression.expressionToken token := by
  simp only [List.forall_mem_cons] at other
  obtain ⟨notEqual, notIs, notIsNot, notAnd, notOr, -⟩ := other
  unfold Expression.conditionToken
  split <;> simp_all

/-- A token of no special meaning is not changed in a condition. -/
theorem conditionToken_eq_self {token : Token}
    (other : ∀ form ∈ ["=", "is", "isnot", "and", "or"], Text.lookupForm token ≠ form)
    (unknown : Vocabulary.expression? token = none) :
    Expression.conditionToken token = token := by
  rw [conditionToken_eq_expressionToken other, Expression.expressionToken, unknown,
    Option.getD_none]

/-- `=` is the look-up form of itself only. -/
theorem Text.eq_of_lookupForm_equal {token : Token} (isEqual : Text.lookupForm token = "=") :
    token = "=" := by
  obtain ⟨c, single, folds⟩ := List.map_eq_singleton_iff.mp (String.ofList_injective isEqual)
  obtain rfl := Text.eq_of_lowerLatin folds (by decide)
  exact String.toList_inj.mp single

/-- A plain name stands for itself. -/
theorem PlainName.standsForItself {name : Token} (plain : PlainName name) :
    StandsForItself name := by
  obtain ⟨identifier, unregistered, notIs, notIsNot⟩ := plain
  have word := Token.fits_of_identifier identifier
  simp only [Vocabulary.isUnregistered, Bool.and_eq_true, Option.isNone_iff_eq_none] at unregistered
  obtain ⟨⟨⟨⟨-, noFlow⟩, noExpression⟩, -⟩, -⟩ := unregistered
  have noEntry : ∀ form, (Vocabulary.flowWords.lookup form).isSome = true →
      Text.lookupForm name ≠ form := by
    rintro form known rfl
    rw [Vocabulary.flow?, Vocabulary.find] at noFlow
    simp [noFlow] at known
  refine ⟨word, ?_, ?_, conditionToken_eq_self ?_ noExpression⟩
  · rw [Bool.eq_false_iff]
    intro isThen
    exact noEntry "then" (by decide)
      (Text.lookupForm_of_isKeyword isThen (by decide) (by decide))
  · intro member
    have known : openingWords.all (fun word => (Vocabulary.flow? word).isSome) = true := by decide
    simpa [noFlow] using List.all_eq_true.mp known name member
  · simp only [List.forall_mem_cons]
    refine ⟨?_, ?_, ?_, noEntry "and" (by decide), noEntry "or" (by decide), nofun⟩
    · intro isEqual
      obtain rfl := Text.eq_of_lookupForm_equal isEqual
      exact absurd identifier (by decide)
    · intro isIs
      have isKeyword : Token.isKeyword name "Is" = true :=
        Text.isKeyword_of_lookupForm isIs (by decide) (by decide)
      rw [notIs] at isKeyword
      cases isKeyword
    · intro isIsNot
      have isKeyword : Token.isKeyword name "IsNot" = true :=
        Text.isKeyword_of_lookupForm isIsNot (by decide) (by decide)
      rw [notIsNot] at isKeyword
      cases isKeyword

/-- A number is its own look-up form. -/
theorem Token.lookupForm_of_numeric {number : Token} (numeric : Token.isNumeric number = true) :
    Text.lookupForm number = number := by
  simp only [Token.isNumeric, Bool.and_eq_true, List.all_eq_true] at numeric
  have unchanged : ∀ c ∈ number.toList, Text.lowerLatin c = c := by
    intro c member
    have digit := numeric.2 c member
    have notKelvin : c ≠ Text.kelvin := by
      rintro rfl
      exact absurd digit (by decide)
    have small : ¬ (c.val ≥ 'A'.val ∧ c.val ≤ 'Z'.val) := by
      rintro ⟨capital, -⟩
      rw [Char.isDigit, Bool.and_eq_true, decide_eq_true_eq, decide_eq_true_eq] at digit
      have low : 65 ≤ c.toNat := UInt32.le_iff_toNat_le.mp capital
      have high : c.toNat ≤ 57 := UInt32.le_iff_toNat_le.mp digit.2
      omega
    rw [Text.lowerLatin_eq notKelvin]
    exact dif_neg small
  rw [Text.lookupForm, List.map_congr_left unchanged, List.map_id', String.ofList_toList]

/-- A number stands for itself. -/
theorem StandsForItself.of_numeric {number : Token} (numeric : Token.isNumeric number = true) :
    StandsForItself number := by
  have form := Token.lookupForm_of_numeric numeric
  have other : ∀ {word : Token}, Token.isNumeric word = false → number ≠ word := by
    rintro word notNumeric rfl
    rw [numeric] at notNumeric
    cases notNumeric
  refine ⟨Token.fits_of_numeric numeric, ?_, ?_, conditionToken_eq_self ?_ ?_⟩
  · rw [Bool.eq_false_iff]
    intro isThen
    have same : Text.lookupForm number = "then" :=
      Text.lookupForm_of_isKeyword isThen (by decide) (by decide)
    rw [form] at same
    exact other (by decide) same
  · intro member
    have words : openingWords.all (fun word => !Token.isNumeric word) = true := by decide
    simpa [numeric] using List.all_eq_true.mp words number member
  · have words : ["=", "is", "isnot", "and", "or"].all (fun word => !Token.isNumeric word) = true :=
      by decide
    intro word member
    rw [form]
    exact other (by simpa using List.all_eq_true.mp words word member)
  · rw [Vocabulary.expression?, Vocabulary.find, form, Option.eq_none_iff_forall_ne_some]
    intro written found
    have words : Vocabulary.expressionWords.all (fun entry => !Token.isNumeric entry.1) = true := by
      decide
    have entry := @Table.mem_entries_of_get? _ ⟨Vocabulary.expressionWords⟩ _ _ found
    simpa [numeric] using List.all_eq_true.mp words _ entry

/-- What stands for itself stays in its condition. -/
theorem StandsForItself.stays {token : Token} (itself : StandsForItself token) :
    StaysInCondition token where
  notQuote := Token.Kind.ne_of_fits itself.word (by decide)
  notAmpersand := Token.Kind.ne_of_fits itself.word (by decide)
  notThen := itself.notThen
  notOpening := itself.notOpening

/-! ## Spaces in a header -/

section Spaces

variable {before : Option Token} {left right : Token}

/-- A sign behind an operator is set tight against its operand. -/
theorem Spacing.gap_sign {sign : Sign} (noOperand : Spacing.endsOperand left = false) :
    Spacing.expression.gap (some left) sign.token right = "" := by
  have isSign : Spacing.isSign (some left) sign.token = true := by
    cases sign <;> simp [Spacing.isSign, Sign.token, noOperand]
  simp [Spacing.gap, isSign]

/-- Tokens without quotes leave no literal open. -/
theorem Token.WellQuoted.of_bare {tokens : List Token}
    (bare : ∀ token ∈ tokens, Token.Bare token) : Token.WellQuoted tokens := by
  induction tokens with
  | nil => exact .nil
  | cons token rest inductionHypothesis =>
    obtain ⟨here, later⟩ := List.forall_mem_cons.mp bare
    exact .code here (inductionHypothesis later)

/-- A run of operator characters ends no operand. -/
theorem Spacing.endsOperand_operators (fits : Kind.operators.fits left = true) :
    Spacing.endsOperand left = false := by
  have notWord : Kind.word.fits left ≠ true := fun isWord =>
    absurd (Kind.fits_unique fits isWord) (by decide)
  have notName : Token.isIdentifier left = false := by
    rw [Bool.eq_false_iff]
    exact fun name => notWord (Token.fits_of_identifier name)
  have notNumber : Token.isNumeric left = false := by
    rw [Bool.eq_false_iff]
    exact fun number => notWord (Token.fits_of_numeric number)
  have notClosing : left ∉ [")", "]", quote] := Kind.not_mem_of_fits fits (by decide)
  simp only [List.mem_cons, List.not_mem_nil, or_false, not_or] at notClosing
  simp [Spacing.endsOperand, notName, notNumber, notClosing]

section Operands

variable {operator : Token} (fitsLeft : Kind.word.fits left = true)
  (fitsRight : Kind.word.fits right = true) (fits : Kind.operators.fits operator = true)
  (loose : operator ∉ ["-", "+", ".", "!"])

include fitsLeft fits loose in
/-- A space stands before an operator. -/
theorem Spacing.gap_operator : Spacing.expression.gap none left operator = " " := by
  have bracket : operator ∉ ["(", ",", ")"] := Kind.not_mem_of_fits fits (by decide)
  refine Token.gap_eq_space (Kind.not_mem_of_fits fitsLeft (by decide))
    (Kind.not_mem_of_fits fitsLeft (by decide)) ?_
  simp_all [Spacing.expression]

include fits loose in
/-- A space stands behind an operator, unless the next token takes none. -/
theorem Spacing.gap_behind_operator (notTight : right ∉ "(" :: Spacing.expression.tightBefore) :
    Spacing.expression.gap before operator right = " " := by
  have bracket : operator ∉ ["("] := Kind.not_mem_of_fits fits (by decide)
  refine Token.gap_eq_space ?_ ?_ notTight <;> simp_all [Spacing.expression]

include fitsLeft fitsRight fits loose in
/-- Two operands with an operator between them. -/
theorem Spacing.lineFrom_between :
    Spacing.expression.lineFrom none [left, operator, right] =
      left ++ " " ++ operator ++ " " ++ right := by
  have behind : Spacing.expression.gap (some left) operator right = " " :=
    Spacing.gap_behind_operator fits loose (Kind.not_mem_of_fits fitsRight (by decide))
  rw [Spacing.lineFrom_cons _ (Token.Kind.ne_of_fits fitsLeft (by decide)),
    Spacing.lineFrom_cons _ (Token.Kind.ne_of_fits fits (by decide)), Spacing.lineFrom_single,
    Spacing.gap_operator fitsLeft fits loose, behind]
  simp only [String.append_assoc]

include fitsLeft fits loose in
/-- Two operands with an operator between them, the second behind its sign. -/
theorem Spacing.lineFrom_signed (sign : Sign) :
    Spacing.expression.lineFrom none [left, operator, sign.token, right] =
      left ++ " " ++ operator ++ " " ++ sign.token ++ right := by
  have behind : Spacing.expression.gap (some left) operator sign.token = " " :=
    Spacing.gap_behind_operator fits loose (by cases sign <;> decide)
  rw [Spacing.lineFrom_cons _ (Token.Kind.ne_of_fits fitsLeft (by decide)),
    Spacing.lineFrom_cons _ (Token.Kind.ne_of_fits fits (by decide)),
    Spacing.lineFrom_cons _ (by cases sign <;> decide), Spacing.lineFrom_single,
    Spacing.gap_operator fitsLeft fits loose, behind,
    Spacing.gap_sign (Spacing.endsOperand_operators fits)]
  simp only [String.append_assoc, String.empty_append]

end Operands

end Spaces

/-! ## A line with one comparison -/

/-- A comparison of a name with a name or an unsigned number, which may have a sign. -/
structure Comparison where
  left : Token
  relation : Relation
  sign : Option Sign
  right : Token
  leftPlain : PlainName left
  rightPlain : PlainName right ∨ Token.isNumeric right = true

namespace Comparison

/-- The line of a branch with the given blanks before and behind the operator. -/
def line (comparison : Comparison) (before after : String) : String :=
  "If " ++ comparison.left ++ before ++ comparison.relation.basic ++ after ++
    signText comparison.sign ++ comparison.right ++ " Then"

/-- The header that the comparison should become. -/
def header (comparison : Comparison) : String :=
  "if (" ++ comparison.left ++ " " ++ comparison.relation.sharp ++ " " ++
    signText comparison.sign ++ comparison.right ++ ")"

/-- The header of a comparison whose sign has been gathered into the operator. -/
def gatheredHeader (comparison : Comparison) : String :=
  "if (" ++ comparison.left ++ " " ++ comparison.relation.basic ++ signText comparison.sign ++
    " " ++ comparison.right ++ ")"

/-- The tokens between the operands: the operator and the sign, or the two in one. -/
def operators (comparison : Comparison) (after : String) : List Token :=
  match comparison.sign with
  | none => [comparison.relation.basic]
  | some sign =>
    if after = "" then [comparison.relation.basic ++ sign.token]
    else [comparison.relation.basic, sign.token]

/-- The tokens of the condition. -/
def condition (comparison : Comparison) (after : String) : List Token :=
  comparison.left :: (comparison.operators after ++ [comparison.right])

/-- The right side of a comparison stands for itself. -/
theorem right_standsForItself (comparison : Comparison) : StandsForItself comparison.right := by
  rcases comparison.rightPlain with name | number
  · exact name.standsForItself
  · exact .of_numeric number

section Reading

variable {before after : String}

/-- Behind the operator, the blanks decide whether the sign is a token of its own. -/
theorem resume_operator (comparison : Comparison)
    (blankAfter : AllBlank after.toList) (rest : List Char) :
    Kind.operators.resume comparison.relation.basic
        (after.toList ++ ((signText comparison.sign).toList ++ (comparison.right.toList ++ rest))) =
      comparison.operators after ++ Kind.word.resume comparison.right rest := by
  have fits := comparison.relation.fits_basic
  have fitsRight := comparison.right_standsForItself.word
  unfold operators
  cases comparison.sign with
  | none => exact Kind.resume_run rfl fits rfl fitsRight blankAfter fun _ => nofun
  | some sign =>
    have fitsSign := sign.fits_token
    simp only [signText]
    split
    · next touching =>
      have fitsBoth := Kind.fits_append rfl fits fitsSign
      rw [touching, String.toList_empty, List.nil_append, Kind.resume_same rfl fitsSign,
        Kind.resume_touching rfl fitsBoth rfl fitsRight nofun, List.singleton_append]
    · next spaced =>
      have apart : after.toList = [] → Kind.operators ≠ Kind.operators := fun empty =>
        absurd (String.toList_eq_nil_iff.mp empty) spaced
      rw [Kind.resume_run rfl fits rfl fitsSign blankAfter apart,
        Kind.resume_touching rfl fitsSign rfl fitsRight nofun]
      rfl

/-- The tokens of a comparison, with any blanks between its parts. -/
theorem tokenize_line (comparison : Comparison)
    (blankBefore : AllBlank before.toList)
    (blankAfter : AllBlank after.toList) :
    Token.tokenize (comparison.line before after) =
      "If" :: (comparison.condition after ++ ["Then"]) := by
  have chars : (comparison.line before after).toList =
      "If".toList ++ ([' '] ++ (comparison.left.toList ++ (before.toList ++
        (comparison.relation.basic.toList ++ (after.toList ++
          ((signText comparison.sign).toList ++ (comparison.right.toList ++
            ([' '] ++ ("Then".toList ++ []))))))))) := by
    have first : "If ".toList = "If".toList ++ [' '] := by decide
    have last : " Then".toList = [' '] ++ ("Then".toList ++ []) := by decide
    simp only [line, String.toList_append, first, last, List.append_assoc]
  have trimmed : Text.Trimmed (comparison.line before after).toList := by
    have ends : Text.EndsVisible " Then".toList := by decide
    rw [Text.trimmed_iff]
    refine ⟨?_, ?_⟩
    · rw [chars]
      intro c first
      obtain rfl := Option.some.inj first
      decide
    · rw [line, String.toList_append]
      exact ends.append_of_ne_nil (by decide) _
  have space : AllBlank [' '] := by decide
  have fitsLeft := comparison.leftPlain.standsForItself.word
  have fits := comparison.relation.fits_basic
  have fitsRight := comparison.right_standsForItself.word
  have fitsIf : Kind.word.fits "If" = true := by decide
  have fitsThen : Kind.word.fits "Then" = true := by decide
  rw [Token.tokenize_eq_read, trimmed.trimBlanks_eq, chars, Token.read_run rfl fitsIf,
    Kind.resume_run rfl fitsIf rfl fitsLeft space nofun,
    Kind.resume_run rfl fitsLeft rfl fits blankBefore (fun _ => nofun),
    comparison.resume_operator blankAfter,
    Kind.resume_run rfl fitsRight rfl fitsThen space nofun,
    Kind.resume_nil fitsThen (by decide), condition, List.cons_append, List.append_assoc]
  rfl

end Reading

/-! ### The written header -/

section Writing

variable {before after : String}

/-- The operators of a comparison stay in its condition. -/
theorem operators_stay (comparison : Comparison) (after : String) :
    ∀ token ∈ comparison.operators after, StaysInCondition token := by
  have basic : ∀ relation : Relation, StaysInCondition relation.basic := fun relation =>
    .of_operators relation.fits_basic (by cases relation <;> decide)
  have sign : ∀ sign : Sign, StaysInCondition sign.token := fun sign =>
    .of_operators sign.fits_token (by cases sign <;> decide)
  have both : ∀ (relation : Relation) (sign : Sign),
      StaysInCondition (relation.basic ++ sign.token) := fun relation sign =>
    .of_operators (Kind.fits_append rfl relation.fits_basic sign.fits_token)
      (by cases relation <;> cases sign <;> decide)
  unfold operators
  cases comparison.sign with
  | none => simpa using basic comparison.relation
  | some given =>
    simp only
    split
    · simpa using both comparison.relation given
    · simpa using ⟨basic comparison.relation, sign given⟩

/-- All tokens of a comparison stay in its condition. -/
theorem condition_stays (comparison : Comparison) (after : String) :
    ∀ token ∈ comparison.condition after, StaysInCondition token := by
  simp only [condition, List.forall_mem_cons, List.forall_mem_append]
  exact ⟨comparison.leftPlain.standsForItself.stays, comparison.operators_stay after,
    comparison.right_standsForItself.stays, nofun⟩

/-- The tokens between the operands as they are written. -/
def writtenOperators (comparison : Comparison) (after : String) : List Token :=
  match comparison.sign with
  | none => [comparison.relation.sharp]
  | some sign =>
    if after = "" then [comparison.relation.basic ++ sign.token]
    else [comparison.relation.sharp, sign.token]

/-- Each operator of a comparison is written as its counterpart. -/
theorem map_conditionToken_operators (comparison : Comparison) (after : String) :
    (comparison.operators after).map Expression.conditionToken =
      comparison.writtenOperators after := by
  have sign : ∀ sign : Sign, Expression.conditionToken sign.token = sign.token := by
    intro sign
    cases sign <;> decide
  -- With the sign in it, the operator is in no table.
  have both : ∀ (relation : Relation) (sign : Sign),
      Expression.conditionToken (relation.basic ++ sign.token) = relation.basic ++ sign.token := by
    intro relation sign
    cases relation <;> cases sign <;> decide
  unfold operators writtenOperators
  cases comparison.sign with
  | none => simp [Relation.conditionToken_basic]
  | some given =>
    simp only
    split
    · simp [both]
    · simp [Relation.conditionToken_basic, sign]

/-- The tokens that a comparison is written with. -/
theorem conditionTokens_condition (comparison : Comparison) (after : String) :
    Expression.conditionTokens (comparison.condition after) =
      comparison.left :: (comparison.writtenOperators after ++ [comparison.right]) := by
  have plain : ∀ token ∈ comparison.condition after, token ≠ quote :=
    fun token member => (comparison.condition_stays after token member).notQuote
  have left := comparison.leftPlain.standsForItself.unchanged
  have right := comparison.right_standsForItself.unchanged
  rw [Expression.conditionTokens, Token.mapUnquoted_plain plain, condition]
  simp [left, right, map_conditionToken_operators]

/-- A written comparison leaves no literal open. -/
theorem wellQuoted_written (comparison : Comparison) (after : String) :
    Token.WellQuoted
      (comparison.left :: (comparison.writtenOperators after ++ [comparison.right])) := by
  have operators : ∀ token ∈ comparison.writtenOperators after,
      Kind.operators.fits token = true := by
    have basic := comparison.relation.fits_basic
    have sharp := comparison.relation.fits_sharp
    unfold writtenOperators
    cases comparison.sign with
    | none => simpa using sharp
    | some sign =>
      simp only
      split
      · simpa using Kind.fits_append rfl basic sign.fits_token
      · simpa using ⟨sharp, sign.fits_token⟩
  apply Token.WellQuoted.of_bare
  simp only [List.forall_mem_cons, List.forall_mem_append]
  exact ⟨Kind.bare_of_isRun rfl comparison.leftPlain.standsForItself.word,
    fun token member => Kind.bare_of_isRun rfl (operators token member),
    Kind.bare_of_isRun rfl comparison.right_standsForItself.word, nofun⟩

/-- The written condition: with the relation translated and the sign tight against its operand,
or with the two in one. -/
theorem renderCondition_condition (comparison : Comparison) (after : String) :
    Expression.renderCondition (comparison.condition after) =
      if comparison.sign ≠ none ∧ after = "" then
        comparison.left ++ " " ++ comparison.relation.basic ++ signText comparison.sign ++ " " ++
          comparison.right
      else
        comparison.left ++ " " ++ comparison.relation.sharp ++ " " ++ signText comparison.sign ++
          comparison.right := by
  have fitsLeft := comparison.leftPlain.standsForItself.word
  have fitsRight := comparison.right_standsForItself.word
  have sharp := comparison.relation.fits_sharp
  have loose : comparison.relation.sharp ∉ ["-", "+", ".", "!"] := by
    cases comparison.relation <;> decide
  rw [Expression.renderCondition, conditionTokens_condition,
    (comparison.wellQuoted_written after).formatTokens_eq]
  unfold writtenOperators
  cases comparison.sign with
  | none =>
    rw [if_neg (by simp)]
    refine (Spacing.lineFrom_between fitsLeft fitsRight sharp loose).trans ?_
    simp [signText, String.append_assoc]
  | some sign =>
    by_cases touching : after = ""
    · have fits := Kind.fits_append rfl comparison.relation.fits_basic sign.fits_token
      have gathered : comparison.relation.basic ++ sign.token ∉ ["-", "+", ".", "!"] := by
        cases comparison.relation <;> cases sign <;> decide
      rw [if_pos ⟨nofun, touching⟩]
      simp only [if_pos touching]
      refine (Spacing.lineFrom_between fitsLeft fitsRight fits gathered).trans ?_
      simp [signText, String.append_assoc]
    · rw [if_neg fun gathers => touching gathers.2]
      simp only [if_neg touching]
      exact Spacing.lineFrom_signed fitsLeft sharp loose sign

/-- The header that is written for the line. -/
theorem blockHeader_condition (comparison : Comparison) (after : String) :
    blockHeader "if" (Expression.renderCondition (comparison.condition after)) =
      if comparison.sign ≠ none ∧ after = "" then comparison.gatheredHeader
      else comparison.header := by
  have plain : Expression.renderCondition (comparison.condition after) ≠ quote := by
    -- The text starts as the left side does, and that is a word.
    obtain ⟨c, rest, chars, -, notQuote⟩ :=
      (Kind.bare_of_isRun rfl comparison.leftPlain.standsForItself.word).head
    intro isQuote
    have first := congrArg (fun text => text.toList.head?) isQuote
    rw [renderCondition_condition] at first
    split at first <;>
      · simp only [String.append_assoc, String.toList_append, chars, Token.toList_quote,
          List.cons_append, List.head?_cons, Option.some.injEq] at first
        exact notQuote first
  have opens : "if (" = "if" ++ " (" := by decide
  rw [blockHeader_eq (by decide) plain, renderCondition_condition]
  split
  · simp only [gatheredHeader, opens, String.append_assoc]
  · simp only [header, opens, String.append_assoc]

/-- An operator that has gathered a sign is no translation of a relation: the two texts differ
within three characters of the left side. -/
theorem gatheredHeader_ne (comparison : Comparison) (signed : comparison.sign ≠ none) :
    comparison.gatheredHeader ≠ comparison.header := by
  have apart : ∀ (relation : Relation) (sign : Sign),
      ((relation.basic ++ sign.token ++ " ").toList.take 3 ≠
        (relation.sharp ++ " " ++ sign.token).toList.take 3) ∧
      3 ≤ (relation.basic ++ sign.token ++ " ").toList.length ∧
      3 ≤ (relation.sharp ++ " " ++ sign.token).toList.length := by
    intro relation sign
    cases relation <;> cases sign <;> decide
  obtain ⟨sign, given⟩ := Option.ne_none_iff_exists'.mp signed
  obtain ⟨different, long, long'⟩ := apart comparison.relation sign
  have gathered : comparison.gatheredHeader.toList = ("if (" ++ comparison.left ++ " ").toList ++
      ((comparison.relation.basic ++ sign.token ++ " ").toList ++
        (comparison.right ++ ")").toList) := by
    simp only [gatheredHeader, given, signText, String.toList_append, List.append_assoc]
  have translated : comparison.header.toList = ("if (" ++ comparison.left ++ " ").toList ++
      ((comparison.relation.sharp ++ " " ++ sign.token).toList ++
        (comparison.right ++ ")").toList) := by
    simp only [header, given, signText, String.toList_append, List.append_assoc]
  intro same
  rw [same, translated] at gathered
  have first := congrArg (List.take 3) (List.append_cancel_left gathered)
  rw [List.take_append_of_le_length long, List.take_append_of_le_length long'] at first
  exact different first.symm

end Writing

end Comparison

/-- A comparison is translated, whatever blanks stand around its operator, exactly when its
right side has no sign or a blank stands between the operator and the sign. A sign that touches
the operator is gathered into it, and the two are written as they stand. -/
theorem comparison_is_translated (comparison : Comparison) (draft : Draft) {before after : String}
    (blankBefore : AllBlank before.toList)
    (blankAfter : AllBlank after.toList) :
    ∃ final, draft.convertLine (comparison.line before after) = .ok final ∧
      final.output = (draft.output.push
        (if comparison.sign ≠ none ∧ after = "" then comparison.gatheredHeader
          else comparison.header)).push "\x7b" ∧
      (final.output = (draft.output.push comparison.header).push "\x7b" ↔
        comparison.sign = none ∨ after ≠ "") := by
  have starts : (comparison.line before after).toList.head? ≠ some Token.apostrophe := by
    have first : "If ".toList = ['I', 'f', ' '] := by decide
    simp only [Comparison.line, String.toList_append, first, List.cons_append, List.head?_cons]
    decide
  have bare : tokenAt (comparison.condition after) 0 ≠ "(" :=
    Kind.ne_of_fits comparison.leftPlain.standsForItself.word (by decide)
  have converted := draft.convertLine_ifBlock starts
    (comparison.tokenize_line blankBefore blankAfter) nofun (comparison.condition_stays after) bare
  rw [comparison.blockHeader_condition after] at converted
  refine ⟨_, converted, rfl, ?_⟩
  have lines : ∀ header,
      (draft.openIf header).output = (draft.output.push comparison.header).push "\x7b" ↔
        header = comparison.header := by
    intro header
    refine ⟨fun same => ?_, fun same => by rw [same]; rfl⟩
    have chars : (draft.output.push header).push "\x7b" =
        (draft.output.push comparison.header).push "\x7b" := same
    simpa using congrArg Array.toList chars
  rw [lines]
  by_cases gathers : comparison.sign ≠ none ∧ after = ""
  · rw [if_pos gathers]
    have different := comparison.gatheredHeader_ne gathers.1
    simp [gathers, different]
  · rw [if_neg gathers]
    have apart := not_and_or.mp gathers
    simpa using apart

/-- A comparison with a tab before a negative number. -/
theorem comparison_with_spaced_sign :
    AllBlank "".toList ∧ AllBlank "\t".toList ∧
    ∃ final, (Draft.start {} []).convertLine "If count>=\t-1 Then" = .ok final ∧
      final.output = #["if (count >= -1)", "\x7b"] := by
  have name : PlainName "count" := by decide
  let comparison : Comparison := ⟨"count", .atLeast, some .minus, "1", name, .inr (by decide)⟩
  have touches : AllBlank "".toList := by decide
  have blank : AllBlank "\t".toList := by decide
  obtain ⟨final, converted, -, translated⟩ :=
    comparison_is_translated comparison (Draft.start {} []) touches blank
  refine ⟨touches, blank, final, converted, ?_⟩
  exact translated.mpr (.inr (by decide))

/-- The sign touches the operator, which is then no relation any more. -/
theorem comparison_gathers_sign :
    ((Draft.start {} []).convertLine "If a=-1 Then").toOption.map (·.output) =
      some #["if (a =- 1)", "\x7b"] := by
  decide +kernel

end BasicToSharp
