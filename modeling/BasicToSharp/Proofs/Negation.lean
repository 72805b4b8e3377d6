import BasicToSharp.Proofs.Comparison
import BasicToSharp.Proofs.Positions
import Mathlib.Algebra.GroupWithZero.Nat
import Mathlib.Algebra.Order.BigOperators.Group.List
import Mathlib.Algebra.Order.Group.Nat

/-!
# The negation of a condition

A condition is negated in one of two ways. It is put in parentheses behind an exclamation
mark, which negates whatever it is; or, if it is a single relation between two operands, that
relation gives way to the opposite one. The second way is taken whenever one relation is found
outside literals and no word that combines conditions.

That is too often. A relation in brackets may be part of an argument, and turning it around
does not negate the condition around it. And `Is` and `IsNot` are left as they stand, since the
operands of a turned relation are written as expressions, where these words mean nothing.
Apart from these two cases the written text is a negation.

Two written texts are told apart by their visible characters: formatting adds and drops blanks
only, so the texts have as many parentheses and equality signs as the tokens they are written
from.
-/

namespace BasicToSharp

open ByPosition (isRelation relationsFrom)
open Expression (complement? conditionToken expressionToken)
open Text (isBlank lookupForm)
open Token (Marked mark quote)

/-! ## Opposite relations -/

namespace Relation

/-- When a relation holds between two numbers. -/
def Holds (left right : Int) : Relation → Prop
  | .equal => left = right
  | .unequal => left ≠ right
  | .less => left < right
  | .greater => left > right
  | .atMost => left ≤ right
  | .atLeast => left ≥ right

instance (relation : Relation) (left right : Int) : Decidable (relation.Holds left right) :=
  match relation with
  | .equal => inferInstanceAs (Decidable (left = right))
  | .unequal => inferInstanceAs (Decidable (left ≠ right))
  | .less => inferInstanceAs (Decidable (left < right))
  | .greater => inferInstanceAs (Decidable (left > right))
  | .atMost => inferInstanceAs (Decidable (left ≤ right))
  | .atLeast => inferInstanceAs (Decidable (left ≥ right))

/-- A relation that holds exactly where the other does not. -/
def Opposes (flipped relation : Relation) : Prop :=
  ∀ left right, flipped.Holds left right ↔ ¬ relation.Holds left right

/-- The opposite of a relation. -/
def complement : Relation → Relation
  | .equal => .unequal
  | .unequal => .equal
  | .less => .atLeast
  | .greater => .atMost
  | .atMost => .greater
  | .atLeast => .less

/-- The complement of a relation holds where the relation does not. -/
theorem opposes_complement (relation : Relation) : relation.complement.Opposes relation := by
  intro left right
  cases relation <;> simp [complement, Holds]

/-- Every relation has one opposite; three pairs of numbers tell the six apart. -/
theorem opposes_iff {flipped relation : Relation} :
    flipped.Opposes relation ↔ flipped = relation.complement := by
  constructor
  · intro opposes
    have same := opposes 0 0
    have below := opposes 0 1
    have above := opposes 1 0
    revert same below above
    cases flipped <;> cases relation <;> decide
  · rintro rfl
    exact opposes_complement relation

/-- The sign of a relation is turned into that of its complement. -/
theorem complement?_basic (relation : Relation) :
    complement? relation.basic = some relation.complement.sharp := by
  cases relation <;> rfl

/-- The tokens that are turned around are the relations of the source. -/
theorem exists_of_complement? {token : Token} (found : (complement? token).isSome = true) :
    ∃ relation : Relation, token = relation.basic := by
  unfold complement? at found
  split at found
  · exact ⟨.less, rfl⟩
  · exact ⟨.greater, rfl⟩
  · exact ⟨.atMost, rfl⟩
  · exact ⟨.atLeast, rfl⟩
  · exact ⟨.equal, rfl⟩
  · exact ⟨.unequal, rfl⟩
  · cases found

end Relation

/-! ## Visible characters of a written line -/

/-- The characters of a text without its blanks. -/
def visibleChars (chars : List Char) : List Char := chars.filter (!isBlank ·)

/-- The visible characters of a whole are those of its parts. -/
theorem visibleChars_append (left right : List Char) :
    visibleChars (left ++ right) = visibleChars left ++ visibleChars right :=
  List.filter_append left right

/-- Dropping blanks keeps the visible characters. -/
theorem visibleChars_dropWhile (chars : List Char) :
    visibleChars (chars.dropWhile isBlank) = visibleChars chars := by
  induction chars with
  | nil => rfl
  | cons c rest inductionHypothesis =>
    cases blank : isBlank c with
    | true =>
      rw [List.dropWhile_cons_of_pos blank, inductionHypothesis]
      simp [visibleChars, blank]
    | false => rw [List.dropWhile_cons_of_neg (by simp [blank])]

/-- Trimming keeps the visible characters. -/
theorem visibleChars_trimBlanks (chars : List Char) :
    visibleChars (Text.trimBlanks chars) = visibleChars chars := by
  have reversed : ∀ chars, visibleChars chars.reverse = (visibleChars chars).reverse :=
    fun chars => List.filter_reverse
  rw [Text.trimBlanks, Text.dropTrailingBlanks, reversed, visibleChars_dropWhile, reversed,
    List.reverse_reverse, visibleChars_dropWhile]

namespace Spacing

/-- Between tokens there is nothing but blanks. -/
theorem visibleChars_joinBehind (spacing : Spacing) (before : Option Token) (previous : Token)
    (insideLiteral : Bool) (tokens : List Token) :
    visibleChars (spacing.joinBehind before previous insideLiteral tokens).toList =
      visibleChars (tokens.flatMap String.toList) := by
  induction tokens generalizing before previous insideLiteral with
  | nil => rfl
  | cons token rest inductionHypothesis =>
    rw [joinBehind, String.toList_append, String.toList_append, visibleChars_append,
      visibleChars_append, inductionHypothesis, List.flatMap_cons, visibleChars_append]
    have space : visibleChars " ".toList = [] := by decide
    split
    · rw [space, List.nil_append]
    · rfl

end Spacing

/-- Formatting tokens adds and drops blanks only. -/
theorem visibleChars_formatTokens (tokens : List Token) :
    visibleChars (formatTokens tokens).toList = visibleChars (tokens.flatMap String.toList) := by
  cases tokens with
  | nil => rfl
  | cons first rest =>
    rw [formatTokens, Spacing.join_eq, Text.trim, String.toList_ofList, visibleChars_trimBlanks,
      Spacing.lineFrom, String.toList_append, visibleChars_append,
      Spacing.visibleChars_joinBehind, List.flatMap_cons, visibleChars_append]

/-- Two formatted lines agree only if their tokens have as many of each visible character. -/
theorem count_of_formatTokens {c : Char} (visible : isBlank c = false) (tokens : List Token) :
    (formatTokens tokens).toList.count c = (tokens.flatMap String.toList).count c := by
  have kept : ∀ chars, (visibleChars chars).count c = chars.count c :=
    fun chars => List.count_filter (by simp [visible])
  rw [← kept, visibleChars_formatTokens, kept]

/-! ## Ways to negate -/

/-- The number of brackets that are open behind tokens; a bracket too many is not closed. -/
def openBrackets (depth : Nat) : List Marked → Nat
  | [] => depth
  | ⟨token, quoted⟩ :: rest =>
    if quoted then openBrackets depth rest
    else if Token.isOpening token then openBrackets (depth + 1) rest
    else if Token.isClosing token then openBrackets (depth - 1) rest
    else openBrackets depth rest

/-- The number of brackets around the first relation outside literals. -/
def relationDepth (tokens : List Token) : Nat :=
  openBrackets 0 ((mark tokens).takeWhile (!isRelation ·))

/-- True of the words that compare by identity. -/
def isIdentityWord (token : Token) : Bool := ["is", "isnot"].contains (lookupForm token)

/-- The texts that negate a condition: the whole of it behind an exclamation mark, or the only
relation in it, which no bracket encloses, replaced by its opposite. -/
inductive Negates (condition : List Token) : String → Prop
  | wrapped : Negates condition ("!(" ++ Expression.renderCondition condition ++ ")")
  | turned {before after : List Marked} {relation flipped : Relation} :
      mark condition = before ++ ⟨relation.basic, false⟩ :: after →
      (∀ other ∈ before ++ after, isRelation other = false) → openBrackets 0 before = 0 →
      flipped.Opposes relation →
      Negates condition (Expression.renderCondition
        (before.map Marked.token ++ flipped.sharp :: after.map Marked.token))

/-- A condition whose only relation is turned around although more than this relation is to be
negated: it stands in brackets, or identity is compared beside it. -/
structure TurnedWrongly (condition : List Token) : Prop where
  single : Expression.isSingleRelation condition = true
  wrongly : relationDepth condition ≠ 0 ∨
    (Expression.unquoted condition).any isIdentityWord = true

instance (condition : List Token) : Decidable (TurnedWrongly condition) :=
  decidable_of_iff
    (Expression.isSingleRelation condition = true ∧ (relationDepth condition ≠ 0 ∨
      (Expression.unquoted condition).any isIdentityWord = true))
    ⟨fun ⟨single, wrongly⟩ => ⟨single, wrongly⟩, fun ⟨single, wrongly⟩ => ⟨single, wrongly⟩⟩

/-- A token of a condition that is negated by turning its relation around. -/
def swappedToken (marked : Marked) : Token :=
  if marked.quoted then marked.token
  else (complement? marked.token).getD (expressionToken marked.token)

/-- A token of the same condition with its other tokens written as in a condition. -/
def turnedToken (marked : Marked) : Token :=
  if marked.quoted then marked.token
  else (complement? marked.token).getD (conditionToken marked.token)

section Turned

variable {condition : List Token} {before after : List Marked} {relation : Relation}

/-- Replacing a token outside literals keeps what is a literal. -/
theorem markFrom_replace {inside quoted : Bool} {tokens : List Token} {token other : Token}
    (marked : Token.markFrom inside tokens = before ++ ⟨token, quoted⟩ :: after)
    (plain : token ≠ quote) (otherPlain : other ≠ quote) :
    Token.markFrom inside (before.map Marked.token ++ other :: after.map Marked.token) =
      before ++ ⟨other, quoted⟩ :: after := by
  induction before generalizing inside tokens with
  | nil =>
    cases tokens with
    | nil => cases marked
    | cons first rest =>
      have isFirst : first = token := by
        have tokensSame := congrArg (List.map Marked.token) marked
        rw [Token.markFrom_map_token] at tokensSame
        exact (List.cons.inj tokensSame).1
      subst isFirst
      rw [Token.markFrom, if_neg plain] at marked
      obtain ⟨here, rfl⟩ := List.cons.inj marked
      rw [List.map_nil, List.nil_append, Token.markFrom_map_token, Token.markFrom,
        if_neg otherPlain, List.nil_append, (Marked.mk.inj here).2]
  | cons first before inductionHypothesis =>
    cases tokens with
    | nil => cases marked
    | cons start rest =>
      rw [Token.markFrom] at marked
      split at marked
      · next isQuote =>
        obtain ⟨rfl, later⟩ := List.cons.inj marked
        rw [List.map_cons, List.cons_append, Token.markFrom, if_pos isQuote,
          inductionHypothesis later, List.cons_append]
      · next notQuote =>
        obtain ⟨rfl, later⟩ := List.cons.inj marked
        rw [List.map_cons, List.cons_append, Token.markFrom, if_neg notQuote,
          inductionHypothesis later, List.cons_append]

/-- A condition with one relation, cut at that relation. -/
theorem exists_relation (single : Expression.isSingleRelation condition = true) :
    ∃ (before : List Marked) (relation : Relation) (after : List Marked),
      mark condition = before ++ ⟨relation.basic, false⟩ :: after ∧
      ∀ other ∈ before ++ after, isRelation other = false := by
  rw [ByPosition.isSingleRelation_eq, Bool.and_eq_true, beq_iff_eq,
    List.length_eq_one_iff] at single
  obtain ⟨⟨index, found⟩, -⟩ := single
  obtain ⟨before, ⟨token, quoted⟩, after, cut, -, holds, left, right⟩ :=
    ByPosition.relationsFrom_single found
  obtain ⟨outside, related⟩ : quoted = false ∧ (complement? token).isSome = true := by
    simpa [isRelation] using holds
  obtain ⟨relation, rfl⟩ := Relation.exists_of_complement? related
  subst outside
  exact ⟨before, relation, after, cut, List.forall_mem_append.mpr ⟨left, right⟩⟩

/-- The brackets around the relation are those that are open where the condition is cut. -/
theorem relationDepth_eq (cut : mark condition = before ++ ⟨relation.basic, false⟩ :: after)
    (others : ∀ other ∈ before ++ after, isRelation other = false) :
    relationDepth condition = openBrackets 0 before := by
  have related : isRelation ⟨relation.basic, false⟩ = true := by
    simp [isRelation, relation.complement?_basic]
  have unrelated : ∀ other ∈ before, (!isRelation other) = true := fun other member => by
    simp [others other (List.mem_append_left _ member)]
  have stops : (mark condition).takeWhile (!isRelation ·) = before := by
    rw [cut, List.takeWhile_append_of_pos unrelated, List.takeWhile_cons_of_neg (by simp [related]),
      List.append_nil]
  rw [relationDepth, stops]

/-- The text with the relation turned around and the rest written as a condition. -/
theorem renderCondition_turned (cut : mark condition = before ++ ⟨relation.basic, false⟩ :: after)
    (others : ∀ other ∈ before ++ after, isRelation other = false) :
    Expression.renderCondition
        (before.map Marked.token ++ relation.complement.sharp :: after.map Marked.token) =
      formatTokens ((mark condition).map turnedToken) := by
  have replaced := markFrom_replace cut (by cases relation <;> decide)
    (by cases relation <;> decide : relation.complement.sharp ≠ quote)
  have written : conditionToken relation.complement.sharp = relation.complement.sharp := by
    cases relation <;> decide
  have here : turnedToken ⟨relation.basic, false⟩ = relation.complement.sharp := by
    simp [turnedToken, relation.complement?_basic]
  have away : ∀ marks : List Marked, (∀ other ∈ marks, isRelation other = false) →
      marks.map (fun marked =>
        if marked.quoted then marked.token else conditionToken marked.token) =
      marks.map turnedToken := by
    intro marks unrelated
    refine List.map_congr_left fun marked member => ?_
    cases quoted : marked.quoted with
    | true => simp [turnedToken, quoted]
    | false =>
      have missing : complement? marked.token = none := by
        simpa [isRelation, quoted] using unrelated marked member
      simp [turnedToken, quoted, missing]
  obtain ⟨left, right⟩ := List.forall_mem_append.mp others
  rw [Expression.renderCondition, Expression.conditionTokens, Token.mapUnquoted, mark, replaced,
    List.map_append, List.map_cons, away before left, away after right, cut, List.map_append,
    List.map_cons, here, if_neg Bool.false_ne_true, written]

end Turned

/-! ## Counting parentheses and equality signs -/

section Counts

variable {token : Token} {c : Char}

/-- A word with a character that has no case has it in its look-up form. -/
theorem not_mem_of_lookupForm (fixed : Text.lowerLatin c = c)
    (absent : c ∉ (lookupForm token).toList) : c ∉ token.toList := by
  intro member
  apply absent
  rw [lookupForm, String.toList_ofList]
  exact List.mem_map.mpr ⟨c, member, fixed⟩

/-- No word of an expression and nothing that is written for one has a parenthesis. -/
theorem count_expressionToken (token : Token) :
    (expressionToken token).toList.count '(' = token.toList.count '(' := by
  unfold expressionToken
  cases found : Vocabulary.expression? token with
  | none => rfl
  | some written =>
    have entries : Vocabulary.expressionWords.all
        (fun entry => !entry.1.toList.contains '(' && !entry.2.toList.contains '(') = true := by
      decide
    have entry := List.all_eq_true.mp entries _
      (@Table.mem_entries_of_get? _ ⟨Vocabulary.expressionWords⟩ _ _ found)
    simp only [Bool.and_eq_true, Bool.not_eq_true', List.contains_eq_mem, decide_eq_false_iff_not]
      at entry
    have absent := not_mem_of_lookupForm (by decide) entry.1
    rw [Option.getD_some, List.count_eq_zero_of_not_mem entry.2,
      List.count_eq_zero_of_not_mem absent]

/-- Writing a token of a condition brings and takes no parenthesis. -/
theorem count_conditionToken (token : Token) :
    (conditionToken token).toList.count '(' = token.toList.count '(' := by
  have replaced : ∀ {form written : String}, lookupForm token = form → '(' ∉ form.toList →
      written.toList.count '(' = 0 → written.toList.count '(' = token.toList.count '(' := by
    intro form written same absent none
    rw [none, List.count_eq_zero_of_not_mem (not_mem_of_lookupForm (by decide) (same ▸ absent))]
  unfold conditionToken
  split
  · next same => exact replaced same (by decide) (by decide)
  · next same => exact replaced same (by decide) (by decide)
  · next same => exact replaced same (by decide) (by decide)
  · next same => exact replaced same (by decide) (by decide)
  · next same => exact replaced same (by decide) (by decide)
  · exact count_expressionToken token

/-- Turning a relation brings and takes no parenthesis. -/
theorem count_swappedToken (marked : Marked) :
    (swappedToken marked).toList.count '(' = marked.token.toList.count '(' := by
  unfold swappedToken
  split
  · rfl
  · cases found : complement? marked.token with
    | none => exact count_expressionToken marked.token
    | some written =>
      obtain ⟨relation, isBasic⟩ := Relation.exists_of_complement? (by rw [found]; rfl)
      rw [isBasic, relation.complement?_basic] at found
      rw [isBasic, ← Option.some.inj found]
      cases relation <;> decide

/-- A visible character is written as often as the tokens have it. -/
theorem count_formatTokens_map (visible : isBlank c = false) (change : Marked → Token)
    (marks : List Marked) :
    (formatTokens (marks.map change)).toList.count c =
      (marks.map fun marked => (change marked).toList.count c).sum := by
  rw [count_of_formatTokens visible, List.count_flatMap, List.map_map]
  rfl

end Counts

section Texts

variable {condition : List Token}

/-- Turning a relation around adds no parenthesis, so the text is not the wrapped condition. -/
theorem swapped_ne_wrapped (condition : List Token) :
    formatTokens ((mark condition).map swappedToken) ≠
      "!(" ++ Expression.renderCondition condition ++ ")" := by
  have swapped : (formatTokens ((mark condition).map swappedToken)).toList.count '(' =
      ((mark condition).map fun marked => marked.token.toList.count '(').sum := by
    simp only [count_formatTokens_map (by decide : isBlank '(' = false), count_swappedToken]
  have written : (Expression.renderCondition condition).toList.count '(' =
      ((mark condition).map fun marked => marked.token.toList.count '(').sum := by
    refine (count_formatTokens_map (by decide) _ (mark condition)).trans
      (congrArg List.sum (List.map_congr_left fun marked _ => ?_))
    split
    · rfl
    · exact count_conditionToken marked.token
  intro same
  have opening : "!(".toList.count '(' = 1 := by decide
  have counts := congrArg (fun text => text.toList.count '(') same
  simp only [String.toList_append, List.count_append, opening] at counts
  omega

/-- Where nothing is combined and no identity compared, the two ways to write the rest of the
condition agree. -/
theorem swappedToken_eq {marked : Marked} (member : marked ∈ mark condition)
    (single : Expression.isSingleRelation condition = true)
    (other : marked.quoted = false → isIdentityWord marked.token = false) :
    swappedToken marked = turnedToken marked := by
  cases quoted : marked.quoted with
  | true => simp [swappedToken, turnedToken, quoted]
  | false =>
    cases found : complement? marked.token with
    | some written => simp [swappedToken, turnedToken, quoted, found]
    | none =>
      have outside : marked.token ∈ Expression.unquoted condition := by
        refine List.mem_map.mpr ⟨marked, List.mem_filter.mpr ⟨member, ?_⟩, rfl⟩
        simp [quoted]
      have notLogical : Expression.isLogical marked.token = false := by
        simp only [Expression.isSingleRelation, Bool.and_eq_true, Bool.not_eq_true',
          List.any_eq_false] at single
        simpa using single.2 marked.token outside
      have notIdentity := other quoted
      have same : conditionToken marked.token = expressionToken marked.token := by
        simp only [isIdentityWord, List.contains_cons, List.contains_nil, Bool.or_eq_false_iff,
          beq_eq_false_iff_ne] at notIdentity
        simp only [Expression.isLogical, Expression.logicalWords, List.contains_cons,
          Bool.or_eq_false_iff, beq_eq_false_iff_ne] at notLogical
        apply conditionToken_eq_expressionToken
        simp only [List.forall_mem_cons]
        refine ⟨?_, notIdentity.1, notIdentity.2.1, notLogical.1, notLogical.2.1, by simp⟩
        intro isEqual
        rw [Text.eq_of_lookupForm_equal isEqual] at found
        cases found
      simp [swappedToken, turnedToken, quoted, found, same]

/-- Where identity is compared, the turned condition has an equality sign more. -/
theorem count_identity {marked : Marked} (outside : marked.quoted = false)
    (identity : isIdentityWord marked.token = true) :
    (swappedToken marked).toList.count '=' < (turnedToken marked).toList.count '=' := by
  have form : lookupForm marked.token = "is" ∨ lookupForm marked.token = "isnot" := by
    simpa [isIdentityWord] using identity
  have unrelated : complement? marked.token = none := by
    cases found : complement? marked.token with
    | none => rfl
    | some written =>
      obtain ⟨relation, isBasic⟩ := Relation.exists_of_complement? (by rw [found]; rfl)
      rw [isBasic] at form
      exact absurd form (by cases relation <;> decide)
  have unknown : expressionToken marked.token = marked.token := by
    rcases form with same | same <;>
      · rw [expressionToken, Vocabulary.expression?, Vocabulary.find, same]
        rfl
  have absent : '=' ∉ marked.token.toList := by
    apply not_mem_of_lookupForm (by decide)
    rcases form with same | same <;> rw [same] <;> decide
  have written : 0 < (conditionToken marked.token).toList.count '=' := by
    rcases form with same | same <;> simp only [conditionToken, same] <;> decide
  simpa [swappedToken, turnedToken, outside, unrelated, unknown,
    List.count_eq_zero_of_not_mem absent] using written

/-- The two ways to write the rest of the condition agree exactly where no identity is
compared. -/
theorem swapped_eq_turned_iff (single : Expression.isSingleRelation condition = true) :
    formatTokens ((mark condition).map swappedToken) =
        formatTokens ((mark condition).map turnedToken) ↔
      (Expression.unquoted condition).any isIdentityWord = false := by
  constructor
  · intro same
    rw [Bool.eq_false_iff]
    intro compared
    obtain ⟨token, outside, identity⟩ := List.any_eq_true.mp compared
    obtain ⟨marked, kept, rfl⟩ := List.mem_map.mp outside
    obtain ⟨member, unquoted⟩ := List.mem_filter.mp kept
    have notMore : ∀ marked ∈ mark condition,
        (swappedToken marked).toList.count '=' ≤ (turnedToken marked).toList.count '=' := by
      intro marked member
      cases quoted : marked.quoted with
      | true => simp [swappedToken, turnedToken, quoted]
      | false =>
        cases identity : isIdentityWord marked.token with
        | true => exact Nat.le_of_lt (count_identity quoted identity)
        | false => rw [swappedToken_eq member single fun _ => identity]
    have fewer := List.sum_lt_sum (fun marked => (swappedToken marked).toList.count '=')
      (fun marked => (turnedToken marked).toList.count '=') notMore
      ⟨marked, member, count_identity (by simpa using unquoted) identity⟩
    rw [← count_formatTokens_map (by decide), ← count_formatTokens_map (by decide), same] at fewer
    exact Nat.lt_irrefl _ fewer
  · intro free
    refine congrArg formatTokens (List.map_congr_left fun marked member => ?_)
    refine swappedToken_eq member single fun unquoted => ?_
    have outside : marked.token ∈ Expression.unquoted condition := by
      refine List.mem_map.mpr ⟨marked, List.mem_filter.mpr ⟨member, ?_⟩, rfl⟩
      simp [unquoted]
    simpa using List.any_eq_false.mp free marked.token outside

/-- A condition with a single relation is negated by turning it around exactly when the relation
stands in no brackets and no identity is compared beside it. -/
theorem negates_swapped_iff (single : Expression.isSingleRelation condition = true) :
    Negates condition (formatTokens ((mark condition).map swappedToken)) ↔
      relationDepth condition = 0 ∧ (Expression.unquoted condition).any isIdentityWord = false := by
  constructor
  · intro negates
    generalize written : formatTokens ((mark condition).map swappedToken) = text at negates
    cases negates with
    | wrapped => exact absurd written (swapped_ne_wrapped condition)
    | turned cut others bare opposes =>
      obtain rfl := Relation.opposes_iff.mp opposes
      rw [renderCondition_turned cut others] at written
      exact ⟨(relationDepth_eq cut others).trans bare, (swapped_eq_turned_iff single).mp written⟩
  · rintro ⟨bare, free⟩
    obtain ⟨before, relation, after, cut, others⟩ := exists_relation single
    rw [(swapped_eq_turned_iff single).mpr free, ← renderCondition_turned cut others]
    rw [relationDepth_eq cut others] at bare
    exact .turned cut others bare relation.opposes_complement

end Texts

/-! ## Loops that run until a condition holds -/

/-- The tokens of a condition with relations written together. -/
def mergedCondition (condition : List Token) : List Token :=
  Expression.mergeRelations (mark condition)

/-- A negation is right exactly if its condition is not one of those turned wrongly. -/
theorem negates_renderNegation_iff (condition : List Token) :
    Negates (mergedCondition condition) (Expression.renderNegation condition) ↔
      ¬ TurnedWrongly (mergedCondition condition) := by
  have text : Expression.renderNegation condition =
      if Expression.isSingleRelation (mergedCondition condition) then
        formatTokens ((mark (mergedCondition condition)).map swappedToken)
      else "!(" ++ Expression.renderCondition (mergedCondition condition) ++ ")" := rfl
  rw [text]
  cases single : Expression.isSingleRelation (mergedCondition condition) with
  | true =>
    rw [if_pos rfl, negates_swapped_iff single]
    constructor
    · rintro ⟨bare, free⟩ ⟨-, inside | compared⟩
      · exact inside bare
      · rw [free] at compared
        cases compared
    · intro rightly
      constructor
      · by_contra inside
        exact rightly ⟨single, .inl inside⟩
      · rw [Bool.eq_false_iff]
        exact fun compared => rightly ⟨single, .inr compared⟩
  | false =>
    rw [if_neg Bool.false_ne_true]
    refine ⟨fun _ wrongly => ?_, fun _ => .wrapped⟩
    rw [wrongly.single] at single
    cases single

section Loops

variable {tokens condition : List Token}

/-- A condition that is not empty without its parentheses is read. -/
theorem readCondition_of_strip (construct : Construct)
    (stripped : stripParentheses tokens = .ok condition) (nonempty : condition ≠ []) :
    readCondition construct tokens = .ok condition := by
  simp [readCondition, stripped, nonempty]

/-- A condition behind the two words of a loop line. -/
theorem sliceFrom_two (first second : Token) (tokens : List Token) :
    Reading.sliceFrom (first :: second :: tokens) 2 = .ok tokens := by
  rw [Reading.sliceFrom, slice_ok (by simp) (Nat.le_refl _)]
  simp

end Loops

/-- A loop that runs until a condition holds is written as a loop that runs while its negation
does. The text of the negation negates the condition, unless the condition is turned around
wrongly; a condition that runs a loop while it holds is written as it is. -/
theorem until_negates_condition (condition : List Token) :
    (Negates (mergedCondition condition) (Expression.renderNegation condition) ↔
      ¬ TurnedWrongly (mergedCondition condition)) ∧
    ∀ tokens, stripParentheses tokens = .ok condition → condition ≠ [] →
      readDo ("Do" :: "While" :: tokens) =
          .ok (.preTest, blockHeader "while" (Expression.renderCondition condition)) ∧
        readDo ("Do" :: "Until" :: tokens) =
          .ok (.preTest, blockHeader "while" (Expression.renderNegation condition)) ∧
        readLoopEnd (some .postTest) ("Loop" :: "While" :: tokens) =
          .ok (loopFooter (Expression.renderCondition condition)) ∧
        readLoopEnd (some .postTest) ("Loop" :: "Until" :: tokens) =
          .ok (loopFooter (Expression.renderNegation condition)) := by
  refine ⟨negates_renderNegation_iff condition, ?_⟩
  intro tokens stripped nonempty
  have read := fun construct => readCondition_of_strip construct stripped nonempty
  have isWhile : Token.isKeyword "While" "while" = true := by decide
  have isUntil : Token.isKeyword "Until" "until" = true := by decide
  have notWhile : Token.isKeyword "Until" "while" = false := by decide
  have notUntil : Token.isKeyword "While" "until" = false := by decide
  refine ⟨?_, ?_, ?_, ?_⟩ <;>
    simp [readDo, readLoopEnd, tokenAt, sliceFrom_two, conditionText, negationText, conditionBy, read, isWhile,
      isUntil, notWhile, notUntil]

/-- An `Until` with one relation in parentheses. -/
theorem until_negates_single_relation :
    stripParentheses ["(", "count", "<", "=", "limit", ")"] = .ok ["count", "<", "=", "limit"] ∧
      Negates (mergedCondition ["count", "<", "=", "limit"]) "count > limit" ∧
      readDo ["Do", "Until", "(", "count", "<", "=", "limit", ")"] =
        .ok (.preTest, "while (count > limit)") := by
  have stripped : stripParentheses ["(", "count", "<", "=", "limit", ")"] =
      .ok ["count", "<", "=", "limit"] := rfl
  have rightly : ¬ TurnedWrongly (mergedCondition ["count", "<", "=", "limit"]) := by decide
  have text : Expression.renderNegation ["count", "<", "=", "limit"] = "count > limit" := by
    decide
  have header : blockHeader "while" "count > limit" = "while (count > limit)" := by decide
  obtain ⟨negates, loops⟩ := until_negates_condition ["count", "<", "=", "limit"]
  obtain ⟨-, negated, -⟩ := loops _ stripped nofun
  rw [text] at negates negated
  exact ⟨stripped, negates.mpr rightly, header ▸ negated⟩

/-- A relation in an argument is turned around, and one beside `Is` leaves that word as it
stands. -/
theorem until_turns_argument :
    TurnedWrongly (mergedCondition ["f", "(", "a", "=", "b", ")"]) ∧
      Expression.renderNegation ["f", "(", "a", "=", "b", ")"] = "f(a != b)" ∧
    TurnedWrongly (mergedCondition ["a", "=", "b", "Is", "c"]) ∧
      Expression.renderNegation ["a", "=", "b", "Is", "c"] = "a != b Is c" ∧
    (convert "Do Until f(a = b)\nLoop" {}).toOption.map (·.lines) =
      some ["while (f(a != b))", "\x7b", "\x7d"] := by
  decide +kernel

end BasicToSharp
