import BasicToSharp.Proofs.TokenShape
import BasicToSharp.Proofs.TypeGrammar
import BasicToSharp.Token.Bracket

/-!
# Balanced tokens

Tokens are balanced when every literal among them is closed and every kind of bracket is
opened before it is closed and closed as often as it is opened. Whatever looks for a closing
parenthesis or for a comma passes over balanced tokens inside brackets as if they were not
there. Outside brackets it also passes over them, if none of their own commas stands outside
brackets: such tokens are one item of a list.

The reader of parentheses counts one kind of bracket, and the reader of commas counts all
three kinds together. Both counts follow from the three levels, one for each kind.
-/

namespace BasicToSharp.Token

/-- The three kinds of bracket. -/
inductive Bracket
  | round
  | square
  | curly
  deriving DecidableEq, Repr

namespace Bracket

/-- True of the opening bracket of a kind. -/
def opens : Bracket → Token → Bool
  | .round, token => token == "("
  | .square, token => token == "["
  | .curly, token => token == "\x7b"

/-- True of the closing bracket of a kind. -/
def closes : Bracket → Token → Bool
  | .round, token => token == ")"
  | .square, token => token == "]"
  | .curly, token => token == "\x7d"

end Bracket

/-- How many brackets are open behind a marked token, with `level` of them open before it.
Nothing when it closes a bracket and none is open. Brackets in literals do not count. -/
def levelStep (opens closes : Token → Bool) (level : Nat) (marked : Marked) : Option Nat :=
  if marked.quoted then some level
  else if opens marked.token then some (level + 1)
  else if closes marked.token then if level = 0 then none else some (level - 1)
  else some level

/-- How many brackets are open behind marked tokens, with `level` of them open before. -/
def levelFrom (opens closes : Token → Bool) (level : Nat) (marked : List Marked) : Option Nat :=
  marked.foldlM (levelStep opens closes) level

/-- Literals are closed, and each kind of bracket is balanced outside them. -/
structure Balanced (tokens : List Token) : Prop where
  literals : insideAfter false tokens = false
  brackets : ∀ kind : Bracket, levelFrom kind.opens kind.closes 0 (mark tokens) = some 0

instance (tokens : List Token) : Decidable (Balanced tokens) :=
  decidable_of_iff
    (insideAfter false tokens = false ∧ ∀ kind ∈ [Bracket.round, .square, .curly],
      levelFrom kind.opens kind.closes 0 (mark tokens) = some 0)
    ⟨fun ⟨literals, brackets⟩ => ⟨literals, fun kind => brackets kind (by cases kind <;> simp)⟩,
      fun balanced => ⟨balanced.literals, fun kind _ => balanced.brackets kind⟩⟩

/-- True when every comma outside literals stands in brackets, with `level` of them open
before the first token. -/
def enclosesCommas (level : Nat) : List Marked → Bool
  | [] => true
  | head :: rest =>
    (head.quoted || head.token != "," || level != 0) &&
      enclosesCommas ((levelStep isOpening isClosing level head).getD 0) rest

/-- Balanced tokens without a comma outside their literals and brackets. -/
structure Single (tokens : List Token) : Prop extends Balanced tokens where
  commas : enclosesCommas 0 (mark tokens) = true

instance (tokens : List Token) : Decidable (Single tokens) :=
  decidable_of_iff (Balanced tokens ∧ enclosesCommas 0 (mark tokens) = true)
    ⟨fun ⟨balanced, commas⟩ => ⟨balanced, commas⟩, fun single => ⟨single.toBalanced, single.commas⟩⟩

/-! ## Levels -/

/-- Tokens behind others are marked from where these leave off. -/
theorem markFrom_join (inside : Bool) (first second : List Token) :
    markFrom inside (first ++ second) =
      markFrom inside first ++ markFrom (insideAfter inside first) second := by
  induction first generalizing inside with
  | nil => rfl
  | cons token rest inductionHypothesis =>
    by_cases isQuote : token = quote <;> simp [markFrom, isQuote, inductionHypothesis]

/-- Behind tokens with no open literal, marking starts anew. -/
theorem mark_join {first : List Token} (closed : insideAfter false first = false)
    (second : List Token) : mark (first ++ second) = mark first ++ mark second := by
  rw [mark, markFrom_join, closed]
  rfl

/-- The last token of a line is marked by what stands before it. -/
theorem mark_concat (tokens : List Token) (last : Token) :
    mark (tokens ++ [last]) =
      mark tokens ++ [⟨last, if last = quote then true else insideAfter false tokens⟩] := by
  rw [mark, markFrom_join, markFrom, markFrom]
  split <;> rfl

section Levels

variable {opens closes : Token → Bool} {level reached : Nat} {marked : List Marked}

/-- The level behind a token is that from which the rest goes on. -/
theorem levelFrom_cons (level : Nat) (head : Marked) (rest : List Marked) :
    levelFrom opens closes level (head :: rest) =
      (levelStep opens closes level head).bind (levelFrom opens closes · rest) := rfl

/-- The level behind two stretches is that behind the second, from the first. -/
theorem levelFrom_append (level : Nat) (first second : List Marked) :
    levelFrom opens closes level (first ++ second) =
      (levelFrom opens closes level first).bind (levelFrom opens closes · second) :=
  List.foldlM_append

/-- Tokens that are passed are passed one by one. -/
theorem levelFrom_cons_eq_some {head : Marked} {rest : List Marked}
    (passed : levelFrom opens closes level (head :: rest) = some reached) :
    ∃ next, levelStep opens closes level head = some next ∧
      levelFrom opens closes next rest = some reached := by
  rw [levelFrom_cons, Option.bind_eq_some_iff] at passed
  exact passed

/-- More brackets that are open before stay open. -/
theorem levelStep_add {head : Marked} (passed : levelStep opens closes level head = some reached)
    (more : Nat) : levelStep opens closes (more + level) head = some (more + reached) := by
  unfold levelStep at passed ⊢
  grind

/-- What is passed from one level is passed from every deeper one. -/
theorem levelFrom_add (passed : levelFrom opens closes level marked = some reached)
    (more : Nat) : levelFrom opens closes (more + level) marked = some (more + reached) := by
  induction marked generalizing level with
  | nil =>
    obtain rfl := Option.some.inj passed
    rfl
  | cons head rest inductionHypothesis =>
    obtain ⟨next, here, later⟩ := levelFrom_cons_eq_some passed
    rw [levelFrom_cons, levelStep_add here]
    exact inductionHypothesis later

section Together

variable {opens' closes' : Token → Bool} {level' reached' : Nat}
  (apart : ∀ token, (opens token || closes token) = true →
    opens' token = false ∧ closes' token = false)

include apart in
/-- Two kinds of bracket that have no token in common are counted together by the sum of their
levels. -/
theorem levelStep_or {head : Marked} (passed : levelStep opens closes level head = some reached)
    (passed' : levelStep opens' closes' level' head = some reached') :
    levelStep (fun token => opens token || opens' token)
      (fun token => closes token || closes' token) (level + level') head =
        some (reached + reached') := by
  have others := apart head.token
  unfold levelStep at passed passed' ⊢
  grind

include apart in
/-- Two kinds of brackets that are each balanced are balanced together. -/
theorem levelFrom_or (passed : levelFrom opens closes level marked = some reached)
    (passed' : levelFrom opens' closes' level' marked = some reached') :
    levelFrom (fun token => opens token || opens' token)
      (fun token => closes token || closes' token) (level + level') marked =
        some (reached + reached') := by
  induction marked generalizing level level' with
  | nil =>
    obtain rfl := Option.some.inj passed
    obtain rfl := Option.some.inj passed'
    rfl
  | cons head rest inductionHypothesis =>
    obtain ⟨next, here, later⟩ := levelFrom_cons_eq_some passed
    obtain ⟨next', here', later'⟩ := levelFrom_cons_eq_some passed'
    rw [levelFrom_cons, levelStep_or apart here here']
    exact inductionHypothesis later later'

end Together

end Levels

/-- Balanced tokens come back to the level they start from, all brackets taken together. -/
theorem Balanced.all {tokens : List Token} (balanced : Balanced tokens) :
    levelFrom isOpening isClosing 0 (mark tokens) = some 0 := by
  refine levelFrom_or ?_ (levelFrom_or ?_ (balanced.brackets .round) (balanced.brackets .square))
    (balanced.brackets .curly)
  · intro token bracket
    simp only [Bracket.opens, Bracket.closes, Bool.or_eq_true, beq_iff_eq] at bracket
    rcases bracket with (rfl | rfl) | (rfl | rfl) <;> decide
  · intro token bracket
    simp only [Bracket.opens, Bracket.closes, Bool.or_eq_true, beq_iff_eq] at bracket
    rcases bracket with rfl | rfl <;> decide

/-! ## Passing over -/

section Passing

variable {level reached base : Nat} {marked more : List Marked}

/-- A token that stays above the level of its parenthesis does not close it. -/
theorem closingIn_step {head : Marked} {rest : List Marked}
    (passed : levelStep Bracket.round.opens Bracket.round.closes level head = some reached) :
    closingIn (base + 1 + level) (head :: rest) =
      (closingIn (base + 1 + reached) rest).map (· + 1) := by
  obtain ⟨token, quoted⟩ := head
  simp only [levelStep, Bracket.opens, Bracket.closes, beq_iff_eq] at passed
  simp only [closingIn]
  grind

/-- Inside parentheses the search for the closing one passes over balanced parentheses. -/
theorem closingIn_pass
    (passed : levelFrom Bracket.round.opens Bracket.round.closes level marked = some reached) :
    closingIn (base + 1 + level) (marked ++ more) =
      (closingIn (base + 1 + reached) more).map (· + marked.length) := by
  induction marked generalizing level with
  | nil =>
    obtain rfl := Option.some.inj passed
    simp
  | cons head rest inductionHypothesis =>
    obtain ⟨next, here, later⟩ := levelFrom_cons_eq_some passed
    rw [List.cons_append, closingIn_step here, inductionHypothesis later, Option.map_map]
    rfl

/-- A token that is no comma at the lowest level joins the current part. -/
theorem splitCommas_step {head : Marked} {rest : List Marked} (part : List Token)
    (passed : levelStep isOpening isClosing level head = some reached)
    (enclosed : (head.quoted || head.token != "," || level != 0) = true) :
    splitCommas level part (head :: rest) = splitCommas reached (head.token :: part) rest := by
  obtain ⟨token, quoted⟩ := head
  simp only [levelStep] at passed enclosed
  simp only [splitCommas]
  grind

/-- The split at commas passes over balanced brackets whose commas are enclosed. -/
theorem splitCommas_pass (part : List Token)
    (passed : levelFrom isOpening isClosing level marked = some reached)
    (enclosed : enclosesCommas level marked = true) :
    splitCommas level part (marked ++ more) =
      splitCommas reached ((marked.map Marked.token).reverse ++ part) more := by
  induction marked generalizing level part with
  | nil =>
    obtain rfl := Option.some.inj passed
    rfl
  | cons head rest inductionHypothesis =>
    obtain ⟨next, here, later⟩ := levelFrom_cons_eq_some passed
    rw [enclosesCommas, here, Option.getD_some, Bool.and_eq_true] at enclosed
    rw [List.cons_append, splitCommas_step part here enclosed.1,
      inductionHypothesis _ later enclosed.2]
    simp

/-- Commas are enclosed in a whole when they are in both its parts. -/
theorem enclosesCommas_append (level : Nat) {first second : List Marked}
    (passed : levelFrom isOpening isClosing level first = some reached) :
    enclosesCommas level (first ++ second) =
      (enclosesCommas level first && enclosesCommas reached second) := by
  induction first generalizing level with
  | nil =>
    obtain rfl := Option.some.inj passed
    rfl
  | cons head rest inductionHypothesis =>
    obtain ⟨next, here, later⟩ := levelFrom_cons_eq_some passed
    rw [List.cons_append, enclosesCommas, enclosesCommas, here, Option.getD_some,
      inductionHypothesis next later, Bool.and_assoc]

/-- With a bracket open before, every comma of balanced brackets is enclosed. -/
theorem enclosesCommas_inside
    (passed : levelFrom isOpening isClosing level marked = some reached) :
    enclosesCommas (base + 1 + level) marked = true := by
  induction marked generalizing level with
  | nil => rfl
  | cons head rest inductionHypothesis =>
    obtain ⟨next, here, later⟩ := levelFrom_cons_eq_some passed
    rw [enclosesCommas, levelStep_add here, Option.getD_some, inductionHypothesis later]
    simp

end Passing

/-! ## Putting balanced tokens together -/

/-- True of a token that is no quote and no bracket. -/
def isInert (token : Token) : Bool := token != quote && !isOpening token && !isClosing token

section Together

variable {token : Token} {tokens first second inner : List Token}

/-- A token without brackets opens and closes nothing of any kind. -/
theorem Bracket.inert (inert : isInert token = true) (kind : Bracket) :
    kind.opens token = false ∧ kind.closes token = false := by
  simp only [isInert, isOpening, isClosing, Bool.and_eq_true, Bool.not_eq_true',
    Bool.or_eq_false_iff] at inert
  cases kind <;> simp [Bracket.opens, Bracket.closes, inert]

/-- A token that neither opens nor closes keeps the level. -/
theorem levelStep_inert {opens closes : Token → Bool} (level : Nat)
    (inert : opens token = false ∧ closes token = false) :
    levelStep opens closes level ⟨token, false⟩ = some level := by
  simp [levelStep, inert]

/-- A token without brackets and quotes is no quote. -/
theorem ne_quote_of_inert (inert : isInert token = true) : token ≠ quote := by
  rintro rfl
  exact absurd inert (by decide)

/-- No tokens are balanced. -/
theorem Balanced.nil : Balanced [] := ⟨rfl, fun _ => rfl⟩

/-- A token without brackets in front keeps tokens balanced. -/
theorem Balanced.cons (inert : isInert token = true) (balanced : Balanced tokens) :
    Balanced (token :: tokens) := by
  have plain := ne_quote_of_inert inert
  refine ⟨?_, fun kind => ?_⟩
  · rw [insideAfter_cons, if_neg plain]
    exact balanced.literals
  · rw [mark_code plain, levelFrom_cons, levelStep_inert 0 (kind.inert inert)]
    exact balanced.brackets kind

/-- Balanced tokens behind balanced tokens are balanced. -/
theorem Balanced.append (balanced : Balanced first) (balanced' : Balanced second) :
    Balanced (first ++ second) := by
  refine ⟨?_, fun kind => ?_⟩
  · rw [insideAfter_append, balanced.literals, balanced'.literals]
  · rw [mark_join balanced.literals, levelFrom_append, balanced.brackets]
    exact balanced'.brackets kind

/-- Parentheses around closed tokens are outside literals. -/
theorem mark_parenthesized (closed : insideAfter false inner = false) (rest : List Token) :
    mark ("(" :: (inner ++ ")" :: rest)) =
      ⟨"(", false⟩ :: (mark inner ++ ⟨")", false⟩ :: mark rest) := by
  rw [mark_code (by decide), mark_join closed, mark_code (by decide)]

/-- Parentheses around balanced tokens are balanced. -/
theorem Balanced.parenthesize (balanced : Balanced inner) (balanced' : Balanced tokens) :
    Balanced ("(" :: (inner ++ ")" :: tokens)) := by
  refine ⟨?_, fun kind => ?_⟩
  · rw [insideAfter_cons, if_neg (by decide), insideAfter_append, balanced.literals,
      insideAfter_cons, if_neg (by decide), balanced'.literals]
  · have inside : ∀ level, levelFrom kind.opens kind.closes level (mark inner) = some level :=
      fun level => levelFrom_add (balanced.brackets kind) level
    rw [mark_parenthesized balanced.literals, levelFrom_cons]
    cases kind with
    | round =>
      exact (levelFrom_append 1 _ _).trans (by rw [inside]; exact balanced'.brackets .round)
    | square =>
      exact (levelFrom_append 0 _ _).trans (by rw [inside]; exact balanced'.brackets .square)
    | curly =>
      exact (levelFrom_append 0 _ _).trans (by rw [inside]; exact balanced'.brackets .curly)

/-- No tokens are a single part. -/
theorem Single.nil : Single [] := ⟨.nil, rfl⟩

/-- A token other than a comma in front keeps a part single. -/
theorem Single.cons (inert : isInert token = true) (other : token ≠ ",") (single : Single tokens) :
    Single (token :: tokens) := by
  obtain ⟨-, bracketless⟩ : token ≠ quote ∧ isOpening token = false ∧ isClosing token = false := by
    simpa [isInert, and_assoc] using inert
  refine ⟨single.toBalanced.cons inert, ?_⟩
  rw [mark_code (ne_quote_of_inert inert), enclosesCommas, levelStep_inert 0 bracketless]
  simpa [other] using single.commas

/-- Single parts one behind the other are a single part. -/
theorem Single.append (single : Single first) (single' : Single second) :
    Single (first ++ second) := by
  refine ⟨single.toBalanced.append single'.toBalanced, ?_⟩
  rw [mark_join single.literals, enclosesCommas_append 0 single.all, single.commas,
    single'.commas, Bool.and_self]

/-- Commas within parentheses do not divide a part. -/
theorem Single.parenthesize (balanced : Balanced inner) (single : Single tokens) :
    Single ("(" :: (inner ++ ")" :: tokens)) := by
  refine ⟨balanced.parenthesize single.toBalanced, ?_⟩
  have inside : levelFrom isOpening isClosing 1 (mark inner) = some 1 :=
    levelFrom_add balanced.all 1
  have enclosed : enclosesCommas 1 (mark inner) = true :=
    @enclosesCommas_inside 0 0 0 _ balanced.all
  rw [mark_parenthesized balanced.literals]
  change enclosesCommas 1 (mark inner ++ _) = true
  rw [enclosesCommas_append 1 inside, enclosed]
  exact single.commas

/-- Balanced parts with commas between them are balanced. -/
theorem Balanced.intercalate {parts : List (List Token)}
    (balanced : ∀ part ∈ parts, Balanced part) : Balanced ([","].intercalate parts) := by
  induction parts with
  | nil => exact .nil
  | cons part rest inductionHypothesis =>
    obtain ⟨here, later⟩ := List.forall_mem_cons.mp balanced
    cases rest with
    | nil => simpa using here
    | cons next rest =>
      rw [List.intercalate_cons_cons]
      exact (here.append ((Balanced.nil).cons (by decide))).append (inductionHypothesis later)

/-! ## What the readers find -/

/-- The parenthesis that closes balanced tokens is found behind them. -/
theorem closing_parenthesized (front : List Token) (balanced : Balanced inner)
    (rest : List Token) :
    closing (front ++ "(" :: (inner ++ ")" :: rest)) front.length =
      some (front.length + 1 + inner.length) := by
  have passed : closingIn 1 (mark inner ++ ⟨")", false⟩ :: mark rest) = some inner.length := by
    have behind := @closingIn_pass 0 0 0 _ (⟨")", false⟩ :: mark rest) (balanced.brackets .round)
    simpa [closingIn, mark, length_markFrom] using behind
  rw [closing, List.drop_left, mark_parenthesized balanced.literals]
  simp only [closingIn, Bool.false_eq_true, if_false, if_true, Nat.zero_add, passed,
    Option.map_some, Option.some.injEq]
  omega

/-- A single part is passed whole by the search for commas. -/
theorem Single.splitCommas_pass (single : Single tokens) (part : List Token)
    (more : List Marked) :
    splitCommas 0 part (mark tokens ++ more) = splitCommas 0 (tokens.reverse ++ part) more := by
  rw [Token.splitCommas_pass part single.all single.commas, mark, markFrom_map_token]

/-- A list of single items is split at the commas between them. -/
theorem splitCommas_intercalate {parts : List (List Token)} (single : ∀ part ∈ parts, Single part)
    (nonempty : parts ≠ []) : splitCommas 0 [] (mark ([","].intercalate parts)) = parts := by
  induction parts with
  | nil => exact absurd rfl nonempty
  | cons part rest inductionHypothesis =>
    obtain ⟨here, later⟩ := List.forall_mem_cons.mp single
    cases rest with
    | nil =>
      have whole := here.splitCommas_pass [] []
      simpa [splitCommas] using whole
    | cons next rest =>
      have others := inductionHypothesis later (List.cons_ne_nil next rest)
      rw [List.intercalate_cons_cons, List.append_assoc, mark_join here.literals,
        List.singleton_append, mark_code (by decide), here.splitCommas_pass]
      simp [splitCommas, isOpening, isClosing, others]

/-- A list of single items is split into its items, unless its only item is empty: then it has
none. -/
theorem commaParts_intercalate_of_ne {parts : List (List Token)}
    (single : ∀ part ∈ parts, Single part) (notBlank : parts ≠ [[]]) :
    commaParts ([","].intercalate parts) = parts := by
  cases parts with
  | nil => rfl
  | cons part rest =>
    have nonempty : [","].intercalate (part :: rest) ≠ [] := by
      cases rest with
      | nil => simpa using notBlank
      | cons next rest => simp
    rw [commaParts, if_neg (by simpa using nonempty),
      splitCommas_intercalate single (List.cons_ne_nil part rest)]

/-- A list of single items, none of them empty, is split into its items. -/
theorem commaParts_intercalate {parts : List (List Token)}
    (single : ∀ part ∈ parts, Single part) (filled : ∀ part ∈ parts, part ≠ []) :
    commaParts ([","].intercalate parts) = parts := by
  refine commaParts_intercalate_of_ne single ?_
  rintro rfl
  exact filled [] List.mem_cons_self rfl

end Together

/-- The tokens that close or open something or separate items. -/
def structuralTokens : List Token := [quote, "(", ")", "[", "]", "\x7b", "\x7d", ","]

/-- A kind of token without any structural one is passed over. -/
theorem inert_of_test (test : Token → Bool) {token : Token} (passes : test token = true)
    (foreign : ∀ symbol ∈ structuralTokens, test symbol = false) :
    isInert token = true ∧ token ≠ "," := by
  have other : ∀ symbol ∈ structuralTokens, token ≠ symbol := by
    rintro symbol structural rfl
    rw [foreign token structural] at passes
    cases passes
  simp only [structuralTokens, List.forall_mem_cons] at other
  simp [isInert, isOpening, isClosing, other]

/-- A name is neither a bracket nor a comma. -/
theorem inert_of_identifier {token : Token} (named : isIdentifier token = true) :
    isInert token = true ∧ token ≠ "," :=
  inert_of_test isIdentifier named (by decide)

end BasicToSharp.Token

namespace BasicToSharp

open Token (Single)

/-! ## Types -/

/-- The tokens of a path are a single part. -/
theorem TypeTree.single_pathTokens (path : List Token.Name) : Single (pathTokens path) := by
  induction path with
  | nil => exact .nil
  | cons name rest inductionHypothesis =>
    obtain ⟨inert, other⟩ := Token.inert_of_identifier name.property
    exact (inductionHypothesis.cons inert other).cons (by decide) (by decide)

/-- The tokens of array ranks are a single part. -/
theorem TypeTree.single_rankTokens (ranks : Nat) : Single (rankTokens ranks) := by
  induction ranks with
  | zero => exact .nil
  | succ ranks inductionHypothesis => exact .parenthesize .nil inductionHypothesis

mutual

/-- A type is one item of a list. -/
theorem TypeTree.single_tokens (tree : TypeTree) : Single tree.tokens := by
  cases tree with
  | plain head path ranks =>
    obtain ⟨inert, other⟩ := Token.inert_of_identifier head.property
    exact ((TypeTree.single_pathTokens path).append (TypeTree.single_rankTokens ranks)).cons
      inert other
  | applied head path word arguments ranks =>
    obtain ⟨inert, other⟩ := Token.inert_of_identifier head.property
    obtain ⟨inertWord, -⟩ := Token.inert_of_test (Token.isKeyword · "of") word.property (by decide)
    have inside : Token.Balanced (word.val :: arguments.tokens) :=
      arguments.balanced_tokens.cons inertWord
    exact ((TypeTree.single_pathTokens path).append
      (.parenthesize inside (TypeTree.single_rankTokens ranks))).cons inert other

/-- The tokens of type arguments are balanced. -/
theorem TypeTrees.balanced_tokens (trees : TypeTrees) : Token.Balanced trees.tokens := by
  cases trees with
  | last argument => exact argument.single_tokens.toBalanced
  | more argument others =>
    exact argument.single_tokens.toBalanced.append (others.balanced_tokens.cons (by decide))

end

end BasicToSharp
