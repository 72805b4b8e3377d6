import BasicToSharp.Proofs.AlikeReading

/-!
# Working on tokens by position

The rules take parts of a line by position, and stop when a position is outside. Much else is
defined by recursion on the list, where nothing can be outside: joining ampersands, splitting
at commas, negating a condition, closing a block. Here all of this is done by position as well,
walking along the line with a counter and taking entries and parts from the whole of it. Every
access fails when it is out of range, and so does a subtraction below zero.

Each walk gives what the recursion gives, on every list, so none of its accesses can fail. The
proofs all have one form: the list is split where the walk stands, into what lies behind it and
what is left, and the induction is on what is left.
-/

namespace BasicToSharp.ByPosition

section Access

variable {α : Type}

/-- The entry at a position. -/
def entry (values : List α) (index : Nat) : Reading α :=
  match values[index]? with
  | some value => .ok value
  | none => .error .outOfRange

/-- The entries from position `first` up to, but not including, position `last`. -/
def part (values : List α) (first last : Nat) : Reading (List α) :=
  if first ≤ last ∧ last ≤ values.length then .ok ((values.take last).drop first)
  else .error .outOfRange

/-- The list with another entry at a position. -/
def put (values : List α) (index : Nat) (value : α) : Reading (List α) :=
  if index < values.length then .ok (values.set index value) else .error .outOfRange

/-- The list without the entry at a position. -/
def remove (values : List α) (index : Nat) : Reading (List α) :=
  if index < values.length then .ok (values.eraseIdx index) else .error .outOfRange

/-- The difference of two numbers, the second of which must not be larger. -/
def minus (number other : Nat) : Reading Nat :=
  if other ≤ number then .ok (number - other) else .error .outOfRange

variable (before : List α) (value : α) (after : List α)

/-- The entry at the position behind a first part. -/
theorem entry_append : entry (before ++ value :: after) before.length = .ok value := by
  simp [entry]

/-- The entry at the position behind a first part is replaced. -/
theorem put_append (other : α) :
    put (before ++ value :: after) before.length other = .ok (before ++ other :: after) := by
  have inside : before.length < (before ++ value :: after).length := by simp
  rw [put, if_pos inside, List.set_append_right _ _ (Nat.le_refl _), Nat.sub_self, List.set_cons_zero]

/-- The entry at the position behind a first part is removed. -/
theorem remove_append :
    remove (before ++ value :: after) before.length = .ok (before ++ after) := by
  have inside : before.length < (before ++ value :: after).length := by simp
  rw [remove, if_pos inside, List.eraseIdx_append_of_length_le (Nat.le_refl _), Nat.sub_self,
    List.eraseIdx_cons_zero]

/-- A part in the middle of a list. -/
theorem part_append (middle : List α) :
    part (before ++ (middle ++ after)) before.length (before.length + middle.length) =
      .ok middle := by
  have inside : before.length ≤ before.length + middle.length ∧
      before.length + middle.length ≤ (before ++ (middle ++ after)).length := by
    simp only [List.length_append]
    omega
  rw [part, if_pos inside, ← List.append_assoc, ← List.length_append, List.take_left,
    List.drop_left]

/-- The part that reaches to the end. -/
theorem part_to_end :
    part (before ++ after) before.length (before ++ after).length = .ok after := by
  have whole := part_append before [] after
  rwa [List.append_nil, ← List.length_append] at whole

end Access

section Ampersands

/-- A walk along a line: its tokens, changed up to where the walk stands, the token before that
place, and whether the place is inside a literal. -/
structure Walk where
  tokens : List Token
  previous : Token
  inside : Bool

/-- Join an ampersand at a position and go on. -/
def joinAt (walk : Walk) (index : Nat) : Reading Walk := do
  let token ← entry walk.tokens index
  let inside := if token = Token.quote then !walk.inside else walk.inside
  let next := tokenAt walk.tokens (index + 1)
  let joins := !inside && token == "&" && next != "&" && walk.previous != "+" &&
    next != "=" && next != "(" && next != ""
  let tokens ← if joins then put walk.tokens index "+" else pure walk.tokens
  return ⟨tokens, ← entry tokens index, inside⟩

/-- The tokens of a line with ampersands joined, one position after the other. -/
def concatenations (tokens : List Token) : Reading (List Token) := do
  let walk ← (List.range tokens.length).foldlM joinAt ⟨tokens, "", false⟩
  return walk.tokens

/-- The token behind a place, as it is and as it is marked. -/
theorem tokenAt_behind (done : List Token) (token : Token) (rest : List Token) (inside : Bool) :
    tokenAt (done ++ token :: rest) (done.length + 1) =
      ((Token.markFrom inside rest).head?.map Token.Marked.token).getD "" := by
  rw [← List.head?_map, Token.markFrom_map_token, List.head?_eq_getElem?, tokenAt,
    List.getD_eq_getElem?_getD, List.getElem?_append_right (Nat.le_add_right _ 1),
    Nat.add_sub_cancel_left,
    List.getElem?_cons_succ]

/-- One step joins the token at which the walk stands. -/
theorem joinAt_step (done : List Token) (token : Token) (rest : List Token) (previous : Token)
    (inside : Bool) :
    ∃ joined further, joinAt ⟨done ++ token :: rest, previous, inside⟩ done.length =
        .ok ⟨done ++ joined :: rest, joined, further⟩ ∧
      Token.joinAmpersands previous (Token.markFrom inside (token :: rest)) =
        joined :: Token.joinAmpersands joined (Token.markFrom further rest) := by
  have here := entry_append done token rest
  by_cases isQuote : token = Token.quote
  · have noAmpersand : (token == "&") = false := by
      rw [isQuote]
      decide
    refine ⟨token, !inside, ?_, ?_⟩
    · simp only [joinAt, here, Reading.ok_bind, noAmpersand, Bool.and_false, Bool.false_and,
        if_pos isQuote, Bool.false_eq_true, if_false, Reading.pure_eq_ok]
    · simp [Token.markFrom, isQuote, Token.joinAmpersands]
  · simp only [joinAt, here, Reading.ok_bind, if_neg isQuote, tokenAt_behind done token rest inside,
      Token.markFrom, Token.joinAmpersands]
    split
    · refine ⟨"+", inside, ?_, rfl⟩
      rw [put_append, Reading.ok_bind, entry_append, Reading.ok_bind, Reading.pure_eq_ok]
    · refine ⟨token, inside, ?_, rfl⟩
      rw [Reading.pure_eq_ok, Reading.ok_bind, here, Reading.ok_bind, Reading.pure_eq_ok]

/-- Behind the walk the tokens are as they have become, and before it as they were. -/
theorem joinAt_walks (rest : List Token) (done : List Token) (previous : Token) (inside : Bool) :
    ∃ walk, (List.range' done.length rest.length).foldlM joinAt ⟨done ++ rest, previous, inside⟩ =
        .ok walk ∧
      walk.tokens = done ++ Token.joinAmpersands previous (Token.markFrom inside rest) := by
  induction rest generalizing done previous inside with
  | nil => exact ⟨_, rfl, rfl⟩
  | cons token rest inductionHypothesis =>
    obtain ⟨joined, further, stepped, same⟩ := joinAt_step done token rest previous inside
    obtain ⟨walk, walked, tokens⟩ := inductionHypothesis (done ++ [joined]) joined further
    rw [List.length_append, List.length_singleton, List.append_assoc, List.singleton_append]
      at walked
    refine ⟨walk, ?_, ?_⟩
    · rw [List.length_cons, List.range'_succ, List.foldlM_cons, stepped]
      exact walked
    · rw [tokens, same, List.append_assoc, List.singleton_append]

/-- Rewriting `&` by position gives what rewriting it in passing does. -/
theorem concatenations_eq (tokens : List Token) :
    concatenations tokens = .ok (Token.concatenations tokens) := by
  obtain ⟨walk, walked, joined⟩ := joinAt_walks tokens [] "" false
  rw [List.nil_append, List.length_nil] at walked
  rw [concatenations, List.range_eq_range', walked]
  exact congrArg Except.ok joined

end Ampersands

section Keywords

/-- The position of a keyword when every token before it is a plain word. -/
def declarationKeyword (tokens : List Token) (keyword : String) : Reading (Option Nat) :=
  match tokens.findIdx? (· == keyword) with
  | some index => do
    let before ← part tokens 0 index
    return if before.all Token.isIdentifier then some index else none
  | none => .ok none

/-- A declaration keyword is found at the same position. -/
theorem declarationKeyword_eq (tokens : List Token) (keyword : String) :
    declarationKeyword tokens keyword = .ok (Statement.declarationKeyword tokens keyword) := by
  unfold declarationKeyword Statement.declarationKeyword
  cases found : tokens.findIdx? (· == keyword) with
  | none => rfl
  | some index =>
    have within : index < tokens.length := (List.findIdx?_eq_some_iff_getElem.mp found).1
    have inside : 0 ≤ index ∧ index ≤ tokens.length := ⟨Nat.zero_le _, Nat.le_of_lt within⟩
    simp only [part, if_pos inside, List.drop_zero, Reading.ok_bind, Reading.pure_eq_ok]

/-- The modifiers from a position on, and the position behind them. -/
def modifiersFrom (tokens : List Token) (modifiers : List String) (index : Nat) :
    Reading (List String × Nat) :=
  if index < tokens.length then do
    let token ← entry tokens index
    if Token.isKeyword token "dim" then modifiersFrom tokens modifiers (index + 1)
    else
      match Vocabulary.modifier? token with
      | none => return (modifiers, index)
      | some modifier =>
        modifiersFrom tokens
          (if modifiers.contains modifier then modifiers else modifiers ++ [modifier]) (index + 1)
  else return (modifiers, index)
  termination_by tokens.length - index

/-- From any position on, the same modifiers are taken up to the same position. -/
theorem modifiersFrom_walks (rest : List Token) (done : List Token) (modifiers : List String) :
    modifiersFrom (done ++ rest) modifiers done.length =
      .ok ((takeModifiers modifiers rest).1, done.length + (takeModifiers modifiers rest).2) := by
  induction rest generalizing done modifiers with
  | nil =>
    have past : ¬ done.length < (done ++ []).length := by simp
    rw [modifiersFrom, if_neg past]
    rfl
  | cons token rest inductionHypothesis =>
    have inside : done.length < (done ++ token :: rest).length := by simp
    have onward : ∀ kept, modifiersFrom (done ++ token :: rest) kept (done.length + 1) =
        .ok ((takeModifiers kept rest).1, done.length + ((takeModifiers kept rest).2 + 1)) := by
      intro kept
      have later := inductionHypothesis (done ++ [token]) kept
      rw [List.append_assoc, List.singleton_append, List.length_append, List.length_singleton]
        at later
      rw [later, Nat.add_assoc, Nat.add_comm 1]
    rw [modifiersFrom, if_pos inside, entry_append, Reading.ok_bind, takeModifiers]
    split
    · exact onward modifiers
    · cases Vocabulary.modifier? token with
      | none => rfl
      | some modifier => exact onward _

/-- From the start on, the same modifiers are taken. -/
theorem modifiersFrom_eq (tokens : List Token) :
    modifiersFrom tokens [] 0 = .ok (takeModifiers [] tokens) := by
  have walked := modifiersFrom_walks tokens [] []
  simpa using walked

end Keywords

section Commas

/-- The parts of a list from a place on: the current part starts at position `start`, and the
place, with what is left behind it, is at position `index`. -/
def partsFrom (tokens : List Token) (start index depth : Nat) :
    List Token.Marked → Reading (List (List Token))
  | [] => do return [← part tokens start tokens.length]
  | ⟨token, quoted⟩ :: rest =>
    if quoted then partsFrom tokens start (index + 1) depth rest
    else if Token.isOpening token then partsFrom tokens start (index + 1) (depth + 1) rest
    else if Token.isClosing token then partsFrom tokens start (index + 1) (depth - 1) rest
    else if token = "," ∧ depth = 0 then do
      let current ← part tokens start index
      return current :: (← partsFrom tokens (index + 1) (index + 1) depth rest)
    else partsFrom tokens start (index + 1) depth rest

/-- The parts of a comma-separated list. -/
def commaParts (tokens : List Token) : Reading (List (List Token)) :=
  if tokens.isEmpty then .ok [] else partsFrom tokens 0 0 0 (Token.mark tokens)

/-- The part that the recursion has gathered is the one from `start` to where the walk is. -/
theorem partsFrom_walks (rest : List Token.Marked) (done : List Token) (gathered : List Token)
    (depth : Nat) :
    partsFrom (done ++ (gathered.reverse ++ rest.map Token.Marked.token)) done.length
        (done.length + gathered.length) depth rest =
      .ok (Token.splitCommas depth gathered rest) := by
  induction rest generalizing done gathered depth with
  | nil =>
    have last := part_to_end done gathered.reverse
    rw [partsFrom, List.map_nil, List.append_nil, last]
    rfl
  | cons marked rest inductionHypothesis =>
    obtain ⟨token, quoted⟩ := marked
    have onward : ∀ further, partsFrom
        (done ++ (gathered.reverse ++ (⟨token, quoted⟩ :: rest).map Token.Marked.token)) done.length
          (done.length + gathered.length + 1) further rest =
        .ok (Token.splitCommas further (token :: gathered) rest) := by
      intro further
      have later := inductionHypothesis done (token :: gathered) further
      rwa [List.reverse_cons, List.append_assoc, List.singleton_append, List.length_cons,
        ← Nat.add_assoc] at later
    rw [partsFrom, Token.splitCommas]
    split
    · exact onward depth
    · split
      · exact onward (depth + 1)
      · split
        · exact onward (depth - 1)
        · split
          · have current := part_append done (token :: rest.map Token.Marked.token)
              gathered.reverse
            rw [List.length_reverse] at current
            have later := inductionHypothesis (done ++ gathered.reverse ++ [token]) [] depth
            simp only [List.length_append, List.length_reverse, List.length_singleton,
              List.reverse_nil, List.nil_append, List.length_nil, Nat.add_zero, List.append_assoc,
              List.singleton_append, ← Nat.add_assoc] at later
            simp only [List.map_cons, current, Reading.ok_bind, later, Reading.pure_eq_ok]
          · exact onward depth

/-- Commas divide tokens by position as they do in passing. -/
theorem commaParts_eq (tokens : List Token) :
    commaParts tokens = .ok (Token.commaParts tokens) := by
  unfold commaParts Token.commaParts
  split
  · rfl
  · have walked := partsFrom_walks (Token.mark tokens) [] [] 0
    rwa [Token.mark, Token.markFrom_map_token] at walked

end Commas

section Values

/-- A condition without the parentheses around the whole of it. The position of the last token
is asked for only when there is a first. -/
def stripParentheses (tokens : List Token) : Reading (List Token) :=
  if tokenAt tokens 0 = "(" then do
    let last ← minus tokens.length 1
    if Token.closing tokens 0 = some last then part tokens 1 last else return tokens
  else .ok tokens

/-- Parentheses are stripped by position as they are in passing. -/
theorem stripParentheses_eq (tokens : List Token) :
    stripParentheses tokens = BasicToSharp.stripParentheses tokens := by
  unfold stripParentheses BasicToSharp.stripParentheses
  by_cases opened : tokenAt tokens 0 = "("
  · have filled : 1 ≤ tokens.length := by
      apply lt_length_of_tokenAt_ne
      rw [opened]
      decide
    simp only [opened, true_and, if_true, minus, if_pos filled, Reading.ok_bind]
    rfl
  · simp only [opened, false_and, if_false]

/-- Taking the initial value of a declaration into account. Whether the value is a construction
and whether it is an array literal are both asked before either answer is used. -/
def withValue (symbols : Symbols) (hasDimensions : Bool) (given : Given) (value : List Token) :
    Reading Given := do
  let built ← wholeConstruction value
  let literal ← arrayLiteral value
  match built, literal with
  | some built, _ =>
    return { given with
      type := given.type.or (some built.type), construction := some built }
  | none, some (literal, elements) =>
    let ownType := if hasDimensions then literal.element else literal
    return { given with
      type := given.type.or (some ownType.render)
      initial := some ("new " ++ literal.render ++ " " ++ Expression.render elements) }
  | none, none =>
    let enumType ←
      if value.length = 3 then do
        let point ← entry value 1
        let owner ← entry value 0
        pure (if point = "." ∧ symbols.isEnum owner then some owner else none)
      else pure none
    return { given with
      type := given.type.or enumType, initial := some (Expression.render value) }

/-- A type takes no more tokens than there are. -/
theorem used_le_of_read {tokens : List Token} {reference : TypeRef} {used : Nat}
    (reading : TypeRef.read tokens = .ok (reference, used)) : used ≤ tokens.length := by
  rw [TypeRef.read_eq] at reading
  cases found : TypeRef.readRest tokens with
  | error cause =>
    rw [found] at reading
    cases reading
  | ok rest =>
    rw [found] at reading
    cases reading
    exact Nat.sub_le _ _

/-- Looking for an array literal never fails. -/
theorem arrayLiteral_ok (value : List Token) : ∃ found, arrayLiteral value = .ok found := by
  unfold arrayLiteral
  split
  · next isNew =>
    have filled := lt_length_of_isKeyword isNew (by decide)
    rw [Reading.sliceFrom, slice_ok filled (Nat.le_refl _), List.take_length,
      Reading.ok_bind]
    cases reading : TypeRef.read (value.drop 1) with
    | error cause => exact ⟨none, rfl⟩
    | ok found =>
      obtain ⟨reference, used⟩ := found
      have within : 1 + used ≤ value.length := by
        have short := used_le_of_read reading
        rw [List.length_drop] at short
        omega
      simp only [Reading.sliceFrom, slice_ok within (Nat.le_refl _), Reading.ok_bind]
      exact ⟨_, rfl⟩
  · exact ⟨none, rfl⟩

/-- An initial value is read by position as it is in passing. -/
theorem withValue_eq (symbols : Symbols) (hasDimensions : Bool) (given : Given)
    (value : List Token) :
    withValue symbols hasDimensions given value = given.withValue symbols hasDimensions value := by
  obtain ⟨literal, found⟩ := arrayLiteral_ok value
  unfold withValue Given.withValue
  cases wholeConstruction value with
  | error obstacle => rfl
  | ok built =>
    simp only [Reading.ok_bind, found]
    cases built with
    | some built => rfl
    | none =>
      cases literal with
      | some literal => rfl
      | none =>
        by_cases three : value.length = 3
        · match value, three with
          | [owner, point, name], _ =>
            by_cases isPoint : point = "."
            · subst isPoint
              simp [entry, Reading.ok_bind]
            · simp [entry, isPoint, Reading.ok_bind]
        · simp only [if_neg three]
          split
          · next owner name => exact absurd rfl three
          · rfl

end Values

section Negation

/-- True of a relation outside literals. -/
def isRelation (marked : Token.Marked) : Bool :=
  !marked.quoted && (Expression.complement? marked.token).isSome

/-- The positions of the relations outside literals, the first token being at `index`. -/
def relationsFrom (index : Nat) : List Token.Marked → List Nat
  | [] => []
  | marked :: rest =>
    if isRelation marked then index :: relationsFrom (index + 1) rest
    else relationsFrom (index + 1) rest

/-- The text of the negation of a condition. A single relation is looked up by its position, and
its complement put there. -/
def renderNegation (tokens : List Token) : Reading String :=
  let merged := Expression.mergeRelations (Token.mark tokens)
  match relationsFrom 0 (Token.mark merged), (Expression.unquoted merged).any Expression.isLogical with
  | [index], false => do
    let relation ← entry merged index
    let negated ← put (Expression.expressionTokens merged) index
      ((Expression.complement? relation).getD "==")
    return formatTokens negated
  | _, _ => .ok ("!(" ++ Expression.renderCondition merged ++ ")")

/-- The positions of relations, one token at a time. -/
theorem relationsFrom_cons (index : Nat) (marked : Token.Marked) (rest : List Token.Marked) :
    relationsFrom index (marked :: rest) =
      if isRelation marked then index :: relationsFrom (index + 1) rest
      else relationsFrom (index + 1) rest := rfl

/-- There are as many positions as relations. -/
theorem length_relationsFrom (index : Nat) (marked : List Token.Marked) :
    (relationsFrom index marked).length = (marked.filter isRelation).length := by
  induction marked generalizing index with
  | nil => rfl
  | cons first rest inductionHypothesis =>
    rw [relationsFrom_cons]
    cases related : isRelation first with
    | true => simp [related, inductionHypothesis]
    | false => simp [related, inductionHypothesis]

/-- A single relation stands between tokens none of which is one. -/
theorem relationsFrom_single {start index : Nat} {marked : List Token.Marked}
    (single : relationsFrom start marked = [index]) :
    ∃ before relation after, marked = before ++ relation :: after ∧
      index = start + before.length ∧ isRelation relation = true ∧
      (∀ other ∈ before, isRelation other = false) ∧ ∀ other ∈ after, isRelation other = false := by
  induction marked generalizing start with
  | nil => cases single
  | cons first rest inductionHypothesis =>
    rw [relationsFrom_cons] at single
    cases related : isRelation first with
    | true =>
      rw [related, if_pos rfl] at single
      obtain ⟨rfl, none⟩ := List.cons.inj single
      have others : rest.filter isRelation = [] := by
        rw [← List.length_eq_zero_iff, ← length_relationsFrom, none, List.length_nil]
      refine ⟨[], first, rest, rfl, rfl, related, by simp, fun other member => ?_⟩
      simpa using List.filter_eq_nil_iff.mp others other member
    | false =>
      rw [related, if_neg Bool.false_ne_true] at single
      obtain ⟨before, relation, after, rfl, rfl, holds, left, right⟩ := inductionHypothesis single
      refine ⟨first :: before, relation, after, rfl, ?_, holds, ?_, right⟩
      · rw [List.length_cons]
        omega
      · intro other member
        rcases List.mem_cons.mp member with rfl | inside
        · exact related
        · exact left other inside

/-- There is one relation exactly when one position is found. -/
theorem isSingleRelation_eq (tokens : List Token) :
    Expression.isSingleRelation tokens =
      ((relationsFrom 0 (Token.mark tokens)).length == 1 &&
        !(Expression.unquoted tokens).any Expression.isLogical) := by
  have same : (Expression.unquoted tokens).filter (fun token => (Expression.complement? token).isSome)
      = ((Token.mark tokens).filter isRelation).map Token.Marked.token := by
    rw [Expression.unquoted, List.filter_map, List.filter_filter]
    congr 2
    funext marked
    exact Bool.and_comm _ _
  rw [length_relationsFrom, Expression.isSingleRelation, same, List.length_map]

/-- Putting its complement at the position of the only relation is the same as changing every
relation to its complement. -/
theorem put_complement {tokens : List Token} {index : Nat}
    (single : relationsFrom 0 (Token.mark tokens) = [index]) :
    ∃ relation, entry tokens index = .ok relation ∧
      put (Expression.expressionTokens tokens) index
          ((Expression.complement? relation).getD "==") =
        .ok (Token.mapUnquoted (fun token =>
          (Expression.complement? token).getD (Expression.expressionToken token)) tokens) := by
  obtain ⟨before, relation, after, split, rfl, holds, left, right⟩ := relationsFrom_single single
  obtain ⟨outside, related⟩ : relation.quoted = false ∧
      (Expression.complement? relation.token).isSome = true := by
    simpa [isRelation] using holds
  obtain ⟨complement, found⟩ := Option.isSome_iff_exists.mp related
  have line : tokens = before.map Token.Marked.token ++
      relation.token :: after.map Token.Marked.token := by
    rw [← Token.markFrom_map_token false tokens, ← Token.mark, split, List.map_append, List.map_cons]
  -- Away from the relation, both changes are that of an expression.
  have same : ∀ others : List Token.Marked, (∀ other ∈ others, isRelation other = false) →
      others.map (fun marked => if marked.quoted then marked.token
        else (Expression.complement? marked.token).getD (Expression.expressionToken marked.token)) =
      others.map (fun marked => if marked.quoted then marked.token
        else Expression.expressionToken marked.token) := by
    intro others none
    apply List.map_congr_left
    intro marked member
    have unrelated := none marked member
    cases quoted : marked.quoted with
    | true => rfl
    | false =>
      have missing : Expression.complement? marked.token = .none := by
        simpa [isRelation, quoted] using unrelated
      simp [missing]
  refine ⟨relation.token, ?_, ?_⟩
  · rw [line, Nat.zero_add, ← List.length_map Token.Marked.token, entry_append]
  · simp only [Expression.expressionTokens, Token.mapUnquoted, split, List.map_append,
      List.map_cons, same before left, same after right, outside, found, Bool.false_eq_true,
      if_false, Option.getD_some, Nat.zero_add]
    have there := put_append (before.map fun marked => if marked.quoted then marked.token
      else Expression.expressionToken marked.token) (Expression.expressionToken relation.token)
      (after.map fun marked => if marked.quoted then marked.token
      else Expression.expressionToken marked.token) complement
    rwa [List.length_map] at there

/-- A condition is negated by position as it is in passing. -/
theorem renderNegation_eq (tokens : List Token) :
    renderNegation tokens = .ok (Expression.renderNegation tokens) := by
  unfold renderNegation Expression.renderNegation
  simp only
  generalize Expression.mergeRelations (Token.mark tokens) = merged
  rw [isSingleRelation_eq]
  split
  · next index single plain =>
    obtain ⟨relation, here, negated⟩ := put_complement single
    rw [here, Reading.ok_bind, negated, single, plain]
    rfl
  · next several =>
    have combined : ¬ ((relationsFrom 0 (Token.mark merged)).length == 1 &&
        !(Expression.unquoted merged).any Expression.isLogical) = true := by
      intro alone
      obtain ⟨one, plain⟩ := Bool.and_eq_true_iff.mp alone
      obtain ⟨index, single⟩ := List.length_eq_one_iff.mp (beq_iff_eq.mp one)
      exact several index single (Bool.not_eq_true' _ ▸ plain)
    rw [if_neg combined]

end Negation

section Closers

variable {α : Type} (test : α → Bool)

/-- The last position of an entry that passes a test. -/
def lastPosition : List α → Option Nat
  | [] => none
  | value :: rest =>
    match lastPosition rest with
    | some index => some (index + 1)
    | none => if test value then some 0 else none

/-- Close the innermost block that passes a test, where blocks are listed outermost first: the
blocks that stay open, and whether one was closed. -/
def closeInnermost (opened : List α) : Reading (List α × Bool) :=
  match lastPosition test opened with
  | some index => do return (← remove opened index, true)
  | none => .ok (opened, false)

variable {test}

/-- There is no last position where no entry passes the test. -/
theorem lastPosition_none {opened : List α} (none : ∀ value ∈ opened, ¬ test value = true) :
    lastPosition test opened = .none := by
  induction opened with
  | nil => rfl
  | cons value rest inductionHypothesis =>
    have later := inductionHypothesis fun other member => none other (List.mem_cons_of_mem _ member)
    simp [lastPosition, later, none value List.mem_cons_self]

/-- The last position is that of an entry which passes, with none behind it that does. -/
theorem lastPosition_append {inner : List α} {value : α} (outer : List α)
    (passes : test value = true) (none : ∀ other ∈ inner, ¬ test other = true) :
    lastPosition test (outer ++ value :: inner) = some outer.length := by
  induction outer with
  | nil => simp [lastPosition, lastPosition_none none, passes]
  | cons first rest inductionHypothesis => simp [lastPosition, inductionHypothesis]

/-- Closing by position takes the innermost entry that passes the test. -/
theorem closeInnermost_eq (test : α → Bool) (opened : List α) :
    closeInnermost test opened.reverse =
      .ok ((opened.eraseP test).reverse, opened.any test) := by
  unfold closeInnermost
  by_cases some : ∃ value ∈ opened, test value = true
  · obtain ⟨value, member, passes⟩ := some
    obtain ⟨closed, inner, outer, fails, holds, whole, left⟩ :=
      List.exists_of_eraseP member passes
    have position : lastPosition test opened.reverse = .some outer.reverse.length := by
      rw [whole, List.reverse_append, List.reverse_cons, List.append_assoc, List.singleton_append]
      exact lastPosition_append _ holds fun other inside => fails other (List.mem_reverse.mp inside)
    have removed := remove_append outer.reverse closed inner.reverse
    have found : opened.any test = true := List.any_eq_true.mpr ⟨value, member, passes⟩
    rw [position, left, found]
    simp only [whole, List.reverse_append, List.reverse_cons, List.append_assoc,
      List.singleton_append, removed, Reading.ok_bind, Reading.pure_eq_ok]
  · have fails : ∀ value ∈ opened, ¬ test value = true :=
      fun value member passes => some ⟨value, member, passes⟩
    have position := lastPosition_none fun value member =>
      fails value (List.mem_reverse.mp member)
    have found : opened.any test = false := by
      rw [List.any_eq_false]
      exact fails
    rw [position, List.eraseP_of_forall_not fails, found]

end Closers

end BasicToSharp.ByPosition
