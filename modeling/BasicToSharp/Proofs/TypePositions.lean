import BasicToSharp.Proofs.Positions

/-!
# Reading a type by position

A type is read by walking along the tokens: a name and its path, the type arguments, each of
them read from the rest of the line as a line of its own, and the array markers. The walk holds
the position it has come to and takes names and rests from there. A walk that is not at its end
after a number of steps fails too.

It gives what the recursive reader gives, the type and the number of its tokens or the same
refusal. So neither of its accesses fails, and twice as many steps as there are tokens are
enough.
-/

namespace BasicToSharp.ByPosition

/-- The names of a qualified path from a position on, and the position behind them. -/
def pathFrom (tokens : List Token) (index : Nat) : Reading (List Token × Nat) :=
  if _ : tokenAt tokens index = "." ∧ Token.isIdentifier (tokenAt tokens (index + 1)) then do
    let name ← entry tokens (index + 1)
    let (path, stop) ← pathFrom tokens (index + 2)
    return (name :: path, stop)
  else return ([], index)
  termination_by tokens.length - index
  decreasing_by
    obtain ⟨here, -⟩ := ‹_ ∧ _›
    have inside : index < tokens.length := by
      apply lt_length_of_tokenAt_ne
      rw [here]
      decide
    omega

/-- The number of array markers from a position on, and the position behind them. -/
def ranksFrom (tokens : List Token) (index : Nat) : Nat × Nat :=
  if _ : tokenAt tokens index = "(" ∧ tokenAt tokens (index + 1) = ")" then
    let (ranks, stop) := ranksFrom tokens (index + 2)
    (ranks + 1, stop)
  else (0, index)
  termination_by tokens.length - index
  decreasing_by
    obtain ⟨here, -⟩ := ‹_ ∧ _›
    have inside : index < tokens.length := by
      apply lt_length_of_tokenAt_ne
      rw [here]
      decide
    omega

mutual

/-- The type at the start of a token list and the position behind it, in a number of steps. -/
def typeWithin : Nat → List Token → Reading (TypeRef × Nat)
  | 0, _ => .error .outOfRange
  | steps + 1, tokens => do
    let head := tokenAt tokens 0
    if Token.isIdentifier head then
      let (path, index) ← pathFrom tokens 1
      let (arguments, index) ←
        if tokenAt tokens index = "(" ∧ Token.isKeyword (tokenAt tokens (index + 1)) "of" then
          argumentsWithin steps tokens (index + 2)
        else pure ([], index)
      let (ranks, index) := ranksFrom tokens index
      return (.named head path arguments ranks, index)
    else Reading.refuse .typeName (.expectedType head)

/-- The type arguments from a position on and the position behind their closing parenthesis, in
a number of steps. -/
def argumentsWithin : Nat → List Token → Nat → Reading (List TypeRef × Nat)
  | 0, _, _ => .error .outOfRange
  | steps + 1, tokens, index => do
    let rest ← part tokens (min index tokens.length) tokens.length
    let (argument, used) ← typeWithin steps rest
    let index := index + used
    if tokenAt tokens index = "," then
      let (others, index) ← argumentsWithin steps tokens (index + 1)
      return (argument :: others, index)
    else if tokenAt tokens index = ")" then return ([argument], index + 1)
    else Reading.refuse .typeName .unclosedTypeList

end

/-- The type at the start of a token list and the number of its tokens. -/
def typeRef (tokens : List Token) : Reading (TypeRef × Nat) :=
  typeWithin (2 * tokens.length + 1) tokens

/-- At this position of a line, this is what is left of it. -/
def Left (tokens : List Token) (index : Nat) (rest : List Token) : Prop :=
  ∃ done, tokens = done ++ rest ∧ index = done.length

/-- A walk along a line gives what a recursion gives: the same refusal, or the same value, and
then comes to where the recursion has stopped. -/
def Walks {α : Type} (tokens : List Token) (recursion : Except Malformed (α × List Token))
    (walk : Reading (α × Nat)) : Prop :=
  match recursion with
  | .error cause => walk = .error (.malformed cause)
  | .ok (value, after) => ∃ stop, walk = .ok (value, stop) ∧ Left tokens stop after

namespace Left

variable {tokens rest after : List Token} {index used : Nat}

/-- At the start all tokens are left. -/
theorem start (tokens : List Token) : Left tokens 0 tokens := ⟨[], rfl, rfl⟩

/-- Behind a token the others are left. -/
theorem next {token : Token} (left : Left tokens index (token :: rest)) :
    Left tokens (index + 1) rest := by
  obtain ⟨done, rfl, rfl⟩ := left
  exact ⟨done ++ [token], by simp, by simp⟩

/-- What is left of what is left. -/
theorem trans (left : Left tokens index rest) (within : Left rest used after) :
    Left tokens (index + used) after := by
  obtain ⟨done, rfl, rfl⟩ := left
  obtain ⟨taken, rfl, rfl⟩ := within
  exact ⟨done ++ taken, by simp, by simp⟩

/-- The position is the number of tokens that are passed. -/
theorem eq_sub (left : Left tokens index rest) : index = tokens.length - rest.length := by
  obtain ⟨done, rfl, rfl⟩ := left
  rw [List.length_append, Nat.add_sub_cancel]

/-- The tokens from a position on are those that are left. -/
theorem tokenAt_add (left : Left tokens index rest) (offset : Nat) :
    tokenAt tokens (index + offset) = tokenAt rest offset := by
  obtain ⟨done, rfl, rfl⟩ := left
  rw [tokenAt, tokenAt, List.getD_eq_getElem?_getD, List.getD_eq_getElem?_getD,
    List.getElem?_append_right (Nat.le_add_right _ _), Nat.add_sub_cancel_left]

/-- The token at a position is the first one left. -/
theorem tokenAt (left : Left tokens index rest) :
    BasicToSharp.tokenAt tokens index = BasicToSharp.tokenAt rest 0 := left.tokenAt_add 0

/-- The first token left is an entry. -/
theorem entry {token : Token} (left : Left tokens index (token :: rest)) :
    ByPosition.entry tokens index = .ok token := by
  obtain ⟨done, rfl, rfl⟩ := left
  exact entry_append done token rest

/-- All that is left can be taken, also when the position is cut to the end of the line. -/
theorem part (left : Left tokens index rest) :
    ByPosition.part tokens (min index tokens.length) tokens.length = .ok rest := by
  obtain ⟨done, rfl, rfl⟩ := left
  have inside : done.length ≤ (done ++ rest).length := by simp
  rw [Nat.min_eq_left inside, part_to_end]

/-- Two tokens are left when the second is not empty. -/
theorem two_tokens (left : Left tokens index rest)
    (second : BasicToSharp.tokenAt tokens (index + 1) ≠ "") :
    ∃ first next others, rest = first :: next :: others := by
  rw [left.tokenAt_add] at second
  have inside := lt_length_of_tokenAt_ne second
  match rest, inside with
  | first :: next :: others, _ => exact ⟨first, next, others, rfl⟩

end Left

section Parts

variable {tokens rest : List Token} {index : Nat}

/-- By position, a path is walked as it is taken in passing. -/
theorem pathFrom_walks (left : Left tokens index rest) :
    Walks tokens (.ok (TypeRef.takePath rest)) (pathFrom tokens index) := by
  fun_induction TypeRef.takePath rest generalizing index with
  | case1 name rest named path after found inductionHypothesis =>
    obtain ⟨stop, walked, behind⟩ := inductionHypothesis left.next.next
    rw [found] at walked behind
    have present : tokenAt tokens index = "." ∧
        Token.isIdentifier (tokenAt tokens (index + 1)) = true := by
      rw [left.tokenAt, left.tokenAt_add]
      exact ⟨rfl, named⟩
    refine ⟨stop, ?_, behind⟩
    rw [pathFrom, dif_pos present, left.next.entry, Reading.ok_bind, walked, Reading.ok_bind]
    rfl
  | case2 name rest unnamed =>
    have missing : ¬ (tokenAt tokens index = "." ∧
        Token.isIdentifier (tokenAt tokens (index + 1)) = true) := by
      rw [left.tokenAt_add]
      exact fun present => unnamed present.2
    refine ⟨index, ?_, left⟩
    rw [pathFrom, dif_neg missing]
    rfl
  | case3 rest noPath =>
    have missing : ¬ (tokenAt tokens index = "." ∧
        Token.isIdentifier (tokenAt tokens (index + 1)) = true) := by
      rintro ⟨point, named⟩
      have second : tokenAt tokens (index + 1) ≠ "" := by
        intro empty
        rw [empty] at named
        exact absurd named (by decide)
      obtain ⟨first, name, others, rfl⟩ := left.two_tokens second
      obtain rfl : first = "." := left.tokenAt.symm.trans point
      exact noPath name others rfl
    refine ⟨index, ?_, left⟩
    rw [pathFrom, dif_neg missing]
    rfl

/-- By position, array ranks are walked as they are taken in passing. -/
theorem ranksFrom_walks (left : Left tokens index rest) :
    ∃ stop, ranksFrom tokens index = ((TypeRef.takeRanks rest).1, stop) ∧
      Left tokens stop (TypeRef.takeRanks rest).2 := by
  fun_induction TypeRef.takeRanks rest generalizing index with
  | case1 rest ranks after found inductionHypothesis =>
    obtain ⟨stop, walked, behind⟩ := inductionHypothesis left.next.next
    rw [found] at walked behind
    have present : tokenAt tokens index = "(" ∧ tokenAt tokens (index + 1) = ")" := by
      rw [left.tokenAt, left.tokenAt_add]
      exact ⟨rfl, rfl⟩
    refine ⟨stop, ?_, behind⟩
    rw [ranksFrom, dif_pos present, walked]
  | case2 rest noRank =>
    have missing : ¬ (tokenAt tokens index = "(" ∧ tokenAt tokens (index + 1) = ")") := by
      rintro ⟨opened, closed⟩
      have second : tokenAt tokens (index + 1) ≠ "" := by
        rw [closed]
        decide
      obtain ⟨first, next, others, rfl⟩ := left.two_tokens second
      obtain rfl : first = "(" := left.tokenAt.symm.trans opened
      obtain rfl : next = ")" := (left.tokenAt_add 1).symm.trans closed
      exact noRank others rfl
    refine ⟨index, ?_, left⟩
    rw [ranksFrom, dif_neg missing]

/-- Whether type arguments follow, asked by position. -/
theorem behindOf_iff (left : Left tokens index rest) :
    (tokenAt tokens index = "(" ∧ Token.isKeyword (tokenAt tokens (index + 1)) "of" = true) ↔
      (TypeRef.behindOf rest).isSome = true := by
  constructor
  · rintro ⟨opened, isOf⟩
    have second : tokenAt tokens (index + 1) ≠ "" := by
      intro empty
      rw [empty] at isOf
      exact absurd isOf (by decide)
    obtain ⟨first, word, inner, rfl⟩ := left.two_tokens second
    obtain rfl : first = "(" := left.tokenAt.symm.trans opened
    rw [left.tokenAt_add] at isOf
    rw [show TypeRef.behindOf ("(" :: word :: inner) = some inner from if_pos isOf]
    rfl
  · intro some
    obtain ⟨inner, found⟩ := Option.isSome_iff_exists.mp some
    obtain ⟨word, rfl, isOf⟩ := TypeRef.exists_of_behindOf found
    rw [left.tokenAt, left.tokenAt_add]
    exact ⟨rfl, isOf⟩

end Parts

section Types

variable {tokens rest : List Token} {index steps : Nat}

/-- What is behind a type is shorter than what it was read from. -/
theorem readRest_shorter {after : List Token} {reference : TypeRef}
    (reading : TypeRef.readRest tokens = .ok (reference, after)) :
    after.length < tokens.length := by
  unfold TypeRef.readRest at reading
  cases found : TypeRef.readFrom tokens with
  | error cause =>
    rw [found] at reading
    cases reading
  | ok rest =>
    rw [found] at reading
    cases reading
    exact rest.2.property

/-- One step over a type, given the steps over type arguments. -/
theorem typeWithin_step
    (arguments : ∀ rest index, 2 * rest.length + 1 < steps → Left tokens index rest →
      Walks tokens (TypeRef.argumentsRest rest) (argumentsWithin steps tokens index))
    (enough : 2 * tokens.length < steps + 1) :
    Walks tokens (TypeRef.readRest tokens) (typeWithin (steps + 1) tokens) := by
  match tokens, arguments, enough with
  | [], _, _ =>
    rw [TypeRef.readRest_nil, typeWithin]
    rfl
  | head :: rest, arguments, enough =>
    have first : tokenAt (head :: rest) 0 = head := rfl
    rw [TypeRef.readRest_cons, typeWithin]
    simp only [first]
    by_cases named : Token.isIdentifier head = true
    · obtain ⟨index, walked, behind⟩ := pathFrom_walks (Left.start (head :: rest)).next
      simp only [named, if_true, walked, Reading.ok_bind]
      cases opened : TypeRef.behindOf (TypeRef.takePath rest).2 with
      | some inner =>
        have follows := (behindOf_iff behind).mpr (by rw [opened]; rfl)
        obtain ⟨word, shape, -⟩ := TypeRef.exists_of_behindOf opened
        rw [shape] at behind
        have short : 2 * inner.length + 1 < steps := by
          have behindOpening := TypeRef.behindOf_length opened
          have behindName := TypeRef.takePath_length rest
          rw [List.length_cons] at enough
          omega
        have walks := arguments inner _ short behind.next.next
        rw [if_pos follows]
        cases reading : TypeRef.argumentsRest inner with
        | error cause =>
          rw [reading] at walks
          have failed : argumentsWithin steps (head :: rest) (index + 2) =
            .error (.malformed cause) := walks
          simp only [reading, failed]
          rfl
        | ok found =>
          rw [reading] at walks
          obtain ⟨stop, passed, place⟩ := walks
          obtain ⟨last, ranks, atEnd⟩ := ranksFrom_walks place
          simp only [reading, passed, Reading.ok_bind, ranks]
          exact ⟨last, rfl, atEnd⟩
      | none =>
        have alone : ¬ (tokenAt (head :: rest) index = "(" ∧
            Token.isKeyword (tokenAt (head :: rest) (index + 1)) "of" = true) := by
          rw [behindOf_iff behind, opened]
          exact Bool.false_ne_true
        obtain ⟨last, ranks, atEnd⟩ := ranksFrom_walks behind
        refine ⟨last, ?_, atEnd⟩
        rw [if_neg alone, Reading.pure_eq_ok, Reading.ok_bind, ranks]
        rfl
    · simp only [named, Bool.false_eq_true, if_false]
      rfl

/-- One step over type arguments, given the steps over a type and over fewer arguments. -/
theorem argumentsWithin_step
    (types : ∀ rest, 2 * rest.length < steps →
      Walks rest (TypeRef.readRest rest) (typeWithin steps rest))
    (arguments : ∀ rest index, 2 * rest.length + 1 < steps → Left tokens index rest →
      Walks tokens (TypeRef.argumentsRest rest) (argumentsWithin steps tokens index))
    (enough : 2 * rest.length + 1 < steps + 1) (left : Left tokens index rest) :
    Walks tokens (TypeRef.argumentsRest rest) (argumentsWithin (steps + 1) tokens index) := by
  rw [TypeRef.argumentsRest_eq, argumentsWithin, left.part, Reading.ok_bind]
  have walks := types rest (by omega)
  cases reading : TypeRef.readRest rest with
  | error cause =>
    rw [reading] at walks
    rw [walks]
    rfl
  | ok found =>
    obtain ⟨reference, after⟩ := found
    have shorter := readRest_shorter reading
    rw [reading] at walks
    obtain ⟨used, walked, within⟩ := walks
    have place := left.trans within
    have next := place.tokenAt
    rw [walked, Reading.ok_bind]
    match after, place, next, shorter with
    | [], _, next, _ =>
      simp only [next]
      rfl
    | token :: more, place, next, shorter =>
      have next : tokenAt tokens (index + used) = token := next
      simp only [next]
      by_cases comma : token = ","
      · subst comma
        have later := arguments more _ (by rw [List.length_cons] at shorter; omega) place.next
        cases others : TypeRef.argumentsRest more with
        | error cause =>
          rw [others] at later
          have failed : argumentsWithin steps tokens (index + used + 1) =
            .error (.malformed cause) := later
          simp only [others, if_true, failed]
          rfl
        | ok found =>
          rw [others] at later
          obtain ⟨stop, passed, atEnd⟩ := later
          simp only [others, if_true, passed]
          exact ⟨stop, rfl, atEnd⟩
      · by_cases close : token = ")"
        · subst close
          exact ⟨_, rfl, place.next⟩
        · simp only [comma, close, if_false]
          split
          · next equal => cases equal
          · next equal =>
            cases equal
            exact absurd rfl comma
          · next equal =>
            cases equal
            exact absurd rfl close
          · rfl

/-- Both walks in turn. The induction is on the steps, of which a type argument takes one and
the list it is in another. -/
theorem within_walks (steps : Nat) :
    (∀ tokens, 2 * tokens.length < steps →
      Walks tokens (TypeRef.readRest tokens) (typeWithin steps tokens)) ∧
    ∀ tokens rest index, 2 * rest.length + 1 < steps → Left tokens index rest →
      Walks tokens (TypeRef.argumentsRest rest) (argumentsWithin steps tokens index) := by
  induction steps with
  | zero =>
    constructor
    · intro tokens enough
      omega
    · intro tokens rest index enough
      omega
  | succ steps inductionHypothesis =>
    obtain ⟨types, arguments⟩ := inductionHypothesis
    constructor
    · intro tokens enough
      exact typeWithin_step (arguments tokens) enough
    · intro tokens rest index enough left
      exact argumentsWithin_step types (arguments tokens) enough left

/-- By position, a type is read as it is in passing. -/
theorem typeRef_eq (tokens : List Token) : typeRef tokens = Reading.typeRef tokens := by
  have walks := (within_walks (2 * tokens.length + 1)).1 tokens (Nat.lt_succ_self _)
  unfold typeRef Reading.typeRef
  rw [TypeRef.read_eq]
  cases reading : TypeRef.readRest tokens with
  | error cause =>
    rw [reading] at walks
    exact walks
  | ok found =>
    rw [reading] at walks
    obtain ⟨stop, walked, behind⟩ := walks
    rw [walked, behind.eq_sub]
    rfl

end Types

end BasicToSharp.ByPosition
