import BasicToSharp.Proofs.Alike
import BasicToSharp.TypeRef

/-!
# Reading a type, step by step

The reader of type references returns what is left of the tokens together with a proof
that it is shorter, which is what makes it end. Here the same reading is given without that
proof, as equations that follow the grammar: a name and its path, type arguments, array
markers.

Two token lists that are alike start with the same type or with none, for the same reason.
The tokens of a type hold no quote, so what follows a type is alike again.

A type that is read has identifiers for names throughout, and only two things can be wrong
with one: a name is missing, or its list of arguments is not closed.
-/

namespace BasicToSharp.TypeRef

open Token (Alike AlikeFrom Outside SameStart)

/-- A type at the start of a token list and the tokens behind it. -/
def readRest (tokens : List Token) : Except Malformed (TypeRef × List Token) :=
  (readFrom tokens).map fun (reference, rest) => (reference, rest.val)

/-- The type arguments behind `(Of` and the tokens behind their closing parenthesis. -/
def argumentsRest (tokens : List Token) : Except Malformed (List TypeRef × List Token) :=
  (readArguments tokens).map fun (references, rest) => (references, rest.val)

/-- No tokens are no type. -/
theorem readRest_nil : readRest [] = refuse (.expectedType "") := by
  unfold readRest
  rw [readFrom]
  rfl

/-- A type is a name with its path, its arguments if `Of` follows, and its ranks. -/
theorem readRest_cons (head : Token) (rest : List Token) :
    readRest (head :: rest) =
      if Token.isIdentifier head then
        match behindOf (takePath rest).2 with
        | some inner => (argumentsRest inner).map fun (arguments, after) =>
            (.named head (takePath rest).1 arguments (takeRanks after).1, (takeRanks after).2)
        | none =>
          .ok (.named head (takePath rest).1 [] (takeRanks (takePath rest).2).1,
            (takeRanks (takePath rest).2).2)
      else refuse (.expectedType head) := by
  unfold readRest
  rw [readFrom]
  by_cases named : Token.isIdentifier head = true
  · simp only [named, if_true]
    split
    · next inner opened =>
      simp only [opened, argumentsRest]
      cases readArguments inner with
      | error cause => rfl
      | ok found => rfl
    · next opened =>
      simp only [opened]
      rfl
  · simp only [named, Bool.false_eq_true, if_false]
    rfl

/-- Arguments are types with commas between them, up to a closing parenthesis. -/
theorem argumentsRest_eq (tokens : List Token) :
    argumentsRest tokens =
      match readRest tokens with
      | .error cause => .error cause
      | .ok (first, "," :: more) => (argumentsRest more).map fun (others, after) =>
          (first :: others, after)
      | .ok (first, ")" :: more) => .ok ([first], more)
      | .ok _ => refuse .unclosedTypeList := by
  unfold argumentsRest readRest
  rw [readArguments]
  cases readFrom tokens with
  | error cause => rfl
  | ok found =>
    obtain ⟨first, rest, shorter⟩ := found
    match rest, shorter with
    | [], _ => rfl
    | token :: more, shorter =>
      by_cases comma : token = ","
      · subst comma
        simp only [Except.map]
        cases readArguments more with
        | error cause => rfl
        | ok found => rfl
      · by_cases close : token = ")"
        · subst close
          rfl
        · simp [Except.map, comma, close, refuse]

/-- A name is no quote. -/
theorem plain_of_identifier {token : Token} (named : Token.isIdentifier token = true) :
    token ≠ Token.quote := by
  rintro rfl
  exact absurd named (by decide)

section Alike

variable {left right : List Token}

/-- Lists that are alike have the same path in front. -/
theorem takePath_alike (alike : Alike left right) :
    (takePath left).1 = (takePath right).1 ∧
      SameStart left right (takePath left).2 (takePath right).2 := by
  fun_induction takePath left generalizing right with
  | case1 name rest named path after taken inductionHypothesis =>
    obtain ⟨behindPoint, rfl, alikePoint⟩ := Alike.of_cons alike (by decide)
    obtain ⟨behindName, rfl, alikeName⟩ := Alike.of_cons alikePoint (plain_of_identifier named)
    obtain ⟨samePath, sameStart⟩ := inductionHypothesis alikeName
    simp only [taken] at samePath sameStart
    simp only [takePath, named, if_true, samePath, true_and]
    exact (sameStart.cons (plain_of_identifier named)).cons (by decide)
  | case2 name rest unnamed =>
    obtain ⟨behindPoint, rfl, alikePoint⟩ := Alike.of_cons alike (by decide)
    obtain ⟨others, rfl⟩ := (Alike.cons_iff alikePoint).mp ⟨rest, rfl⟩
    simpa [takePath, unnamed] using SameStart.none alike
  | case3 left noPath =>
    have noPath' : takePath right = ([], right) := by
      unfold takePath
      split
      · next name rest =>
        obtain ⟨behindPoint, rfl, alikePoint⟩ := Alike.of_cons alike.symm (by decide)
        obtain ⟨others, rfl⟩ := (Alike.cons_iff alikePoint).mp ⟨rest, rfl⟩
        exact absurd rfl (noPath name others)
      · rfl
    rw [noPath']
    exact ⟨rfl, SameStart.none alike⟩

/-- Lists that are alike have the same array ranks in front. -/
theorem takeRanks_alike (alike : Alike left right) :
    (takeRanks left).1 = (takeRanks right).1 ∧
      SameStart left right (takeRanks left).2 (takeRanks right).2 := by
  fun_induction takeRanks left generalizing right with
  | case1 rest ranks after taken inductionHypothesis =>
    obtain ⟨behindOpen, rfl, alikeOpen⟩ := Alike.of_cons alike (by decide)
    obtain ⟨behindClose, rfl, alikeClose⟩ := Alike.of_cons alikeOpen (by decide)
    obtain ⟨sameRanks, sameStart⟩ := inductionHypothesis alikeClose
    simp only [taken] at sameRanks sameStart
    simp only [takeRanks, sameRanks, true_and]
    exact (sameStart.cons (by decide)).cons (by decide)
  | case2 left noRank =>
    have noRank' : takeRanks right = (0, right) := by
      unfold takeRanks
      split
      · next rest =>
        obtain ⟨behindOpen, rfl, alikeOpen⟩ := Alike.of_cons alike.symm (by decide)
        obtain ⟨others, rfl⟩ := (Alike.cons_iff alikeOpen).mp ⟨rest, rfl⟩
        exact absurd rfl (noRank others)
      · rfl
    rw [noRank']
    exact ⟨rfl, SameStart.none alike⟩

/-- `(Of` opens both lists or neither. -/
theorem behindOf_alike (alike : Alike left right) :
    behindOf left = none ∧ behindOf right = none ∨
      ∃ inner inner', behindOf left = some inner ∧ behindOf right = some inner' ∧
        SameStart left right inner inner' := by
  fun_cases behindOf left with
  | case1 word inner isOf =>
    have plain : word ≠ Token.quote := by
      rintro rfl
      exact absurd isOf (by decide)
    obtain ⟨behindOpen, rfl, alikeOpen⟩ := Alike.of_cons alike (by decide)
    obtain ⟨inner', rfl, alikeInner⟩ := Alike.of_cons alikeOpen plain
    refine .inr ⟨inner, inner', rfl, by simp [behindOf, isOf], ?_⟩
    exact ((SameStart.none alikeInner).cons plain).cons (by decide)
  | case2 word inner notOf =>
    obtain ⟨behindOpen, rfl, alikeOpen⟩ := Alike.of_cons alike (by decide)
    obtain ⟨others, rfl⟩ := (Alike.cons_iff alikeOpen).mp ⟨inner, rfl⟩
    exact .inl ⟨rfl, by simp [behindOf, notOf]⟩
  | case3 left unopened =>
    refine .inl ⟨rfl, ?_⟩
    unfold behindOf
    split
    · next word inner =>
      obtain ⟨behindOpen, rfl, alikeOpen⟩ := Alike.of_cons alike.symm (by decide)
      obtain ⟨others, rfl⟩ := (Alike.cons_iff alikeOpen).mp ⟨inner, rfl⟩
      exact absurd rfl (unopened word others)
    · rfl

/-- Both lists start with the same thing, or with none for the same cause. -/
inductive SameReading {α : Type} (left right : List Token) :
    Except Malformed (α × List Token) → Except Malformed (α × List Token) → Prop
  | found (value : α) {rest rest' : List Token} (behind : SameStart left right rest rest') :
      SameReading left right (.ok (value, rest)) (.ok (value, rest'))
  | refused (cause : Malformed) : SameReading left right (.error cause) (.error cause)

/-- One type is read alike when the type arguments within it are. -/
theorem readRest_step (alike : Alike left right)
    (within : ∀ inner inner', inner.length < left.length → Alike inner inner' →
      SameReading inner inner' (argumentsRest inner) (argumentsRest inner')) :
    SameReading left right (readRest left) (readRest right) := by
  match left, alike with
  | [], alike =>
    rw [Alike.of_nil alike, readRest_nil]
    exact .refused _
  | head :: rest, alike =>
    by_cases named : Token.isIdentifier head = true
    · have plain := plain_of_identifier named
      obtain ⟨rest', rfl, alikeRest⟩ := Alike.of_cons alike plain
      obtain ⟨samePath, behindPath⟩ := takePath_alike alikeRest
      obtain ⟨path, -, -, -, alikePath⟩ := id behindPath
      rw [readRest_cons, readRest_cons, if_pos named, if_pos named, ← samePath]
      rcases behindOf_alike alikePath with ⟨unopened, unopened'⟩ |
        ⟨inner, inner', opened, opened', behindOpening⟩
      · simp only [unopened, unopened']
        obtain ⟨sameRanks, behindRanks⟩ := takeRanks_alike alikePath
        rw [sameRanks]
        exact .found _ ((behindPath.trans behindRanks).cons plain)
      · simp only [opened, opened']
        obtain ⟨_, -, -, -, alikeInner⟩ := id behindOpening
        have shorter : inner.length < (head :: rest).length := by
          have := behindOf_length opened
          have := takePath_length rest
          simp only [List.length_cons]
          omega
        have reading := within inner inner' shorter alikeInner
        generalize argumentsRest inner = one, argumentsRest inner' = other at reading
        cases reading with
        | refused cause => exact .refused cause
        | found arguments behindArguments =>
          obtain ⟨_, -, -, -, alikeAfter⟩ := id behindArguments
          obtain ⟨sameRanks, behindRanks⟩ := takeRanks_alike alikeAfter
          simp only [Except.map, sameRanks]
          refine .found _ (SameStart.cons plain ?_)
          exact ((behindPath.trans behindOpening).trans behindArguments).trans behindRanks
    · have same : ∀ {other : List Token}, readRest (head :: other) = refuse (.expectedType head) :=
        fun {other} => by rw [readRest_cons, if_neg named]
      obtain ⟨rest', rfl⟩ := (Alike.cons_iff alike).mp ⟨rest, rfl⟩
      rw [same, same]
      exact .refused _

/-- Type arguments are read alike: the first is a type, and behind a comma the others are
fewer tokens. -/
theorem argumentsRest_alike (alike : Alike left right) :
    SameReading left right (argumentsRest left) (argumentsRest right) := by
  generalize size : left.length = length
  induction length using Nat.strongRecOn generalizing left right with
  | _ length inductionHypothesis =>
    subst size
    have first := readRest_step alike fun inner inner' shorter alikeInner =>
      inductionHypothesis inner.length shorter alikeInner rfl
    rw [argumentsRest_eq, argumentsRest_eq]
    generalize readRest left = one, readRest right = other at first
    cases first with
    | refused cause => exact .refused cause
    | @found type rest rest' behind =>
      obtain ⟨taken, free, rfl, rfl, alikeRest⟩ := id behind
      match rest, alikeRest with
      | [], alikeRest =>
        rw [Alike.of_nil alikeRest]
        exact .refused _
      | token :: more, alikeRest =>
        by_cases comma : token = ","
        · subst comma
          obtain ⟨more', rfl, alikeMore⟩ := Alike.of_cons alikeRest (by decide)
          have shorter : more.length < (taken ++ "," :: more).length := by
            simp only [List.length_append, List.length_cons]
            omega
          have others := inductionHypothesis more.length shorter alikeMore rfl
          simp only
          generalize argumentsRest more = one, argumentsRest more' = other at others
          cases others with
          | refused cause => exact .refused cause
          | found others behindOthers =>
            exact .found _ (behind.trans (behindOthers.cons (by decide)))
        · by_cases close : token = ")"
          · subst close
            obtain ⟨more', rfl, alikeMore⟩ := Alike.of_cons alikeRest (by decide)
            exact .found _ (behind.trans ((SameStart.none alikeMore).cons (by decide)))
          · obtain ⟨more', rfl⟩ := (Alike.cons_iff alikeRest).mp ⟨more, rfl⟩
            simpa [comma, close, refuse] using SameReading.refused _

/-- Lists that are alike are read as the same type, with rests that are alike. -/
theorem readRest_alike (alike : Alike left right) :
    SameReading left right (readRest left) (readRest right) :=
  readRest_step alike fun _ _ _ alikeInner => argumentsRest_alike alikeInner

/-- The number of tokens of a type is what it leaves missing of the list. -/
theorem read_eq (tokens : List Token) :
    read tokens = (readRest tokens).map fun (reference, rest) =>
      (reference, tokens.length - rest.length) := by
  unfold read readRest
  cases readFrom tokens with
  | error cause => rfl
  | ok found => rfl

/-- A type is read alike, and the position behind it is outside literals. -/
theorem read_alike (alike : Alike left right) :
    (∃ cause, read left = .error cause ∧ read right = .error cause) ∨
      ∃ reference used, read left = .ok (reference, used) ∧
        read right = .ok (reference, used) ∧ used ≤ left.length ∧ Outside left used := by
  have reading := readRest_alike alike
  rw [read_eq, read_eq]
  generalize readRest left = one, readRest right = other at reading
  cases reading with
  | refused cause => exact .inl ⟨cause, rfl, rfl⟩
  | found reference behind =>
    obtain ⟨taken, free, rfl, rfl, -⟩ := behind
    refine .inr ⟨reference, taken.length, by simp [Except.map], by simp [Except.map], by simp, ?_⟩
    apply Token.outside_of_not_mem
    simpa using free

end Alike

section Names

mutual

/-- True of a reference whose names are all identifiers. -/
def isNamed : TypeRef → Bool
  | .named head path arguments _ =>
    Token.isIdentifier head && path.all Token.isIdentifier && allNamed arguments

/-- True of references whose names are all identifiers. -/
def allNamed : List TypeRef → Bool
  | [] => true
  | argument :: rest => argument.isNamed && allNamed rest

end

/-- A path has names only. -/
theorem takePath_named (tokens : List Token) :
    (takePath tokens).1.all Token.isIdentifier = true := by
  fun_induction takePath tokens with
  | case1 name rest named path after taken inductionHypothesis =>
    simpa [taken, named] using inductionHypothesis
  | case2 => rfl
  | case3 => rfl

/-- What may come of reading at the start of a token list: something that holds, with less
left behind it, or one of the two refusals of a type. -/
def Reads {α : Type} (holds : α → Prop) (tokens : List Token) :
    Except Malformed (α × List Token) → Prop
  | .ok (value, rest) => holds value ∧ rest.length < tokens.length
  | .error cause =>
    cause = ⟨.typeName, .unclosedTypeList⟩ ∨ ∃ found, cause = ⟨.typeName, .expectedType found⟩

/-- A type is read soundly if its arguments, which are fewer tokens, are. -/
theorem readRest_reads_step {tokens : List Token}
    (arguments : ∀ inner : List Token, inner.length < tokens.length →
      Reads (allNamed · = true) inner (argumentsRest inner)) :
    Reads (isNamed · = true) tokens (readRest tokens) := by
  cases tokens with
  | nil =>
    rw [readRest_nil]
    exact .inr ⟨"", rfl⟩
  | cons head rest =>
    have behindName := takePath_length rest
    rw [readRest_cons]
    split
    · next named =>
      split
      · next inner opened =>
        have behindOpening := behindOf_length opened
        have inside := arguments inner (by rw [List.length_cons]; omega)
        cases found : argumentsRest inner with
        | error cause =>
          rw [found] at inside
          exact inside
        | ok read =>
          obtain ⟨list, after⟩ := read
          rw [found] at inside
          obtain ⟨list_named, shorter⟩ := inside
          have behindRanks := takeRanks_length after
          refine ⟨?_, ?_⟩
          · simp [isNamed, named, takePath_named, list_named]
          · simp only [List.length_cons]
            omega
      · have behindRanks := takeRanks_length (takePath rest).2
        refine ⟨?_, ?_⟩
        · simp [isNamed, allNamed, named, takePath_named]
        · simp only [List.length_cons]
          omega
    · exact .inr ⟨head, rfl⟩

/-- Type arguments are named, and reading them leaves a rest of the tokens. -/
theorem argumentsRest_reads (tokens : List Token) :
    Reads (allNamed · = true) tokens (argumentsRest tokens) := by
  generalize size : tokens.length = length
  induction length using Nat.strongRecOn generalizing tokens with
  | _ length inductionHypothesis =>
    subst size
    have first := readRest_reads_step fun inner shorter =>
      inductionHypothesis inner.length shorter inner rfl
    rw [argumentsRest_eq]
    cases found : readRest tokens with
    | error cause =>
      rw [found] at first
      exact first
    | ok read =>
      obtain ⟨argument, rest⟩ := read
      rw [found] at first
      obtain ⟨named, shorter⟩ := first
      match rest, shorter with
      | [], _ => exact .inl rfl
      | token :: more, shorter =>
        rw [List.length_cons] at shorter
        by_cases comma : token = ","
        · subst comma
          have others := inductionHypothesis more.length (by omega) more rfl
          simp only
          cases foundOthers : argumentsRest more with
          | error cause =>
            rw [foundOthers] at others
            exact others
          | ok read =>
            obtain ⟨list, after⟩ := read
            rw [foundOthers] at others
            refine ⟨?_, ?_⟩
            · simp [allNamed, named, others.1]
            · exact Nat.lt_trans others.2 (by omega)
        · by_cases close : token = ")"
          · subst close
            refine ⟨?_, ?_⟩
            · simp [allNamed, named]
            · omega
          · simpa [comma, close, refuse] using .inl rfl

/-- A type that is read consists of identifiers, and one that is refused is refused for one
of two reasons. -/
theorem readRest_reads (tokens : List Token) :
    Reads (isNamed · = true) tokens (readRest tokens) :=
  readRest_reads_step fun inner _ => argumentsRest_reads inner

/-- A type that is read is named. -/
theorem isNamed_of_read {tokens : List Token} {reference : TypeRef} {used : Nat}
    (found : read tokens = .ok (reference, used)) : reference.isNamed = true := by
  have reads := readRest_reads tokens
  rw [read_eq] at found
  cases rest : readRest tokens with
  | error cause =>
    rw [rest] at found
    cases found
  | ok read =>
    rw [rest] at found reads
    cases found
    exact reads.1

/-- A type is refused for want of a name or of a closing parenthesis. -/
theorem refusal_of_read {tokens : List Token} {cause : Malformed}
    (refused : read tokens = .error cause) :
    cause = ⟨.typeName, .unclosedTypeList⟩ ∨ ∃ found, cause = ⟨.typeName, .expectedType found⟩ := by
  have reads := readRest_reads tokens
  rw [read_eq] at refused
  cases rest : readRest tokens with
  | error cause =>
    rw [rest] at refused reads
    cases refused
    exact reads
  | ok read =>
    rw [rest] at refused
    cases refused

end Names

end BasicToSharp.TypeRef
