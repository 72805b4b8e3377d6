import BasicToSharp.Proofs.TypeReading

/-!
# The grammar of types

A written type is a name, which may be qualified, then type arguments in `(Of …)` or none,
then any number of array markers. `TypeTree` is this grammar: a tree is a derivation, with the
names and the spelling of each `Of` it uses, and it has its tokens and its C# text. Neither
is taken from the reader.

Reading takes the longest type there is. So the tokens of a tree are read back when what
follows cannot be taken for more of it: a further array marker, or, directly behind a name, a
further part of the name or type arguments. What is read is always such a tree.
-/

namespace BasicToSharp

/-- A keyword as it may be written: in any case of basic Latin letters. -/
abbrev Token.Spelling (keyword : String) :=
  { token : Token // Token.isKeyword token keyword = true }

/-- A token that can name something. -/
abbrev Token.Name := { token : Token // Token.isIdentifier token = true }

open Token (Spelling Name)

mutual

/-- A written type. -/
inductive TypeTree
  /-- A name with array markers. -/
  | plain (head : Name) (path : List Name) (ranks : Nat)
  /-- A name with type arguments and array markers. -/
  | applied (head : Name) (path : List Name) (word : Spelling "of") (arguments : TypeTrees)
      (ranks : Nat)

/-- One or more written types, with commas between them. -/
inductive TypeTrees
  | last (argument : TypeTree)
  | more (argument : TypeTree) (others : TypeTrees)

end

namespace TypeTree

/-- The tokens of the further names of a qualified name. -/
def pathTokens : List Name → List Token
  | [] => []
  | name :: rest => "." :: name.val :: pathTokens rest

/-- The tokens of array markers. -/
def rankTokens : Nat → List Token
  | 0 => []
  | count + 1 => "(" :: ")" :: rankTokens count

/-- The C# text of a name: an unqualified name goes through the type table, a qualified one
stays as it is written. -/
def nameText (head : Name) (path : List Name) : String :=
  if path.isEmpty then (Vocabulary.dataType? head.val).getD head.val
  else String.join (head.val :: pathTokens path)

/-- The C# text of array markers. -/
def rankText : Nat → String
  | 0 => ""
  | count + 1 => "[]" ++ rankText count

end TypeTree

mutual

/-- The tokens of a written type. -/
def TypeTree.tokens : TypeTree → List Token
  | .plain head path ranks => head.val :: (TypeTree.pathTokens path ++ TypeTree.rankTokens ranks)
  | .applied head path word arguments ranks =>
    head.val :: (TypeTree.pathTokens path ++
      "(" :: word.val :: (arguments.tokens ++ ")" :: TypeTree.rankTokens ranks))

/-- The tokens of type arguments. -/
def TypeTrees.tokens : TypeTrees → List Token
  | .last argument => argument.tokens
  | .more argument others => argument.tokens ++ "," :: others.tokens

end

mutual

/-- The C# text of a written type. -/
def TypeTree.text : TypeTree → String
  | .plain head path ranks => TypeTree.nameText head path ++ TypeTree.rankText ranks
  | .applied head path _ arguments ranks =>
    TypeTree.nameText head path ++ "<" ++ arguments.text ++ ">" ++ TypeTree.rankText ranks

/-- The C# text of type arguments. -/
def TypeTrees.text : TypeTrees → String
  | .last argument => argument.text
  | .more argument others => argument.text ++ ", " ++ others.text

end

mutual

/-- The type that is written. -/
def TypeTree.reference : TypeTree → TypeRef
  | .plain head path ranks => .named head.val path.unattach [] ranks
  | .applied head path _ arguments ranks =>
    .named head.val path.unattach arguments.references ranks

/-- The types that are written. -/
def TypeTrees.references : TypeTrees → List TypeRef
  | .last argument => [argument.reference]
  | .more argument others => argument.reference :: others.references

end

namespace TypeTree

/-- True of a type that ends with its name. -/
def endsInName : TypeTree → Bool
  | .plain _ _ 0 => true
  | _ => false

/-- True of tokens that would be taken for more of a name: a point and a further name, or the
start of type arguments. -/
def ExtendsName (rest : List Token) : Prop :=
  (∃ name more, Token.isIdentifier name = true ∧ rest = "." :: name :: more) ∨
    ∃ word more, Token.isKeyword word "of" = true ∧ rest = "(" :: word :: more

/-- True of tokens that would be taken for more of a type that stands before them. -/
def ExtendedBy (tree : TypeTree) (rest : List Token) : Prop :=
  (∃ more, rest = "(" :: ")" :: more) ∨ tree.endsInName = true ∧ ExtendsName rest

/-! ## The text of a tree -/

/-- A path with points between its names is its tokens joined. -/
theorem intercalate_path (head : Name) (path : List Name) :
    ".".intercalate (head.val :: path.unattach) = String.join (head.val :: pathTokens path) := by
  induction path generalizing head with
  | nil => simp [pathTokens]
  | cons name rest inductionHypothesis =>
    rw [List.unattach_cons, String.intercalate_cons_cons, inductionHypothesis]
    simp [pathTokens, String.append_assoc]

/-- The name of a type is written as the grammar says. -/
theorem nameText_eq (head : Name) (path : List Name) :
    TypeRef.nameText head.val path.unattach = nameText head path := by
  cases path with
  | nil => rfl
  | cons name rest => exact intercalate_path head (name :: rest)

/-- Array ranks are written as the grammar says. -/
theorem rankText_eq (ranks : Nat) : TypeRef.rankText ranks = rankText ranks := by
  induction ranks with
  | zero => rfl
  | succ ranks inductionHypothesis =>
    rw [rankText, ← inductionHypothesis]
    simp [TypeRef.rankText, List.replicate_succ]

end TypeTree

mutual

/-- A type is written as the grammar says. -/
theorem TypeTree.render_reference (tree : TypeTree) : tree.reference.render = tree.text := by
  cases tree with
  | plain head path ranks =>
    simp [TypeTree.reference, TypeTree.text, TypeRef.render, TypeTree.nameText_eq,
      TypeTree.rankText_eq]
  | applied head path word arguments ranks =>
    have written := arguments.intercalate_renderAll
    have filled : arguments.references ≠ [] := by
      cases arguments <;> simp [TypeTrees.references]
    simp [TypeTree.reference, TypeTree.text, TypeRef.render, TypeTree.nameText_eq,
      TypeTree.rankText_eq, written, filled, String.append_assoc]

/-- Type arguments are written as the grammar says. -/
theorem TypeTrees.intercalate_renderAll (trees : TypeTrees) :
    ", ".intercalate (TypeRef.renderAll trees.references) = trees.text := by
  cases trees with
  | last argument =>
    simp [TypeTrees.references, TypeTrees.text, TypeRef.renderAll, argument.render_reference]
  | more argument others =>
    have rest := others.intercalate_renderAll
    cases others <;>
      simp_all [TypeTrees.references, TypeTrees.text, TypeRef.renderAll,
        argument.render_reference]

end

/-! ## What is written is read -/

namespace TypeTree

open TypeRef (takePath takeRanks behindOf readRest argumentsRest)

/-- A path is taken whole, if no further name follows. -/
theorem takePath_pathTokens (path : List Name) {rest : List Token}
    (apart : ∀ name more, Token.isIdentifier name = true → rest ≠ "." :: name :: more) :
    takePath (pathTokens path ++ rest) = (path.unattach, rest) := by
  induction path with
  | nil =>
    change takePath rest = ([], rest)
    unfold takePath
    split
    · next name more =>
      split
      · next named => exact absurd rfl (apart name more named)
      · rfl
    · rfl
  | cons name later inductionHypothesis =>
    simp [pathTokens, takePath, name.property, inductionHypothesis]

/-- Array ranks are taken whole, if no further one follows. -/
theorem takeRanks_rankTokens (ranks : Nat) {rest : List Token}
    (apart : ∀ more, rest ≠ "(" :: ")" :: more) :
    takeRanks (rankTokens ranks ++ rest) = (ranks, rest) := by
  induction ranks with
  | zero =>
    change takeRanks rest = (0, rest)
    unfold takeRanks
    split
    · next more => exact absurd rfl (apart more)
    · rfl
  | succ ranks inductionHypothesis => simp [rankTokens, takeRanks, inductionHypothesis]

/-- There are no type arguments where no `Of` is opened. -/
theorem behindOf_eq_none {rest : List Token}
    (apart : ∀ word more, Token.isKeyword word "of" = true → rest ≠ "(" :: word :: more) :
    behindOf rest = none := by
  unfold behindOf
  split
  · next word inner =>
    split
    · next isOf => exact absurd rfl (apart word inner isOf)
    · rfl
  · rfl

/-- Array markers end a name, and so do the tokens behind it unless they extend it. -/
theorem rankTokens_apart (ranks : Nat) {rest : List Token}
    (apart : ranks = 0 → ¬ ExtendsName rest) : ¬ ExtendsName (rankTokens ranks ++ rest) := by
  cases ranks with
  | zero => exact apart rfl
  | succ ranks =>
    rintro (⟨name, more, -, starts⟩ | ⟨word, more, isOf, starts⟩)
    · simp [rankTokens] at starts
    · obtain rfl : ")" = word := by
        simp only [rankTokens, List.cons_append, List.cons.injEq, true_and] at starts
        exact starts.1
      exact absurd isOf (by decide)

/-- A type is read up to its end if its arguments are. -/
theorem readRest_applied (head : Name) (path : List Name) (word : Spelling "of")
    {arguments : TypeTrees} (ranks : Nat) {rest : List Token}
    (apart : ∀ more, rest ≠ "(" :: ")" :: more)
    (inside : ∀ after, argumentsRest (arguments.tokens ++ ")" :: after) =
      .ok (arguments.references, after)) :
    readRest ((applied head path word arguments ranks).tokens ++ rest) =
      .ok ((applied head path word arguments ranks).reference, rest) := by
  have named : takePath (pathTokens path ++
      "(" :: word.val :: (arguments.tokens ++ ")" :: (rankTokens ranks ++ rest))) =
      (path.unattach, "(" :: word.val :: (arguments.tokens ++ ")" :: (rankTokens ranks ++ rest))) :=
    takePath_pathTokens path (by simp)
  simp [tokens, TypeRef.readRest_cons, head.property, named, behindOf, word.property, inside,
    takeRanks_rankTokens ranks apart, reference, Except.map]

/-- A type without arguments is read from its tokens. -/
theorem readRest_plain (head : Name) (path : List Name) (ranks : Nat) {rest : List Token}
    (apart : ¬ (plain head path ranks).ExtendedBy rest) :
    readRest ((plain head path ranks).tokens ++ rest) =
      .ok ((plain head path ranks).reference, rest) := by
  have noMarker : ∀ more, rest ≠ "(" :: ")" :: more := fun more same => apart (.inl ⟨more, same⟩)
  have noName : ¬ ExtendsName (rankTokens ranks ++ rest) := by
    refine rankTokens_apart ranks fun bare extended => apart (.inr ⟨?_, extended⟩)
    rw [bare]
    rfl
  have named : takePath (pathTokens path ++ (rankTokens ranks ++ rest)) =
      (path.unattach, rankTokens ranks ++ rest) :=
    takePath_pathTokens path fun name more isName same => noName (.inl ⟨name, more, isName, same⟩)
  have unopened : behindOf (rankTokens ranks ++ rest) = none :=
    behindOf_eq_none fun word more isOf same => noName (.inr ⟨word, more, isOf, same⟩)
  simp [tokens, TypeRef.readRest_cons, head.property, named, unopened,
    takeRanks_rankTokens ranks noMarker, reference]

/-- A type inside a list is followed by a comma or by the end of the list. -/
theorem not_extendedBy_separator (tree : TypeTree) {separator : Token}
    (isSeparator : separator = "," ∨ separator = ")") (rest : List Token) :
    ¬ tree.ExtendedBy (separator :: rest) := by
  rcases isSeparator with rfl | rfl <;> simp [ExtendedBy, ExtendsName]

end TypeTree

mutual

/-- A type is read from its tokens, if nothing behind extends it. -/
theorem TypeTree.readRest_tokens (tree : TypeTree) {rest : List Token}
    (apart : ¬ tree.ExtendedBy rest) :
    TypeRef.readRest (tree.tokens ++ rest) = .ok (tree.reference, rest) := by
  cases tree with
  | plain head path ranks => exact TypeTree.readRest_plain head path ranks apart
  | applied head path word arguments ranks =>
    exact TypeTree.readRest_applied head path word ranks
      (fun more same => apart (.inl ⟨more, same⟩)) arguments.argumentsRest_tokens

/-- Type arguments are read from their tokens, up to the closing parenthesis. -/
theorem TypeTrees.argumentsRest_tokens (trees : TypeTrees) (rest : List Token) :
    TypeRef.argumentsRest (trees.tokens ++ ")" :: rest) = .ok (trees.references, rest) := by
  rw [TypeRef.argumentsRest_eq]
  cases trees with
  | last argument =>
    have first := argument.readRest_tokens (argument.not_extendedBy_separator (.inr rfl) rest)
    simp only [TypeTrees.tokens, first, TypeTrees.references]
  | more argument others =>
    have first := argument.readRest_tokens
      (argument.not_extendedBy_separator (.inl rfl) (others.tokens ++ ")" :: rest))
    have later := others.argumentsRest_tokens rest
    simp only [TypeTrees.tokens, List.append_assoc, List.cons_append, first, later, Except.map,
      TypeTrees.references]

end

/-! ## What is read is written -/

namespace TypeTree

open TypeRef (takePath takeRanks behindOf readRest argumentsRest)

/-- What is taken as a path is one, and no further name follows. -/
theorem takePath_eq (tokens : List Token) :
    ∃ names : List Name, tokens = pathTokens names ++ (takePath tokens).2 ∧
      (takePath tokens).1 = names.unattach ∧
      ∀ name more, Token.isIdentifier name = true → (takePath tokens).2 ≠ "." :: name :: more := by
  fun_induction takePath tokens with
  | case1 name rest named path after taken inductionHypothesis =>
    obtain ⟨names, whole, same, stops⟩ := inductionHypothesis
    simp only [taken] at whole same stops
    exact ⟨⟨name, named⟩ :: names, by simp [pathTokens, ← whole], by simp [same], stops⟩
  | case2 name rest unnamed =>
    refine ⟨[], rfl, rfl, fun other more named same => unnamed ?_⟩
    obtain rfl : name = other := by simpa using congrArg (·.tail.head?) same
    exact named
  | case3 rest noPath =>
    exact ⟨[], rfl, rfl, fun name more _ same => noPath name more same⟩

/-- What is taken as array ranks are some, and no further one follows. -/
theorem takeRanks_eq (tokens : List Token) :
    tokens = rankTokens (takeRanks tokens).1 ++ (takeRanks tokens).2 ∧
      ∀ more, (takeRanks tokens).2 ≠ "(" :: ")" :: more := by
  fun_induction takeRanks tokens with
  | case1 rest ranks after taken inductionHypothesis =>
    rw [taken] at inductionHypothesis
    exact ⟨by simp [rankTokens, ← inductionHypothesis.1], inductionHypothesis.2⟩
  | case2 rest noRank => exact ⟨rfl, fun more same => noRank more same⟩

/-- What is read as a type comes from a tree, if what is read as type arguments does. -/
theorem exists_of_readRest_step {tokens rest : List Token} {reference : TypeRef}
    (arguments : ∀ inner references after, inner.length < tokens.length →
      argumentsRest inner = .ok (references, after) →
        ∃ trees : TypeTrees, inner = trees.tokens ++ ")" :: after ∧ trees.references = references)
    (found : readRest tokens = .ok (reference, rest)) :
    ∃ tree : TypeTree, tokens = tree.tokens ++ rest ∧ tree.reference = reference ∧
      ¬ tree.ExtendedBy rest := by
  cases tokens with
  | nil =>
    rw [TypeRef.readRest_nil] at found
    cases found
  | cons head behind =>
    obtain ⟨path, wholePath, samePath, pathEnds⟩ := takePath_eq behind
    rw [TypeRef.readRest_cons] at found
    split at found
    · next named =>
      split at found
      · next inner opened =>
        obtain ⟨word, isOpening, isOf⟩ := TypeRef.exists_of_behindOf opened
        have shorter : inner.length < (head :: behind).length := by
          have := TypeRef.behindOf_length opened
          have := TypeRef.takePath_length behind
          simp only [List.length_cons]
          omega
        cases inside : argumentsRest inner with
        | error cause =>
          rw [inside] at found
          cases found
        | ok read =>
          obtain ⟨references, after⟩ := read
          rw [inside] at found
          cases found
          obtain ⟨trees, wholeInner, sameTrees⟩ := arguments inner references after shorter inside
          obtain ⟨wholeRanks, ranksEnd⟩ := takeRanks_eq after
          refine ⟨.applied ⟨head, named⟩ path ⟨word, isOf⟩ trees (takeRanks after).1, ?_, ?_, ?_⟩
          · rw [wholePath, isOpening, wholeInner, wholeRanks]
            simp [TypeTree.tokens, ← wholeRanks]
          · simp [TypeTree.reference, samePath, sameTrees]
          · rintro (⟨more, marker⟩ | ⟨bare, -⟩)
            · exact ranksEnd more marker
            · cases bare
      · next unopened =>
        cases found
        obtain ⟨wholeRanks, ranksEnd⟩ := takeRanks_eq (takePath behind).2
        refine ⟨.plain ⟨head, named⟩ path (takeRanks (takePath behind).2).1, ?_, ?_, ?_⟩
        · simp [TypeTree.tokens, ← wholeRanks, ← wholePath]
        · simp [TypeTree.reference, samePath]
        · rintro (⟨more, marker⟩ | ⟨bare, extended⟩)
          · exact ranksEnd more marker
          -- Without markers the tokens behind the type are those behind its name.
          · have noMarker : (takeRanks (takePath behind).2).1 = 0 := by
              cases ranks : (takeRanks (takePath behind).2).1 with
              | zero => rfl
              | succ count =>
                rw [ranks] at bare
                cases bare
            have same : (takeRanks (takePath behind).2).2 = (takePath behind).2 := by
              rw [noMarker] at wholeRanks
              exact wholeRanks.symm
            rw [same] at extended
            rcases extended with ⟨name, more, isName, starts⟩ | ⟨word, more, isOf, starts⟩
            · exact pathEnds name more isName starts
            · rw [starts] at unopened
              simp [behindOf, isOf] at unopened
    · cases found

end TypeTree

/-- What is read as type arguments comes from trees. -/
theorem TypeTrees.exists_of_argumentsRest {tokens rest : List Token} {references : List TypeRef}
    (found : TypeRef.argumentsRest tokens = .ok (references, rest)) :
    ∃ trees : TypeTrees, tokens = trees.tokens ++ ")" :: rest ∧ trees.references = references := by
  generalize size : tokens.length = length
  induction length using Nat.strongRecOn generalizing tokens rest references with
  | _ length inductionHypothesis =>
    subst size
    rw [TypeRef.argumentsRest_eq] at found
    cases first : TypeRef.readRest tokens with
    | error cause =>
      rw [first] at found
      cases found
    | ok read =>
      obtain ⟨reference, behind⟩ := read
      obtain ⟨tree, whole, same, -⟩ := TypeTree.exists_of_readRest_step
        (fun inner references after shorter inside =>
          inductionHypothesis inner.length shorter inside rfl) first
      rw [first] at found
      match behind with
      | [] => cases found
      | token :: further =>
        by_cases comma : token = ","
        · subst comma
          have shorter : further.length < tokens.length := by
            rw [whole, List.length_append, List.length_cons]
            omega
          simp only at found
          cases later : TypeRef.argumentsRest further with
          | error cause =>
            rw [later] at found
            cases found
          | ok read =>
            obtain ⟨others, after⟩ := read
            rw [later] at found
            cases found
            obtain ⟨trees, wholeFurther, sameOthers⟩ :=
              inductionHypothesis further.length shorter later rfl
            refine ⟨.more tree trees, ?_, ?_⟩
            · simp [whole, wholeFurther, TypeTrees.tokens]
            · simp [TypeTrees.references, same, sameOthers]
        · by_cases close : token = ")"
          · subst close
            cases found
            exact ⟨.last tree, whole, by simp [TypeTrees.references, same]⟩
          · simp [comma, close, TypeRef.refuse] at found

/-- What is read as a type is one, and nothing behind extends it. -/
theorem TypeTree.exists_of_readRest {tokens rest : List Token} {reference : TypeRef}
    (found : TypeRef.readRest tokens = .ok (reference, rest)) :
    ∃ tree : TypeTree, tokens = tree.tokens ++ rest ∧ tree.reference = reference ∧
      ¬ tree.ExtendedBy rest :=
  TypeTree.exists_of_readRest_step
    (fun _ _ _ _ inside => TypeTrees.exists_of_argumentsRest inside) found

/-! ## Both directions -/

/-- A type is read as it is stated, and its length is known. -/
theorem TypeTree.read_tokens (tree : TypeTree) {rest : List Token}
    (apart : ¬ tree.ExtendedBy rest) :
    TypeRef.read (tree.tokens ++ rest) = .ok (tree.reference, tree.tokens.length) := by
  rw [TypeRef.read_eq, tree.readRest_tokens apart]
  simp [Except.map]

/-- What is read is a type of that length, which nothing behind extends. -/
theorem TypeTree.exists_of_read {tokens : List Token} {reference : TypeRef} {used : Nat}
    (found : TypeRef.read tokens = .ok (reference, used)) :
    ∃ (tree : TypeTree) (rest : List Token), tokens = tree.tokens ++ rest ∧
      used = tree.tokens.length ∧ tree.reference = reference ∧ ¬ tree.ExtendedBy rest := by
  rw [TypeRef.read_eq] at found
  cases whole : TypeRef.readRest tokens with
  | error cause =>
    rw [whole] at found
    cases found
  | ok read =>
    obtain ⟨reference, rest⟩ := read
    obtain ⟨tree, rfl, same, apart⟩ := TypeTree.exists_of_readRest whole
    rw [whole] at found
    cases found
    exact ⟨tree, rest, rfl, by simp, same, apart⟩

/-- The reader of types accepts exactly the grammar. The tokens of a tree are read back, with
its text and their number, whatever follows that does not extend the type; what is accepted
is such a tree, its text and the number of its tokens, and what follows does not extend it.
Reading always ends, and what is refused is refused for one of two causes. -/
theorem types_are_read_by_their_grammar :
    (∀ (tree : TypeTree) (rest : List Token), ¬ tree.ExtendedBy rest →
      TypeRef.readText (tree.tokens ++ rest) = .ok (tree.text, tree.tokens.length)) ∧
    (∀ (tokens : List Token) (text : String) (used : Nat),
      TypeRef.readText tokens = .ok (text, used) →
        used ≤ tokens.length ∧ ∃ tree : TypeTree, tokens.take used = tree.tokens ∧
          tree.text = text ∧ ¬ tree.ExtendedBy (tokens.drop used)) ∧
    ∀ tokens : List Token,
      (∃ text used, TypeRef.readText tokens = .ok (text, used)) ∨
        TypeRef.readText tokens = .error ⟨.typeName, .unclosedTypeList⟩ ∨
        ∃ found, TypeRef.readText tokens = .error ⟨.typeName, .expectedType found⟩ := by
  refine ⟨fun tree rest apart => ?_, fun tokens text used accepted => ?_, fun tokens => ?_⟩
  · rw [TypeRef.readText, tree.read_tokens apart]
    simp [Except.map, tree.render_reference]
  · cases found : TypeRef.read tokens with
    | error cause =>
      rw [TypeRef.readText, found] at accepted
      cases accepted
    | ok read =>
      obtain ⟨reference, count⟩ := read
      obtain ⟨tree, rest, rfl, rfl, rfl, apart⟩ := TypeTree.exists_of_read found
      rw [TypeRef.readText, found] at accepted
      cases accepted
      refine ⟨by simp, tree, by simp, tree.render_reference.symm, ?_⟩
      rwa [List.drop_left]
  · cases found : TypeRef.read tokens with
    | ok read => exact .inl ⟨_, _, by rw [TypeRef.readText, found]; rfl⟩
    | error cause =>
      have refused : TypeRef.readText tokens = .error cause := by
        rw [TypeRef.readText, found]
        rfl
      rcases TypeRef.refusal_of_read found with rfl | ⟨word, rfl⟩
      · exact .inr (.inl refused)
      · exact .inr (.inr ⟨word, refused⟩)

/-- A qualified name in the arguments of a table name, with markers on both and the two
spellings of `Of`, before tokens that are no part of the type. -/
def TypeTree.nested : TypeTree :=
  .applied ⟨"List", by decide⟩ [] ⟨"of", by decide⟩
    (.more (.plain ⟨"System", by decide⟩ [⟨"Text", by decide⟩] 1)
      (.last (.applied ⟨"Box", by decide⟩ [] ⟨"OF", by decide⟩
        (.last (.plain ⟨"Integer", by decide⟩ [] 0)) 0))) 2

/-- A generic type with arrays and a generic argument, before a member. -/
theorem nested_type_is_read :
    ¬ TypeTree.nested.ExtendedBy [".", "Length"] ∧
    TypeRef.readText (TypeTree.nested.tokens ++ [".", "Length"]) =
      .ok ("List<System.Text[], Box<int>>[][]", 19) := by
  have apart : ¬ TypeTree.nested.ExtendedBy [".", "Length"] := by
    simp [TypeTree.nested, TypeTree.ExtendedBy, TypeTree.endsInName]
  have text : TypeTree.nested.text = "List<System.Text[], Box<int>>[][]" := by decide +kernel
  have count : TypeTree.nested.tokens.length = 19 := by decide +kernel
  have read := types_are_read_by_their_grammar.1 TypeTree.nested [".", "Length"] apart
  rw [text, count] at read
  exact ⟨apart, read⟩

end BasicToSharp
