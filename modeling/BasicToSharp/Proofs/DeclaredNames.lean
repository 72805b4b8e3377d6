import BasicToSharp.Proofs.CommaSplitting
import BasicToSharp.Proofs.SignatureForm

/-!
# Declared names

A name of a declaration is written with bounds in parentheses, an `As` clause and an initial
value, each only if it is wanted. `DeclaredForm` holds these parts.

What is known of a declared name later on is what a search of its tokens finds. What stands
behind the first `As`, up to a `=`, is taken for its type, and a `=` anywhere for its initial
value. Such a search finds the clause of a name that has one and whose bounds hold no `As`, and
it takes no name with a clause or a value for a bare one. But it also finds an `As` in the bounds
or in the initial value, such as that of a lambda's parameter, and a `=` in the bounds.
-/

namespace BasicToSharp

open Token (Spelling Name Single quote insideAfter Lexed IsCode)

/-- The tokens of bounds in parentheses, if there are any. -/
def boundsTokens : Option (List Token) → List Token
  | none => []
  | some inner => "(" :: (inner ++ [")"])

/-- A declared name as it is written. Its bounds are balanced, its initial value is one item of a
list, and neither its name nor its type is written with a word that starts a clause. -/
structure DeclaredForm where
  name : Name
  notAs : Token.isKeyword name.val "as" = false := by decide
  bounds : Option (List Token) := none
  boundsBalanced : ∀ inner ∈ bounds, Token.Balanced inner := by decide
  type : Option AsClause := none
  typePlain : ∀ clause ∈ type, ∀ token ∈ clause.type.tokens,
    Token.isKeyword token "as" = false ∧ Token.isKeyword token "new" = false := by decide
  initial : Option (List Token) := none
  initialSingle : ∀ value ∈ initial, Single value := by decide

namespace DeclaredForm

/-- The tokens of a declared name. -/
def tokens (form : DeclaredForm) : List Token :=
  form.name.val ::
    (boundsTokens form.bounds ++ (asTokens form.type ++ valueTokens form.initial))

/-- True of a name with neither a type nor an initial value. -/
def isBare (form : DeclaredForm) : Bool := form.type.isNone && form.initial.isNone

/-- The tokens of the type that a name states in a clause of its own. -/
def ownType (form : DeclaredForm) : Option (List Token) := form.type.map (·.type.tokens)

end DeclaredForm

/-- The type that a name takes from the names behind it: a bare one takes that of the next name
that states one. -/
def sharedType (form : DeclaredForm) (later : List DeclaredForm) : Option (List Token) :=
  if form.isBare then later.findSome? DeclaredForm.ownType else none

/-- The tokens of an added `As` clause, if there is one. -/
def sharedTokens : Option (List Token) → List Token
  | none => []
  | some type => "As" :: type

/-- The tokens of the declarations that the names of one line become: each behind the keyword
and with the type that it takes. -/
def declarations (keyword : Token) : List DeclaredForm → List (List Token)
  | [] => []
  | form :: later =>
    (keyword :: (form.tokens ++ sharedTokens (sharedType form later))) ::
      declarations keyword later

/-! ## What a search of the whole piece finds -/

/-- The tokens behind the first `As` outside literals. -/
def behindAs (tokens : List Token) : Option (List Token) :=
  (Token.findKeyword tokens "as").map fun start => tokens.drop (start + 1)

/-- What is taken for a type behind an `As`. -/
def clauseBehind (tokens : List Token) : Option (List Token) :=
  let clause := (tokens.takeWhile (· != "=")).filter (!Token.isKeyword · "new")
  if clause.isEmpty then none else some clause

/-- What a search of all its tokens takes for the type of a piece. -/
def soughtType (tokens : List Token) : Option (List Token) := (behindAs tokens).bind clauseBehind

/-- True of tokens with an `As` outside literals. -/
def holdsAs (tokens : List Token) : Bool := (Token.findKeyword tokens "as").isSome

/-- True of tokens with a `=` outside literals. -/
def holdsEqual (tokens : List Token) : Bool := (Token.position tokens "=").isSome

/-- True of tokens that have neither a type nor an initial value, as far as a search of all of
them can tell. -/
def lacksType (tokens : List Token) : Bool := (soughtType tokens).isNone && !holdsEqual tokens

/-- The clause that is found in a segment is what is sought in its tokens. -/
theorem SourceLine.typeClause_eq (segment : String) :
    SourceLine.typeClause segment =
      (soughtType (Token.tokenize segment)).map (" ".intercalate ·) := by
  simp only [SourceLine.typeClause, soughtType, behindAs]
  cases Token.findKeyword (Token.tokenize segment) "as" with
  | none => rfl
  | some start =>
    simp only [Option.map_some, Option.bind_some, clauseBehind]
    split <;> rfl

/-- There is an `As` exactly if something can be sought behind it. -/
theorem holdsAs_eq (tokens : List Token) : holdsAs tokens = (behindAs tokens).isSome := by
  simp [holdsAs, behindAs]

section Search

variable {first second tokens : List Token} {token : Token}

/-- Behind tokens with no open literal, a search goes on as from the start of the others. -/
theorem Token.findUnquoted_append (closed : insideAfter false first = false)
    (second : List Token) (test : Token → Bool) :
    Token.findUnquoted (first ++ second) test = (Token.findUnquoted first test).or
      ((Token.findUnquoted second test).map (· + first.length)) := by
  have length : (Token.mark first).length = first.length := Token.length_markFrom false first
  rw [Token.findUnquoted, Token.mark_join closed, List.findIdx?_append, length]
  rfl

/-- The first `As` is in the first part, or else it is the first one of the second. -/
theorem behindAs_append (closed : insideAfter false first = false) (second : List Token) :
    behindAs (first ++ second) =
      ((behindAs first).map (· ++ second)).or (behindAs second) := by
  unfold behindAs Token.findKeyword
  rw [Token.findUnquoted_append closed]
  cases found : Token.findUnquoted first (Token.isKeyword · "as") with
  | none =>
    cases Token.findUnquoted second (Token.isKeyword · "as") with
    | none => rfl
    | some index =>
      have behind : index + first.length + 1 = first.length + (index + 1) := by omega
      simp [behind, List.drop_append]
  | some index =>
    obtain ⟨inside, -⟩ := Token.findUnquoted_some found
    simp [List.drop_append_of_le_length (Nat.succ_le_of_lt inside)]

/-- There is a `=` in a whole if there is one in either part. -/
theorem holdsEqual_append (closed : insideAfter false first = false) (second : List Token) :
    holdsEqual (first ++ second) = (holdsEqual first || holdsEqual second) := by
  unfold holdsEqual Token.position
  rw [Token.findUnquoted_append closed]
  cases Token.findUnquoted first (· == "=") <;>
    cases Token.findUnquoted second (· == "=") <;> rfl

/-- A search looks at the first token, then at the others. -/
theorem Token.findUnquoted_cons (plain : token ≠ quote) (rest : List Token)
    (test : Token → Bool) :
    Token.findUnquoted (token :: rest) test =
      if test token then some 0 else (Token.findUnquoted rest test).map (· + 1) := by
  rw [Token.findUnquoted, Token.mark_code plain, List.findIdx?_cons]
  rfl

/-- The first `As` is the first token or stands behind it. -/
theorem behindAs_cons (plain : token ≠ quote) (rest : List Token) :
    behindAs (token :: rest) =
      if Token.isKeyword token "as" then some rest else behindAs rest := by
  unfold behindAs Token.findKeyword
  rw [Token.findUnquoted_cons plain]
  split
  · rfl
  · simp [Function.comp_def]

/-- A `=` is the first token or stands behind it. -/
theorem holdsEqual_cons (plain : token ≠ quote) (rest : List Token) :
    holdsEqual (token :: rest) = (token == "=" || holdsEqual rest) := by
  unfold holdsEqual Token.position
  rw [Token.findUnquoted_cons plain]
  cases token == "=" <;> simp

/-- Where an `As` is found, it divides the tokens, and no literal is open before it. -/
theorem behindAs_split {behind : List Token} (found : behindAs tokens = some behind) :
    ∃ before word, tokens = before ++ word :: behind ∧ insideAfter false before = false ∧
      Token.isKeyword word "as" = true := by
  obtain ⟨index, isFirst, rfl⟩ := Option.map_eq_some_iff.mp found
  obtain ⟨within, outside, -, isAs⟩ := Token.findUnquoted_some isFirst
  refine ⟨tokens.take index, tokens[index], ?_, outside, ?_⟩
  · rw [List.getElem_cons_drop, List.take_append_drop]
  · simpa [tokenAt, within] using isAs

/-- Behind an `As` outside literals, a `=` is outside literals as it is in the whole. -/
theorem holdsEqual_behindAs {behind : List Token} (found : behindAs tokens = some behind)
    (none : holdsEqual tokens = false) : holdsEqual behind = false := by
  obtain ⟨before, word, rfl, closed, isAs⟩ := behindAs_split found
  have plain : word ≠ quote := by
    rintro rfl
    exact absurd isAs (by decide)
  rw [holdsEqual_append closed, holdsEqual_cons plain] at none
  simp only [Bool.or_eq_false_iff] at none
  exact none.2.2

/-- What is taken for a type behind an `As` is there if no `=` outside literals cuts it short.
A `=` in a literal leaves at least the quote before it. -/
theorem clauseBehind_isSome (none : holdsEqual tokens = false) (member : token ∈ tokens)
    (other : Token.isKeyword token "new" = false) : (clauseBehind tokens).isSome = true := by
  have filled : ∀ {word : Token}, word ∈ tokens.takeWhile (· != "=") →
      Token.isKeyword word "new" = false → (clauseBehind tokens).isSome = true := by
    intro word isTaken notNew
    have kept : word ∈ (tokens.takeWhile (· != "=")).filter (!Token.isKeyword · "new") :=
      List.mem_filter.mpr ⟨isTaken, by simp [notNew]⟩
    have nonempty := List.ne_nil_of_mem kept
    simp only [clauseBehind, List.isEmpty_iff, if_neg nonempty, Option.isSome_some]
  have split : tokens.takeWhile (· != "=") ++ tokens.dropWhile (· != "=") = tokens :=
    List.takeWhile_append_dropWhile
  cases rest : tokens.dropWhile (· != "=") with
  | nil =>
    rw [rest, List.append_nil] at split
    exact filled (by rw [split]; exact member) other
  | cons equal more =>
    by_cases quoted : quote ∈ tokens.takeWhile (· != "=")
    · exact filled quoted (by decide)
    · have isEqual : equal = "=" := by
        have stops := List.head_dropWhile_not (· != "=") (l := tokens) (by simp [rest])
        simpa [rest] using stops
      have closed : insideAfter false (tokens.takeWhile (· != "=")) = false :=
        Token.insideAfter_of_not_mem quoted
      rw [← split, rest, holdsEqual_append closed, isEqual,
        holdsEqual_cons (by decide : ("=" : Token) ≠ quote)] at none
      simp at none

/-- A search finds a type if no `=` outside literals cuts it short. -/
theorem soughtType_isSome {behind : List Token} (none : holdsEqual tokens = false)
    (found : behindAs tokens = some behind) (member : token ∈ behind)
    (other : Token.isKeyword token "new" = false) : (soughtType tokens).isSome = true := by
  rw [soughtType, found]
  exact clauseBehind_isSome (holdsEqual_behindAs found none) member other

end Search

/-! ## Tokens of a type -/

/-- True of the tokens that a type can have: words, points, parentheses and commas. -/
def IsTypeToken (token : Token) : Prop :=
  Token.Kind.word.fits token = true ∨ token ∈ [".", "(", ")", ","]

section TypeTokens

variable {token : Token}

/-- The tokens of a type are code. -/
theorem IsTypeToken.isCode (isType : IsTypeToken token) : IsCode token := by
  rcases isType with word | symbol
  · exact .of_word word
  · have symbols : ∀ symbol ∈ [".", "(", ")", ","],
        (symbol = "." → Token.Kind.operators.fits symbol = true) ∧
        (symbol ≠ "." → Token.Kind.grouping.fits symbol = true) ∧ symbol ≠ " " := by decide
    obtain ⟨point, other, notSpace⟩ := symbols token symbol
    by_cases isPoint : token = "."
    · exact ⟨.operators, by decide, point isPoint, notSpace⟩
    · exact ⟨.grouping, by decide, other isPoint, notSpace⟩

/-- No token of a type is a `=`. -/
theorem IsTypeToken.ne_equal (isType : IsTypeToken token) : token ≠ "=" := by
  rintro rfl
  rcases isType with word | symbol
  · exact absurd word (by decide)
  · exact absurd symbol (by decide)

/-- A keyword of letters is read as one word. -/
theorem Token.Spelling.fits {keyword : String} (word : Spelling keyword)
    (lettered : keyword.toList.all (·.toLower.isLower) = true) (filled : keyword ≠ "") :
    Token.Kind.word.fits word.val = true := by
  have same : word.val.toList.map Char.toLower = keyword.toList.map Char.toLower :=
    beq_iff_eq.mp word.property
  simp only [Token.Kind.fits, Bool.and_eq_true, Bool.not_eq_true', List.isEmpty_eq_false_iff,
    List.all_eq_true]
  refine ⟨fun empty => ?_, fun c member => ?_⟩
  · rw [empty, List.map_nil, eq_comm, List.map_eq_nil_iff, String.toList_eq_nil_iff] at same
    exact filled same
  · have lowered : c.toLower ∈ keyword.toList.map Char.toLower := by
      rw [← same]
      exact List.mem_map_of_mem member
    obtain ⟨letter, inKeyword, equal⟩ := List.mem_map.mp lowered
    have lower := List.all_eq_true.mp lettered letter inKeyword
    rw [equal] at lower
    exact Token.CharClass.of_eq_word.mp (Token.CharClass.of_letter lower).1

/-- The tokens of a path are tokens of a type. -/
theorem TypeTree.mem_pathTokens {path : List Name} (member : token ∈ pathTokens path) :
    IsTypeToken token := by
  induction path with
  | nil => exact absurd member List.not_mem_nil
  | cons name rest inductionHypothesis =>
    simp only [pathTokens, List.mem_cons] at member
    rcases member with rfl | rfl | later
    · exact .inr (by decide)
    · exact .inl (Token.fits_of_identifier name.property)
    · exact inductionHypothesis later

/-- The tokens of array ranks are tokens of a type. -/
theorem TypeTree.mem_rankTokens {ranks : Nat} (member : token ∈ rankTokens ranks) :
    IsTypeToken token := by
  induction ranks with
  | zero => exact absurd member List.not_mem_nil
  | succ ranks inductionHypothesis =>
    simp only [rankTokens, List.mem_cons] at member
    rcases member with rfl | rfl | later
    · exact .inr (by decide)
    · exact .inr (by decide)
    · exact inductionHypothesis later

end TypeTokens

mutual

/-- All tokens of a type are of the kind that a type can have. -/
theorem TypeTree.mem_tokens (tree : TypeTree) : ∀ token ∈ tree.tokens, IsTypeToken token := by
  intro token member
  cases tree with
  | plain head path ranks =>
    simp only [TypeTree.tokens, List.mem_cons, List.mem_append] at member
    rcases member with rfl | further | marker
    · exact .inl (Token.fits_of_identifier head.property)
    · exact TypeTree.mem_pathTokens further
    · exact TypeTree.mem_rankTokens marker
  | applied head path word arguments ranks =>
    simp only [TypeTree.tokens, List.mem_cons, List.mem_append] at member
    rcases member with rfl | further | rfl | rfl | argument | rfl | marker
    · exact .inl (Token.fits_of_identifier head.property)
    · exact TypeTree.mem_pathTokens further
    · exact .inr (by decide)
    · exact .inl (word.fits (by decide) (by decide))
    · exact arguments.mem_tokens token argument
    · exact .inr (by decide)
    · exact TypeTree.mem_rankTokens marker

/-- All tokens of type arguments are of the kind that a type can have. -/
theorem TypeTrees.mem_tokens (trees : TypeTrees) :
    ∀ token ∈ trees.tokens, IsTypeToken token := by
  intro token member
  cases trees with
  | last argument => exact argument.mem_tokens token member
  | more argument others =>
    simp only [TypeTrees.tokens, List.mem_append, List.mem_cons] at member
    rcases member with first | rfl | later
    · exact argument.mem_tokens token first
    · exact .inr (by decide)
    · exact others.mem_tokens token later

end

/-- A type has at least one token. -/
theorem TypeTree.tokens_ne_nil (tree : TypeTree) : tree.tokens ≠ [] := by
  cases tree <;> simp [TypeTree.tokens]

/-- A type that stands behind an `As` is what is taken for one. -/
theorem clauseBehind_type {tree : TypeTree}
    (notNew : ∀ token ∈ tree.tokens, Token.isKeyword token "new" = false)
    (value : Option (List Token)) :
    clauseBehind (tree.tokens ++ valueTokens value) = some tree.tokens := by
  have taken : (tree.tokens ++ valueTokens value).takeWhile (· != "=") = tree.tokens := by
    rw [List.takeWhile_append_of_pos fun token member =>
      bne_iff_ne.mpr (tree.mem_tokens token member).ne_equal]
    cases value <;> simp [valueTokens]
  have kept : tree.tokens.filter (!Token.isKeyword · "new") = tree.tokens :=
    List.filter_eq_self.mpr fun token member => by rw [notNew token member]; rfl
  simp [clauseBehind, taken, kept, tree.tokens_ne_nil]

/-- Behind the `As` of a clause stands its type. -/
theorem behindAs_clause (clause : AsClause) (more : List Token) :
    behindAs (asTokens (some clause) ++ more) = some (clause.type.tokens ++ more) := by
  have inert := Token.inert_of_test (Token.isKeyword · "as") clause.word.property (by decide)
  rw [asTokens, List.cons_append, behindAs_cons (Token.ne_quote_of_inert inert.1),
    if_pos clause.word.property]

/-- An `As` in an initial value is found behind its `=`. -/
theorem behindAs_valueTokens (value : Option (List Token)) :
    behindAs (valueTokens value) = value.bind behindAs := by
  cases value with
  | none => rfl
  | some value => rw [valueTokens, behindAs_cons (by decide), if_neg (by decide), Option.bind_some]

/-- Nothing is found in a part without `As`. -/
theorem bind_behindAs {part : Option (List Token)} (none : part.any holdsAs = false) :
    part.bind behindAs = Option.none := by
  cases part with
  | none => rfl
  | some tokens =>
    rw [Option.any_some, holdsAs_eq] at none
    simpa using none

/-! ## What is found in a declared name -/

namespace DeclaredForm

/-- The tokens before the clause of a declared name. -/
def front (form : DeclaredForm) : List Token := form.name.val :: boundsTokens form.bounds

/-- True of a name whose bounds hold an `As` or a `=` outside literals. -/
def hasStray (form : DeclaredForm) : Bool :=
  form.bounds.any fun inner => holdsAs inner || holdsEqual inner

/-- True of a name in which a search does not go astray: its bounds hold no `As`, its initial
value holds none unless the name has a type, and the bounds of a bare name hold no `=`. -/
def isClear (form : DeclaredForm) : Bool :=
  !form.bounds.any holdsAs && (form.type.isSome || !form.initial.any holdsAs) &&
    !(form.isBare && form.hasStray)

variable (form : DeclaredForm)

/-- The tokens of a declared name: its front, its clause and its value. -/
theorem tokens_eq : form.tokens =
    form.front ++ (asTokens form.type ++ valueTokens form.initial) := rfl

/-- A declared name is no quote. -/
theorem name_plain : form.name.val ≠ quote :=
  Token.ne_quote_of_inert (Token.inert_of_identifier form.name.property).1

/-- A declared name is no `=`. -/
theorem name_ne_equal : form.name.val ≠ "=" := by
  intro isEqual
  have named := form.name.property
  rw [isEqual] at named
  exact absurd named (by decide)

/-- The front of a declared name is a single part. -/
theorem front_single : Single form.front := by
  obtain ⟨inert, other⟩ := Token.inert_of_identifier form.name.property
  refine Single.cons inert other ?_
  cases bounds : form.bounds with
  | none => exact .nil
  | some inner => exact .parenthesize (form.boundsBalanced inner bounds) .nil

/-- A declared name is one item of a list. -/
theorem tokens_single : Single form.tokens :=
  form.front_single.append ((asTokens_single form.type).append
    (valueTokens_single form.initialSingle))

/-- An `As` in the front is one in the bounds. -/
theorem behindAs_front :
    behindAs form.front = (form.bounds.bind behindAs).map (· ++ [")"]) := by
  rw [front, behindAs_cons form.name_plain, form.notAs, if_neg Bool.false_ne_true]
  cases bounds : form.bounds with
  | none => rfl
  | some inner =>
    have closed := (form.boundsBalanced inner bounds).literals
    rw [boundsTokens, behindAs_cons (by decide), if_neg (by decide), behindAs_append closed]
    exact Option.or_none

/-- A `=` in the front is one in the bounds. -/
theorem holdsEqual_front : holdsEqual form.front = form.bounds.any holdsEqual := by
  rw [front, holdsEqual_cons form.name_plain, beq_eq_false_iff_ne.mpr form.name_ne_equal,
    Bool.false_or]
  cases bounds : form.bounds with
  | none => rfl
  | some inner =>
    have closed := (form.boundsBalanced inner bounds).literals
    rw [boundsTokens, holdsEqual_cons (by decide), holdsEqual_append closed]
    exact Bool.or_false _

/-- A bare name is seen to be one, unless its bounds hold something astray. -/
theorem lacksType_bare (bare : form.isBare = true) : lacksType form.tokens = !form.hasStray := by
  obtain ⟨noType, noInitial⟩ : form.type = none ∧ form.initial = none := by
    simpa [isBare] using bare
  have whole : form.tokens = form.front := by
    simp [tokens_eq, noType, noInitial, asTokens, valueTokens]
  have equalFront := form.holdsEqual_front
  have asFront := form.behindAs_front
  rw [whole, lacksType, hasStray]
  cases bounds : form.bounds with
  | none => simp_all [soughtType]
  | some inner =>
    rw [bounds] at equalFront asFront
    cases equal : holdsEqual inner with
    | true => simp [equalFront, equal]
    | false =>
      have plain : holdsEqual form.front = false := equalFront.trans equal
      cases found : behindAs inner with
      | none => simp_all [soughtType, holdsAs_eq]
      | some behind =>
        have foundFront : behindAs form.front = some (behind ++ [")"]) := by
          simpa [found] using asFront
        -- The closing parenthesis is behind the `As`, so that something is taken for a type.
        have taken := soughtType_isSome plain foundFront
          (List.mem_append_right behind List.mem_cons_self) (by decide)
        simp [← Option.not_isSome, taken, equal, holdsAs_eq, found]

/-- A name with an initial value has a `=`. -/
theorem holdsEqual_of_initial {value : List Token} (given : form.initial = some value) :
    holdsEqual form.tokens = true := by
  rw [tokens_eq, given, holdsEqual_append form.front_single.literals,
    holdsEqual_append (asTokens_single form.type).literals, valueTokens,
    holdsEqual_cons (by decide)]
  simp

/-- A search finds an `As` in a name with a clause, and something behind it. -/
theorem behindAs_of_type {clause : AsClause} (stated : form.type = some clause) :
    ∃ behind, behindAs form.tokens = some behind ∧
      ∃ token ∈ behind, Token.isKeyword token "new" = false := by
  have notNew : Token.isKeyword clause.word.val "new" = false :=
    clause.word.isKeyword_other (by decide)
  rw [tokens_eq, stated, behindAs_append form.front_single.literals, behindAs_clause]
  cases behindAs form.front with
  | some behind =>
    refine ⟨_, rfl, clause.word.val, ?_, notNew⟩
    simp [asTokens]
  | none =>
    obtain ⟨token, member⟩ : ∃ token, token ∈ clause.type.tokens :=
      List.exists_mem_of_ne_nil _ clause.type.tokens_ne_nil
    exact ⟨_, rfl, token, List.mem_append_left _ member,
      (form.typePlain clause stated token member).2⟩

/-- A name with a type or an initial value is not taken for a bare one. -/
theorem lacksType_other (other : form.isBare = false) : lacksType form.tokens = false := by
  cases equal : holdsEqual form.tokens with
  | true => simp [lacksType, equal]
  | false =>
    have noInitial : form.initial = none := by
      rw [Option.eq_none_iff_forall_ne_some]
      intro value given
      rw [form.holdsEqual_of_initial given] at equal
      cases equal
    obtain ⟨clause, stated⟩ : ∃ clause, form.type = some clause := by
      rw [← Option.isSome_iff_exists]
      simpa [isBare, noInitial] using other
    obtain ⟨behind, found, token, member, notNew⟩ := form.behindAs_of_type stated
    have taken := soughtType_isSome equal found member notNew
    simp [lacksType, ← Option.not_isSome, taken]

/-- A name looks untyped exactly if it is bare and its bounds hold nothing stray. -/
theorem lacksType_eq : lacksType form.tokens = (form.isBare && !form.hasStray) := by
  cases bare : form.isBare with
  | true => exact form.lacksType_bare bare
  | false => exact form.lacksType_other bare

/-- In a clear name a search finds the type that it states. -/
theorem soughtType_clear (clear : form.isClear = true) :
    soughtType form.tokens = form.ownType := by
  simp only [isClear, Bool.and_eq_true, Bool.not_eq_true', Bool.or_eq_true] at clear
  obtain ⟨⟨noAs, noInitialAs⟩, -⟩ := clear
  have asFront : behindAs form.front = none := by
    rw [form.behindAs_front, bind_behindAs noAs, Option.map_none]
  rw [soughtType, tokens_eq, behindAs_append form.front_single.literals, asFront, Option.map_none,
    Option.none_or]
  cases stated : form.type with
  | none =>
    have noAs : form.initial.any holdsAs = false := by simpa [stated] using noInitialAs
    rw [asTokens, List.nil_append, behindAs_valueTokens, bind_behindAs noAs, ownType, stated]
    rfl
  | some clause =>
    rw [behindAs_clause, ownType, stated]
    exact clauseBehind_type (fun token member => (form.typePlain clause stated token member).2) _

end DeclaredForm

end BasicToSharp
