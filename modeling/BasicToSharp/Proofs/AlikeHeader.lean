import BasicToSharp.Proofs.AlikeReading

/-!
# Headers and declarations of lines that are alike

The readers of class, enum, function and property headers and of declarations are run on
two lines that are alike. Names, types, positions and modifiers are the same on both
sides. The default value of a parameter and the initial value of a variable may hold the
text of a literal, and only their presence is compared.

The keyword of such a header has nothing but plain words before it, so everything up to
the keyword is the same in both lines, token for token.
-/

namespace BasicToSharp

open Token (Alike AlikeFrom AlikeParts Outside)
open Reading (Agree AgreeLoosely agree_refuse agree_require)

namespace Token

/-- True of a position within the line up to which no quote has been met, the position
included. -/
structure Leads (tokens : List Token) (keyword : Nat) : Prop where
  plain : quote ∉ tokens.take (keyword + 1)
  within : keyword < tokens.length

variable {left right tokens : List Token} {keyword : Nat}

/-- What stands behind a keyword that plain words lead to is outside literals. -/
theorem Leads.behind (leads : Leads tokens keyword) : Outside tokens (keyword + 1) :=
  outside_of_not_mem leads.plain

/-- A keyword that plain words lead to is outside literals itself. -/
theorem Leads.at (leads : Leads tokens keyword) : Outside tokens keyword := by
  apply outside_of_not_mem
  intro before
  exact leads.plain (List.take_subset_take_left tokens (Nat.le_succ keyword) before)

/-- Up to the keyword both lines are the same. -/
theorem Leads.take_eq (leads : Leads left keyword) (alike : Alike left right) :
    left.take (keyword + 1) = right.take (keyword + 1) := by
  rcases AlikeFrom.eq_or_mem (AlikeFrom.take alike (keyword + 1)) rfl with same | ⟨quoted, -⟩
  · exact same
  · exact absurd quoted leads.plain

/-- The words before the keyword are the same on both sides. -/
theorem Leads.before_eq (leads : Leads left keyword) (alike : Alike left right) :
    left.take keyword = right.take keyword := by
  have same := congrArg (List.take keyword) (leads.take_eq alike)
  simpa [List.take_take] using same

/-- A position stays outside literals when a token that is no quote is put in front. -/
theorem outside_cons {token : Token} {rest : List Token} {index : Nat} (plain : token ≠ quote)
    (outside : Outside rest index) : Outside (token :: rest) (index + 1) := by
  unfold Outside at outside ⊢
  simpa [plain] using outside

end Token

namespace Statement

variable {left right tokens : List Token} {word : String} {index : Nat}

/-- A declaration keyword stands behind plain words none of which is the keyword itself.
This looks at the line only up to the keyword. -/
theorem declarationKeyword_eq_some_iff :
    declarationKeyword tokens word = some index ↔
      ∃ before, tokens.take (index + 1) = before ++ [word] ∧ before.length = index ∧
        word ∉ before ∧ before.all Token.isIdentifier = true := by
  unfold declarationKeyword
  constructor
  · intro found
    split at found
    · next position first =>
      obtain ⟨within, isWord, earlier⟩ := List.findIdx?_eq_some_iff_getElem.mp first
      split at found
      · next plain =>
        obtain rfl := Option.some.inj found
        refine ⟨tokens.take position, ?_, by simp; omega, ?_, plain⟩
        · rw [List.take_succ_eq_append_getElem within, eq_of_beq isWord]
        · intro member
          obtain ⟨other, order, same⟩ := List.mem_take_iff_getElem.mp member
          exact earlier other (by omega) (by simp [same])
      · cases found
    · cases found
  · rintro ⟨before, taken, rfl, fresh, plain⟩
    have whole : tokens = before ++ word :: tokens.drop (before.length + 1) := by
      conv => lhs; rw [← List.take_append_drop (before.length + 1) tokens, taken]
      simp
    have missing : before.findIdx? (· == word) = none := by
      rw [List.findIdx?_eq_none_iff]
      intro token member
      exact beq_false_of_ne fun same => fresh (same ▸ member)
    have first : tokens.findIdx? (· == word) = some before.length := by
      rw [whole, List.findIdx?_append, missing]
      simp [List.findIdx?_cons]
    rw [first]
    have start : tokens.take before.length = before := by
      rw [whole]
      simp
    simp [start, plain]

/-- A declaration keyword has only plain words before it. -/
theorem leads_of_declarationKeyword (differs : word ≠ Token.quote)
    (found : declarationKeyword tokens word = some index) : Token.Leads tokens index := by
  obtain ⟨before, taken, rfl, -, plain⟩ := declarationKeyword_eq_some_iff.mp found
  constructor
  · rw [taken, List.mem_append]
    rintro (quoted | quoted)
    · exact absurd (List.all_eq_true.mp plain _ quoted) (by decide)
    · exact differs (List.mem_singleton.mp quoted).symm
  · have length := congrArg List.length taken
    simp only [List.length_take, List.length_append, List.length_singleton] at length
    omega

/-- A declaration keyword is found at the same position of both lines. -/
theorem declarationKeyword_alike (alike : Alike left right) (differs : word ≠ Token.quote) :
    declarationKeyword left word = declarationKeyword right word := by
  have carry : ∀ {one other : List Token}, Alike one other → ∀ index,
      declarationKeyword one word = some index → declarationKeyword other word = some index := by
    intro one other alike index found
    have same := (leads_of_declarationKeyword differs found).take_eq alike
    rw [declarationKeyword_eq_some_iff] at found ⊢
    rwa [← same]
  apply Option.ext
  intro index
  exact ⟨carry alike index, carry alike.symm index⟩

end Statement

section Containers

variable {left right : List Token} {keyword : Nat}

/-- The tokens before a keyword are the same on both sides. -/
theorem sliceUpTo_keyword (alike : Alike left right) (leads : Token.Leads left keyword) :
    Reading.sliceUpTo left keyword = .ok (left.take keyword) ∧
      Reading.sliceUpTo right keyword = .ok (left.take keyword) := by
  have within' : keyword < right.length := AlikeFrom.length_eq alike ▸ leads.within
  unfold Reading.sliceUpTo
  rw [slice_ok (Nat.zero_le _) (Nat.le_of_lt leads.within),
    slice_ok (Nat.zero_le _) (Nat.le_of_lt within'), leads.before_eq alike]
  exact ⟨rfl, rfl⟩

/-- Container headers that are alike are of one name. -/
theorem ContainerHeader.read_agree (kind : ContainerKind) (alike : Alike left right)
    (leads : Token.Leads left keyword) :
    Agree (fun one other => one.name = other.name) (ContainerHeader.read kind left keyword)
      (ContainerHeader.read kind right keyword) := by
  obtain ⟨before, before'⟩ := sliceUpTo_keyword alike leads
  unfold ContainerHeader.read
  simp only [before, before', Reading.ok_bind]
  rw [← Alike.tokenAt_eq alike leads.behind]
  split
  · next named =>
    rw [← Alike.tokenAt_eq alike (outside_behind_name leads.behind named)]
    split
    · exact typeBehind_agree alike leads.behind leads.within fun _ _ _ _ => rfl
    · exact rfl
  · exact agree_refuse _ _ _

/-- Base types are the same, part for part. -/
theorem readBases_agree {parts parts' : List (List Token)} (alike : AlikeParts parts parts') :
    Agree (fun one other => one = other) (readBases parts) (readBases parts') := by
  induction alike with
  | nil => exact rfl
  | @cons left right _ _ alike _ inductionHypothesis =>
    unfold readBases
    apply Agree.bind (typeText_agree alike)
    rintro ⟨base, used⟩ _ ⟨rfl, within, outside⟩
    simp only
    rw [← AlikeFrom.length_eq alike, ← Alike.tokenAt_eq alike outside]
    split
    · apply Agree.bind inductionHypothesis
      rintro bases _ rfl
      exact rfl
    · exact agree_refuse _ _ _

/-- Enum headers that are alike are read as the same header. -/
theorem EnumHeader.read_agree (alike : Alike left right) (leads : Token.Leads left keyword) :
    Agree (fun one other => one = other) (EnumHeader.read left keyword)
      (EnumHeader.read right keyword) := by
  obtain ⟨before, before'⟩ := sliceUpTo_keyword alike leads
  unfold EnumHeader.read
  simp only [before, before', Reading.ok_bind]
  rw [← Alike.tokenAt_eq alike leads.behind]
  split
  · next named =>
    have behindName := outside_behind_name leads.behind named
    rw [← Alike.tokenAt_eq alike behindName]
    split
    · exact rfl
    · split
      · next isAs =>
        exact typeBehind_agree alike (outside_behind_keyword behindName isAs (by decide))
          (lt_length_of_isKeyword isAs (by decide)) fun _ _ _ _ => rfl
      · exact agree_refuse _ _ _
  · exact agree_refuse _ _ _

end Containers

section Declarations

variable {left right : List Token} {index : Nat}

/-- Modifiers are the same, and the position behind them is outside literals. -/
theorem takeModifiers_alike (modifiers : List String) (alike : Alike left right) :
    takeModifiers modifiers left = takeModifiers modifiers right ∧
      Outside left (takeModifiers modifiers left).2 := by
  induction left generalizing modifiers right with
  | nil =>
    rw [Alike.of_nil alike]
    exact ⟨rfl, Token.outside_zero _⟩
  | cons token rest inductionHypothesis =>
    by_cases isQuote : token = Token.quote
    · subst isQuote
      obtain ⟨more, rfl, -⟩ := Alike.of_quote alike
      have stops : ∀ others, takeModifiers modifiers (Token.quote :: others) = (modifiers, 0) :=
        fun _ => rfl
      rw [stops, stops]
      exact ⟨rfl, Token.outside_zero _⟩
    · obtain ⟨more, rfl, alikeRest⟩ := Alike.of_cons alike isQuote
      unfold takeModifiers
      split
      · obtain ⟨same, outside⟩ := inductionHypothesis modifiers alikeRest
        exact ⟨by rw [same], Token.outside_cons isQuote outside⟩
      · split
        · exact ⟨rfl, Token.outside_zero _⟩
        · next modifier _ =>
          obtain ⟨same, outside⟩ := inductionHypothesis
            (if modifiers.contains modifier then modifiers else modifiers ++ [modifier]) alikeRest
          exact ⟨by simp only [same], Token.outside_cons isQuote outside⟩

/-- The same number of tokens, ending at a position outside literals. -/
theorem Construction.read_agree (alike : Alike left right) :
    Agree (fun one other => one.2 = other.2 ∧ Outside left one.2)
      (Construction.read left) (Construction.read right) := by
  unfold Construction.read
  apply Agree.bind (typeText_agree alike)
  rintro ⟨type, used⟩ _ ⟨rfl, within, outside⟩
  simp only
  rw [← Alike.tokenAt_eq alike outside]
  split
  · next opened =>
    exact parenthesized_agree alike outside opened fun _ _ _ behind _ => ⟨rfl, behind⟩
  · exact ⟨rfl, outside⟩

/-- Both lines state array bounds or neither does, and bounds that are stated are at least
one dimension. -/
structure SameDimensions (one other : Option (List String)) : Prop where
  isSome_eq : one.isSome = other.isSome
  filled : one ≠ some []
  filled' : other ≠ some []

/-- Dimensions are there on both sides or on neither, and end at the same position. -/
theorem readDimensions_agree (alike : Alike left right) (outside : Outside left index) :
    Agree (fun one other => SameDimensions one.1 other.1 ∧ one.2 = other.2 ∧ Outside left one.2)
      (readDimensions left index) (readDimensions right index) := by
  unfold readDimensions
  rw [← Alike.tokenAt_eq alike outside]
  split
  · next opened =>
    apply parenthesized_agree alike outside opened
    intro close bounds bounds' behind _
    have filled : ∀ parts : List (List Token),
        (if parts.isEmpty then [""] else parts.map dimensionText) ≠ [] := by
      intro parts
      split
      · simp
      · next some => simpa using some
    exact ⟨⟨rfl, fun none => filled _ (Option.some.inj none),
      fun none => filled _ (Option.some.inj none)⟩, rfl, behind⟩
  · exact ⟨⟨rfl, by simp, by simp⟩, rfl, outside⟩

/-- The type clauses of declarations that are alike end at the same position. -/
theorem TypeClause.read_agree (type : Option String) (alike : Alike left right)
    (outside : Outside left index) :
    Agree (fun one other => one.stop = other.stop ∧ Outside left one.stop)
      (TypeClause.read type left index) (TypeClause.read type right index) := by
  unfold TypeClause.read
  rw [← Alike.tokenAt_eq alike outside]
  split
  · next isAs =>
    have behindAs := outside_behind_keyword outside isAs (by decide)
    rw [← Alike.tokenAt_eq alike behindAs]
    split
    · next isNew =>
      have behindNew := outside_behind_keyword behindAs isNew (by decide)
      apply Agree.bind (sliceFrom_agree alike behindNew (lt_length_of_isKeyword isNew (by decide)))
      rintro _ behind ⟨rfl, alikeBehind⟩
      apply Agree.bind (Construction.read_agree alikeBehind)
      rintro ⟨built, used⟩ ⟨built', used'⟩ ⟨sameUsed, usedOutside⟩
      simp only at sameUsed usedOutside
      subst sameUsed
      exact ⟨rfl, behindNew.add usedOutside⟩
    · exact typeBehind_agree alike behindAs (lt_length_of_isKeyword isAs (by decide))
        fun _ _ _ behindType => ⟨rfl, behindType⟩
  · exact ⟨rfl, outside⟩

/-- A value is a whole construction on both sides or on neither. -/
theorem wholeConstruction_agree (alike : Alike left right) :
    Agree (fun one other => one.isSome = other.isSome) (wholeConstruction left)
      (wholeConstruction right) := by
  have start := Token.outside_zero left
  unfold wholeConstruction
  rw [← Alike.tokenAt_eq alike start]
  by_cases isNew : Token.isKeyword (tokenAt left 0) "new" = true
  · rw [← Alike.tokenAt_eq alike (outside_behind_keyword start isNew (by decide))]
    split
    · apply behindKeyword_agree alike start isNew (by decide) (by decide)
      intro behind behind' alikeBehind
      apply Agree.bind (Construction.read_agree alikeBehind)
      rintro ⟨built, used⟩ ⟨built', used'⟩ ⟨sameUsed, -⟩
      simp only at sameUsed
      subst sameUsed
      show (if used + 1 = left.length then some built else none).isSome =
        (if used + 1 = right.length then some built' else none).isSome
      rw [AlikeFrom.length_eq alike]
      split <;> rfl
    · exact rfl
  · simp only [isNew, Bool.false_and, Bool.false_eq_true, if_false]
    exact rfl

/-- A value is an array literal on both sides or on neither. -/
theorem arrayLiteral_agree (alike : Alike left right) :
    Agree (fun one other => one.isSome = other.isSome) (arrayLiteral left)
      (arrayLiteral right) := by
  have start := Token.outside_zero left
  unfold arrayLiteral
  rw [← Alike.tokenAt_eq alike start]
  split
  · next isNew =>
    have filled := lt_length_of_isKeyword isNew (by decide)
    have behindNew := outside_behind_keyword start isNew (by decide)
    apply Agree.bind (sliceFrom_agree alike behindNew filled)
    rintro _ behind ⟨rfl, alikeBehind⟩
    rcases TypeRef.read_alike alikeBehind with ⟨cause, one, other⟩ |
      ⟨reference, used, one, other, within, outside⟩
    · rw [one, other]
      exact rfl
    · rw [one, other]
      simp only
      rw [List.length_drop] at within
      apply Agree.bind (sliceFrom_agree alike (behindNew.add outside) (by omega))
      rintro _ elements ⟨rfl, alikeElements⟩
      rw [Alike.tokenAt_eq alikeElements (Token.outside_zero _)]
      show (if _ then _ else _ : Option (TypeRef × List Token)).isSome =
        (if _ then _ else _ : Option (TypeRef × List Token)).isSome
      split <;> rfl
  · exact rfl

/-- A stated value is accepted on both sides, or refused for the same cause. -/
theorem Given.withValue_agree (symbols : Symbols) {hasDimensions hasDimensions' : Bool}
    (given given' : Given) (alike : Alike left right) :
    AgreeLoosely (given.withValue symbols hasDimensions left)
      (given'.withValue symbols hasDimensions' right) := by
  unfold Given.withValue
  apply Agree.bind (wholeConstruction_agree alike)
  intro built built' sameBuilt
  match built, built', sameBuilt with
  | some _, some _, _ => trivial
  | none, none, _ =>
    apply Agree.bind (arrayLiteral_agree alike)
    intro literal literal' sameLiteral
    match literal, literal', sameLiteral with
    | some _, some _, _ => trivial
    | none, none, _ => trivial

/-- The value behind a `=` is alike. -/
theorem value_agree (alike : Alike left right) (outside : Outside left index)
    (isEquals : tokenAt left index = "=") :
    Agree (fun one other => one = left.drop (index + 1) ∧ Alike one other)
      (Reading.sliceFrom left (index + 1)) (Reading.sliceFrom right (index + 1)) :=
  sliceFrom_agree alike (outside_behind_token outside isEquals (by decide))
    (lt_length_of_token isEquals (by decide))

/-- What stands in place of a `=` is refused on both sides for the same cause. -/
theorem unexpected_agree {α β : Type} {related : α → β → Prop} (construct : Construct)
    (alike : Alike left right) (outside : Outside left index) (within : index < left.length) :
    Agree related (do Reading.refuse construct (.unexpected (← Reading.token left index)))
      (do Reading.refuse construct (.unexpected (← Reading.token right index))) := by
  apply Agree.bind (token_agree alike outside within)
  rintro token _ ⟨rfl, -⟩
  exact agree_refuse _ _ _

/-- What is given to a variable is accepted on both sides, or refused for the same cause. -/
theorem Given.read_agree (symbols : Symbols) {hasDimensions hasDimensions' : Bool}
    {clause clause' : TypeClause} (alike : Alike left right)
    (same : clause.stop = clause'.stop) (outside : Outside left clause.stop) :
    AgreeLoosely (Given.read symbols hasDimensions clause left)
      (Given.read symbols hasDimensions' clause' right) := by
  unfold Given.read
  simp only
  rw [← same, ← Alike.tokenAt_eq alike outside, ← AlikeFrom.length_eq alike]
  split
  · next isEquals =>
    apply Agree.bind (value_agree alike outside isEquals)
    rintro _ value ⟨rfl, alikeValue⟩
    rw [isEmpty_eq alikeValue]
    split
    · exact agree_refuse _ _ _
    · exact Given.withValue_agree symbols _ _ alikeValue
  · split
    · next within => exact unexpected_agree _ alike outside within
    · trivial

/-- An array type with a dimension can always be written. -/
theorem arrayType_ok {dimensions : List String} (base : String) (filled : dimensions ≠ []) :
    ∃ type, arrayType base dimensions = .ok type := by
  simp [arrayType, filled]

/-- Declarations that are alike declare the same name. -/
theorem DeclarationLine.read_agree (symbols : Symbols) (nesting : Nesting)
    (alike : Alike left right) :
    Agree (fun one other => one.declared.name = other.declared.name)
      (DeclarationLine.read symbols nesting left)
      (DeclarationLine.read symbols nesting right) := by
  obtain ⟨sameModifiers, start⟩ := takeModifiers_alike [] alike
  unfold DeclarationLine.read
  rw [← sameModifiers]
  generalize takeModifiers [] left = found at start
  obtain ⟨written, position⟩ := found
  simp only at start ⊢
  rw [← Alike.tokenAt_eq alike start]
  split
  · next named =>
    have behindName := outside_behind_name start named
    rw [← Alike.tokenAt_eq alike behindName]
    have behindSuffix : Outside left (if (Vocabulary.typeChar? (tokenAt left (position + 1))).isSome
        then position + 2 else position + 1) := by
      split
      · next suffix =>
        apply behindName.succ
        intro isQuote
        rw [isQuote] at suffix
        exact absurd suffix (by decide)
      · exact behindName
    apply Agree.bind (readDimensions_agree alike behindSuffix)
    rintro ⟨dimensions, stop⟩ ⟨dimensions', stop'⟩ ⟨sameDimensions, sameStop, outside⟩
    simp only at sameDimensions sameStop outside ⊢
    subst sameStop
    apply Agree.bind (TypeClause.read_agree _ alike outside)
    intro clause clause' ⟨sameClause, behindClause⟩
    apply Agree.bind (Given.read_agree symbols alike sameClause behindClause)
    intro given given' _
    obtain ⟨isSome_eq, filled, filled'⟩ := sameDimensions
    match dimensions, dimensions', isSome_eq with
    | none, none, _ => exact rfl
    | some one, some other, _ =>
      obtain ⟨type, written⟩ := arrayType_ok (given.type.getD TypeRef.defaultText)
        fun none => filled (congrArg some none)
      obtain ⟨type', written'⟩ := arrayType_ok (given'.type.getD TypeRef.defaultText)
        fun none => filled' (congrArg some none)
      simp only [written, written', Reading.ok_bind]
      exact rfl
  · exact agree_refuse _ _ _

end Declarations

/-- The passing words, type and name of a parameter, and the sign behind them if a default
value follows. -/
def parameterHead : List Token → List Token
  | [] => []
  | token :: rest => if token = "=" then ["="] else token :: parameterHead rest

/-- The default value is not part of the head. -/
theorem parameterHead_default (start rest rest' : List Token) :
    parameterHead (start ++ "=" :: rest) = parameterHead (start ++ "=" :: rest') := by
  induction start with
  | nil => rfl
  | cons token start inductionHypothesis =>
    simp only [List.cons_append, parameterHead, inductionHypothesis]

section Signatures

variable {left right : List Token} {index keyword : Nat}

/-- Passing words are the same, and the position behind them is outside literals. -/
theorem takePassing_alike (alike : Alike left right) :
    takePassing left = takePassing right ∧ Outside left (takePassing left).2 := by
  induction left generalizing right with
  | nil =>
    rw [Alike.of_nil alike]
    exact ⟨rfl, Token.outside_zero _⟩
  | cons token rest inductionHypothesis =>
    by_cases isQuote : token = Token.quote
    · subst isQuote
      obtain ⟨more, rfl, -⟩ := Alike.of_quote alike
      have stops : ∀ others, takePassing (Token.quote :: others) = ([], 0) := fun _ => rfl
      rw [stops, stops]
      exact ⟨rfl, Token.outside_zero _⟩
    · obtain ⟨more, rfl, alikeRest⟩ := Alike.of_cons alike isQuote
      obtain ⟨same, outside⟩ := inductionHypothesis alikeRest
      unfold takePassing
      rw [← same]
      refine ⟨rfl, ?_⟩
      simp only
      split
      · exact Token.outside_cons isQuote outside
      · split
        · exact Token.outside_cons isQuote outside
        · split
          · exact Token.outside_cons isQuote outside
          · exact Token.outside_zero _

/-- The type of a parameter is the same and ends at the same position. -/
theorem readParameterType_agree (alike : Alike left right) (outside : Outside left index) :
    Agree (fun one other => one = other ∧ Outside left one.2) (readParameterType left index)
      (readParameterType right index) := by
  apply Agree.bind (asClause_agree alike outside)
  rintro clause _ ⟨rfl, behind⟩
  exact ⟨rfl, behind⟩

/-- A default value is there on both sides or on neither, behind `=`. -/
theorem readDefault_agree (alike : Alike left right) (outside : Outside left index) :
    Agree (fun one other => one = [] ∧ other = [] ∨
        ∃ value value', one = ["=", value] ∧ other = ["=", value'])
      (readDefault left index) (readDefault right index) := by
  unfold readDefault
  rw [← Alike.tokenAt_eq alike outside, ← AlikeFrom.length_eq alike]
  split
  · next isEquals =>
    apply Agree.bind (value_agree alike outside isEquals)
    rintro _ value ⟨rfl, alikeValue⟩
    rw [isEmpty_eq alikeValue]
    split
    · exact agree_refuse _ _ _
    · exact .inr ⟨_, _, rfl, rfl⟩
  · split
    · next within => exact unexpected_agree _ alike outside within
    · exact .inl ⟨rfl, rfl⟩

/-- Parameters that are alike have one head. -/
theorem readParameter_agree (alike : Alike left right) :
    Agree (fun one other => parameterHead one = parameterHead other) (readParameter left)
      (readParameter right) := by
  obtain ⟨samePassing, start⟩ := takePassing_alike alike
  unfold readParameter
  rw [← samePassing]
  generalize takePassing left = found at start
  obtain ⟨passing, position⟩ := found
  simp only at start ⊢
  rw [← Alike.tokenAt_eq alike start]
  split
  · next named =>
    have behindName := outside_behind_name start named
    -- The marker of an array parameter is no quote, so what follows it is outside.
    have behindMarker : (tokenAt left (position + 1) == "(" && tokenAt left (position + 2) == ")") =
          (tokenAt right (position + 1) == "(" && tokenAt right (position + 2) == ")") ∧
        Outside left (if (tokenAt left (position + 1) == "(" && tokenAt left (position + 2) == ")")
          then position + 3 else position + 1) := by
      rw [← Alike.tokenAt_eq alike behindName]
      by_cases opened : tokenAt left (position + 1) = "("
      · have behindOpen := outside_behind_token behindName opened (by decide)
        rw [← Alike.tokenAt_eq alike behindOpen]
        refine ⟨rfl, ?_⟩
        split
        · next marked =>
          have closed : tokenAt left (position + 2) = ")" := by simpa [opened] using marked
          exact outside_behind_token behindOpen closed (by decide)
        · exact behindName
      · have unopened : (tokenAt left (position + 1) == "(") = false := beq_false_of_ne opened
        simpa [unopened] using behindName
    rw [← behindMarker.1]
    apply Agree.bind (readParameterType_agree alike behindMarker.2)
    rintro ⟨type, stop⟩ _ ⟨rfl, outside⟩
    apply Agree.bind (readDefault_agree alike outside)
    rintro default default' (⟨rfl, rfl⟩ | ⟨value, value', rfl, rfl⟩)
    · exact rfl
    · exact parameterHead_default _ [value] [value']
  · exact agree_refuse _ _ _

/-- Parameters agree one by one. -/
theorem readParameters_agree (alike : Alike left right) :
    Agree (fun one other => one.map parameterHead = other.map parameterHead)
      (readParameters left) (readParameters right) := by
  unfold readParameters
  have parts := Alike.commaParts_alike alike
  generalize Token.commaParts left = one, Token.commaParts right = other at parts
  induction parts with
  | nil => exact rfl
  | cons alike _ inductionHypothesis =>
    rw [List.mapM_cons, List.mapM_cons]
    apply Agree.bind (readParameter_agree alike)
    intro parameter parameter' sameHead
    apply Agree.bind inductionHypothesis
    intro others others' sameOthers
    show List.map parameterHead (parameter :: others) = List.map parameterHead (_ :: _)
    rw [List.map_cons, List.map_cons, sameHead, sameOthers]

/-- Type parameters end at the same position. -/
theorem readGenerics_agree (construct : Construct) (alike : Alike left right)
    (outside : Outside left index) :
    Agree (fun one other => one.2 = other.2 ∧ Outside left one.2)
      (readGenerics construct left index) (readGenerics construct right index) := by
  unfold readGenerics
  rw [← Alike.tokenAt_eq alike outside, ← Alike.closing_eq alike outside]
  by_cases opened : tokenAt left index = "("
  · have behindOpen := outside_behind_token outside opened (by decide)
    rw [← Alike.tokenAt_eq alike behindOpen]
    split
    · next isList =>
      apply Agree.bind (agree_require _ _ _)
      rintro close _ ⟨rfl, found⟩
      obtain ⟨order, short, closeOutside, closes⟩ := Token.closing_some opened outside found
      have behindOf := outside_behind_keyword behindOpen isList.2 (by decide)
      -- The parenthesis that closes the list is not the word behind the opening one.
      have order : index + 2 ≤ close := by
        rcases Nat.lt_or_ge (index + 1) close with order | order
        · exact order
        · have same : close = index + 1 := by omega
          rw [same] at closes
          rw [closes] at isList
          exact absurd isList.2 (by decide)
      apply Agree.bind (slice_agree alike behindOf order (Nat.le_of_lt short))
      intro inner inner' _
      exact ⟨rfl, outside_behind_token closeOutside closes (by decide)⟩
    · exact ⟨rfl, outside⟩
  · simp only [opened, false_and, if_false]
    exact ⟨rfl, outside⟩

/-- Parameter lists have the same heads and end at the same position. -/
theorem readParameterList_agree (construct : Construct) (alike : Alike left right)
    (outside : Outside left index) :
    Agree (fun one other => one.1.map parameterHead = other.1.map parameterHead ∧
        one.2 = other.2 ∧ Outside left one.2)
      (readParameterList construct left index) (readParameterList construct right index) := by
  unfold readParameterList
  rw [← Alike.tokenAt_eq alike outside]
  split
  · next opened =>
    apply parenthesized_agree alike outside opened
    intro close inner inner' behind alikeInner
    apply Agree.bind (readParameters_agree alikeInner)
    intro parameters parameters' sameHeads
    exact ⟨sameHeads, rfl, behind⟩
  · exact ⟨rfl, rfl, outside⟩

/-- The same name, parameters up to their default values, return type and end. -/
structure Signature.SameShape (one other : Signature) : Prop where
  name : one.name = other.name
  parameters : one.parameters.map parameterHead = other.parameters.map parameterHead
  returnType : one.returnType = other.returnType
  stop : one.stop = other.stop

/-- Signatures that are alike have one shape, and what follows them is outside literals. -/
theorem Signature.read_agree (construct : Construct) (alike : Alike left right)
    (leads : Token.Leads left keyword) :
    Agree (fun one other => one.SameShape other ∧ Outside left one.stop)
      (Signature.read construct left keyword) (Signature.read construct right keyword) := by
  unfold Signature.read
  simp only
  rw [← Alike.tokenAt_eq alike leads.behind]
  split
  · next named =>
    apply Agree.bind (readGenerics_agree construct alike (outside_behind_name leads.behind named))
    rintro ⟨generics, start⟩ ⟨generics', start'⟩ ⟨sameStart, outside⟩
    simp only at sameStart outside ⊢
    subst sameStart
    apply Agree.bind (readParameterList_agree construct alike outside)
    rintro ⟨parameters, middle⟩ ⟨parameters', middle'⟩ ⟨sameHeads, sameMiddle, outside⟩
    simp only at sameHeads sameMiddle outside ⊢
    subst sameMiddle
    apply Agree.bind (asClause_agree alike outside)
    rintro ⟨returnType, stop⟩ _ ⟨rfl, outside⟩
    exact ⟨⟨rfl, sameHeads, rfl, rfl⟩, outside⟩
  · exact agree_refuse _ _ _

end Signatures

/-- The same function as far as its header says: name, modifiers, return type, parameters
up to their default values, and what it declares so far. -/
structure FunctionRecord.SameHead (one other : FunctionRecord) : Prop where
  name : one.name = other.name
  modifiers : one.modifiers = other.modifiers
  returnType : one.returnType = other.returnType
  parameters : one.parameters.map parameterHead = other.parameters.map parameterHead
  locals : one.locals = other.locals

section Functions

variable {left right : List Token} {index keyword : Nat}

/-- The name and return type of a function come from the shape of its signature. -/
theorem functionHead_agree (nesting : Nesting) {one other : Signature} (isSub : Bool)
    (modifiers : List String) (same : one.SameShape other) :
    Agree (fun one other => one = other) (nesting.functionHead one isSub modifiers)
      (nesting.functionHead other isSub modifiers) := by
  unfold Nesting.functionHead
  rw [← same.name, ← same.returnType]
  split
  · split
    · exact rfl
    · split
      · apply Agree.bind (agree_require _ _ _)
        rintro container _ ⟨rfl, -⟩
        exact rfl
      · exact rfl
  · exact rfl

/-- Function headers that are alike start records of one head, with a clause behind both or behind
neither. -/
theorem FunctionHeader.read_agree (nesting : Nesting) (isSub : Bool) (alike : Alike left right)
    (leads : Token.Leads left keyword) :
    Agree (fun one other => one.record.SameHead other.record ∧
        one.clause.isSome = other.clause.isSome)
      (FunctionHeader.read nesting left keyword isSub)
      (FunctionHeader.read nesting right keyword isSub) := by
  obtain ⟨before, before'⟩ := sliceUpTo_keyword alike leads
  unfold FunctionHeader.read
  simp only [before, before', Reading.ok_bind]
  apply Agree.bind (Signature.read_agree _ alike leads)
  intro signature signature' ⟨same, outside⟩
  apply Agree.bind (functionHead_agree nesting isSub _ same)
  rintro ⟨modifiers, name, returnType⟩ _ rfl
  simp only
  rw [← same.stop, ← AlikeFrom.length_eq alike]
  unfold Reading.sliceFrom
  rw [← AlikeFrom.length_eq alike, slice_ok (Nat.min_le_right _ _) (Nat.le_refl _),
    slice_ok (Nat.min_le_right _ _) (AlikeFrom.length_eq alike ▸ Nat.le_refl _)]
  refine ⟨⟨rfl, rfl, rfl, same.parameters, rfl⟩, ?_⟩
  -- Whether a clause follows is a matter of length alone.
  have sameLength : ((left.take left.length).drop (min signature.stop left.length)).isEmpty =
      ((right.take left.length).drop (min signature.stop left.length)).isEmpty := by
    rw [Bool.eq_iff_iff, List.isEmpty_iff_length_eq_zero, List.isEmpty_iff_length_eq_zero]
    simp [AlikeFrom.length_eq alike]
  simp only [sameLength]
  split <;> rfl

/-- The type of a property is the same and ends at the same position. -/
theorem readPropertyType_agree (alike : Alike left right) (outside : Outside left index) :
    Agree (fun one other => one.1 = other.1 ∧ one.2.2 = other.2.2 ∧ Outside left one.2.2)
      (readPropertyType left index) (readPropertyType right index) := by
  unfold readPropertyType
  rw [← Alike.tokenAt_eq alike outside]
  split
  · next isAs =>
    have behindAs := outside_behind_keyword outside isAs (by decide)
    have withinAs := lt_length_of_isKeyword isAs (by decide)
    simp only
    rw [← Alike.tokenAt_eq alike behindAs]
    by_cases isNew : Token.isKeyword (tokenAt left (index + 1)) "new" = true
    · simp only [isNew, if_true]
      apply typeBehind_agree alike (outside_behind_keyword behindAs isNew (by decide))
        (lt_length_of_isKeyword isNew (by decide))
      intro type used _ behindType
      simp only
      rw [← Alike.tokenAt_eq alike behindType]
      split
      · next opened =>
        exact parenthesized_agree alike behindType opened
          fun _ _ _ behind _ => ⟨rfl, rfl, behind⟩
      · exact ⟨rfl, rfl, behindType⟩
    · simp only [isNew, Bool.false_eq_true, if_false]
      exact typeBehind_agree alike behindAs withinAs
        fun _ _ _ behindType => ⟨rfl, rfl, behindType⟩
  · exact ⟨rfl, rfl, outside⟩

/-- The value of a property is accepted on both sides, or refused for the same cause. -/
theorem readPropertyValue_agree (construction construction' : Option String)
    (alike : Alike left right) (outside : Outside left index) :
    AgreeLoosely (readPropertyValue construction left index)
      (readPropertyValue construction' right index) := by
  unfold readPropertyValue
  rw [← Alike.tokenAt_eq alike outside, ← AlikeFrom.length_eq alike]
  split
  · next isEquals =>
    split
    · exact agree_refuse _ _ _
    · exact (value_agree alike outside isEquals).bind fun _ _ _ => trivial
  · split
    · next within => exact unexpected_agree _ alike outside within
    · trivial

/-- Automatic properties that are alike declare the same variable. -/
theorem PropertyLine.read_agree (nesting : Nesting) (alike : Alike left right)
    (leads : Token.Leads left keyword) :
    Agree (fun one other => one.declared = other.declared)
      (PropertyLine.read nesting left keyword) (PropertyLine.read nesting right keyword) := by
  obtain ⟨before, before'⟩ := sliceUpTo_keyword alike leads
  unfold PropertyLine.read
  simp only [before, before', Reading.ok_bind]
  rw [← Alike.tokenAt_eq alike leads.behind]
  split
  · next named =>
    apply Agree.bind (readPropertyType_agree alike (outside_behind_name leads.behind named))
    rintro ⟨type, construction, stop⟩ ⟨type', construction', stop'⟩ ⟨sameType, sameStop, outside⟩
    simp only at sameType sameStop outside ⊢
    subst sameType sameStop
    exact (readPropertyValue_agree _ _ alike outside).bind fun _ _ _ => rfl
  · exact agree_refuse _ _ _

/-- The pending property header is read again without leaving its line. -/
theorem PropertyHeader.read_agree (pending : Option Nat) (input : List SourceLine) :
    Agree (fun one other => one = other) (PropertyHeader.read pending input)
      (PropertyHeader.read pending input) := by
  unfold PropertyHeader.read
  apply Agree.bind (agree_require _ _ _)
  rintro index _ ⟨rfl, -⟩
  apply Agree.bind (agree_require _ _ _)
  rintro line _ ⟨rfl, -⟩
  simp only
  generalize Token.concatenations (Token.tokenize line.text) = tokens
  apply Agree.bind (agree_require _ _ _)
  rintro keyword _ ⟨rfl, found⟩
  have leads := Statement.leads_of_declarationKeyword (by decide) found
  have refl := AlikeFrom.refl false tokens
  obtain ⟨before, -⟩ := sliceUpTo_keyword refl leads
  simp only [before, Reading.ok_bind]
  apply Agree.bind (Signature.read_agree _ refl leads).self
  rintro signature _ rfl
  exact rfl

/-- The parameters of accessors have the same heads. -/
theorem readAccessorParameters_agree (alike : Alike left right)
    (leads : Token.Leads left keyword) :
    Agree (fun one other => one.map parameterHead = other.map parameterHead)
      (readAccessorParameters left keyword) (readAccessorParameters right keyword) := by
  unfold readAccessorParameters
  rw [← Alike.tokenAt_eq alike leads.behind]
  split
  · next opened =>
    exact parenthesized_agree alike leads.behind opened
      fun _ _ _ _ alikeInner => readParameters_agree alikeInner
  · exact rfl

/-- Accessor headers that are alike start records of one head. -/
theorem AccessorHeader.read_agree (draft : Draft) (alike : Alike left right)
    (leads : Token.Leads left keyword) :
    Agree (fun one other => one.record.SameHead other.record)
      (AccessorHeader.read draft left keyword) (AccessorHeader.read draft right keyword) := by
  obtain ⟨before, before'⟩ := sliceUpTo_keyword alike leads
  unfold AccessorHeader.read
  simp only [before, before', Reading.ok_bind]
  apply Agree.bind (PropertyHeader.read_agree _ _)
  rintro property _ rfl
  apply Agree.bind (token_agree alike leads.at leads.within)
  rintro token _ ⟨rfl, -⟩
  apply Agree.bind (readAccessorParameters_agree alike leads)
  intro stated stated' sameHeads
  have sameEmpty : stated.isEmpty = stated'.isEmpty := by
    rw [← List.isEmpty_map (f := parameterHead), sameHeads, List.isEmpty_map]
  refine ⟨rfl, rfl, rfl, ?_, rfl⟩
  simp only [sameEmpty, List.map_append]
  split
  · rfl
  · rw [sameHeads]

end Functions

end BasicToSharp
