import BasicToSharp.Proofs.BalancedTokens
import BasicToSharp.Proofs.Comparison
import BasicToSharp.Proofs.TypePositions

/-!
# Written signatures

A parameter is written as passing words, a name, `()` for an array, an `As` clause and a
default value, each but the name only if it is wanted. `ParameterForm` holds these parts, with
the tokens they have in the source and the words they become. A function is written as its
modifiers and keyword, its name, its parameters in parentheses and an `As` clause, and
`FunctionForm` holds those.

The reader works by position. At every position of a written signature it is known what is
left of the line, and each part of the reader takes its own part of that and stops where the
next one starts.
-/

namespace BasicToSharp

open Token (Spelling Name Single)
open ByPosition (Left)

/-- The words that say how a parameter is passed. -/
inductive Passing
  | byVal
  | optional
  | byRef
  | paramArray
  deriving DecidableEq, Repr

namespace Passing

/-- The word, in lower case. -/
def word : Passing → String
  | byVal => "byval"
  | optional => "optional"
  | byRef => "byref"
  | paramArray => "paramarray"

/-- What stands for the word in C#. -/
def sharp : Passing → List Token
  | byVal => []
  | optional => []
  | byRef => ["ref"]
  | paramArray => ["params"]

end Passing

/-- A passing word as it is written. -/
structure PassingWord where
  kind : Passing
  spelling : Spelling kind.word

/-- An `As` clause. -/
structure AsClause where
  word : Spelling "as"
  type : TypeTree

/-- The tokens of an `As` clause, if there is one. -/
def asTokens : Option AsClause → List Token
  | none => []
  | some clause => clause.word.val :: clause.type.tokens

/-- The C# text of the type that an `As` clause states, if there is one. -/
def asText (clause : Option AsClause) : String :=
  (clause.map (·.type.text)).getD TypeRef.defaultText

/-- The tokens of a value behind `=`, if there is one. -/
def valueTokens : Option (List Token) → List Token
  | none => []
  | some value => "=" :: value

/-- The words for a value in C#, behind `=`, if there is one. -/
def valueWords : Option (List Token) → List Token
  | none => []
  | some value => ["=", Expression.render value]

/-- A parameter as it is written. Its name is none of the words that could be taken for
something else at the start of a parameter, its type is not written as a passing word of C#,
and its default value is one item of a list. -/
structure ParameterForm where
  passing : List PassingWord
  name : Name
  notPassing : ∀ kind : Passing, Token.isKeyword name.val kind.word = false
  notOf : Token.isKeyword name.val "of" = false
  isArray : Bool
  type : Option AsClause
  typeNamed : ∀ clause ∈ type, clause.type.text ≠ "ref" ∧ clause.type.text ≠ "params"
  default : Option (List Token)
  defaultSingle : ∀ value ∈ default, value ≠ [] ∧ Single value

namespace ParameterForm

/-- The tokens of a parameter. -/
def tokens (form : ParameterForm) : List Token :=
  form.passing.map (·.spelling.val) ++ form.name.val ::
    ((if form.isArray then ["(", ")"] else []) ++
      (asTokens form.type ++ valueTokens form.default))

/-- The C# type of a parameter. -/
def typeText (form : ParameterForm) : String :=
  asText form.type ++ if form.isArray then "[]" else ""

/-- The words of a parameter in C#. -/
def words (form : ParameterForm) : List Token :=
  form.passing.flatMap (·.kind.sharp) ++ [form.typeText, form.name.val] ++
    valueWords form.default

end ParameterForm

/-! ## Reading one part -/

section Parts

variable {tokens rest : List Token} {index : Nat}

/-- Passing tokens leaves those behind them. -/
theorem ByPosition.Left.advance {front : List Token} (left : Left tokens index (front ++ rest)) :
    Left tokens (index + front.length) rest :=
  left.trans ⟨front, rfl, rfl⟩

/-- What is left can be taken as a slice. -/
theorem ByPosition.Left.sliceFrom (left : Left tokens index rest) :
    Reading.sliceFrom tokens index = .ok rest := by
  obtain ⟨done, rfl, rfl⟩ := left
  rw [Reading.sliceFrom, slice_ok (by simp) (Nat.le_refl _), List.take_length, List.drop_left]

/-- What is passed can be taken as a slice. -/
theorem ByPosition.Left.slice {front : List Token} (left : Left tokens index (front ++ rest)) :
    Reading.slice tokens index (index + front.length) = .ok front := by
  obtain ⟨done, rfl, rfl⟩ := left
  rw [slice_ok (Nat.le_add_right _ _) (by simp), ← List.append_assoc, ← List.length_append,
    List.take_left, List.drop_left]

/-- The parenthesis that closes balanced tokens stands behind them. -/
theorem ByPosition.Left.closing {inner : List Token}
    (left : Left tokens index ("(" :: (inner ++ ")" :: rest))) (balanced : Token.Balanced inner) :
    Token.closing tokens index = some (index + 1 + inner.length) := by
  obtain ⟨done, rfl, rfl⟩ := left
  exact Token.closing_parenthesized done balanced rest

/-- A type is written from its tokens, if nothing behind extends it. -/
theorem TypeTree.typeText_tokens (tree : TypeTree) (apart : ¬ tree.ExtendedBy rest) :
    Reading.typeText (tree.tokens ++ rest) = .ok (tree.text, tree.tokens.length) := by
  simp [Reading.typeText, Reading.typeRef, tree.read_tokens apart, tree.render_reference]

/-- A spelling of one keyword is no spelling of another. -/
theorem Token.Spelling.isKeyword_other {keyword : String} (word : Spelling keyword)
    {other : String} (apart : Token.isKeyword keyword other = false) :
    Token.isKeyword word.val other = false := by
  have same : word.val.toList.map Char.toLower = keyword.toList.map Char.toLower :=
    beq_iff_eq.mp word.property
  rw [← apart, Token.isKeyword, Text.sameIgnoringCase, same]
  rfl

/-- A passing word in front is taken. -/
theorem takePassing_word (word : PassingWord) (rest : List Token) :
    takePassing (word.spelling.val :: rest) =
      (word.kind.sharp ++ (takePassing rest).1, (takePassing rest).2 + 1) := by
  obtain ⟨kind, token, spelt⟩ := word
  have form : Text.lookupForm token = kind.word :=
    Text.lookupForm_of_isKeyword spelt (by cases kind <;> decide) (by cases kind <;> decide)
  cases kind <;> simp [takePassing, form, Passing.word, Passing.sharp]

/-- Nothing is taken from a name on. -/
theorem takePassing_name {name : Token}
    (notPassing : ∀ kind : Passing, Token.isKeyword name kind.word = false) (rest : List Token) :
    takePassing (name :: rest) = ([], 0) := by
  have other : ∀ kind : Passing, Text.lookupForm name ≠ kind.word := by
    intro kind same
    have isWord : Token.isKeyword name kind.word = true :=
      Text.isKeyword_of_lookupForm same (by cases kind <;> decide) (by cases kind <;> decide)
    rw [notPassing kind] at isWord
    cases isWord
  have notByVal : Text.lookupForm name ≠ "byval" := other .byVal
  have notOptional : Text.lookupForm name ≠ "optional" := other .optional
  have notByRef : Text.lookupForm name ≠ "byref" := other .byRef
  have notParamArray : Text.lookupForm name ≠ "paramarray" := other .paramArray
  simp [takePassing, notByVal, notOptional, notByRef, notParamArray]

/-- The passing words of a parameter are taken up to its name. -/
theorem takePassing_form (form : ParameterForm) :
    takePassing form.tokens = (form.passing.flatMap (·.kind.sharp), form.passing.length) := by
  unfold ParameterForm.tokens
  induction form.passing with
  | nil => exact takePassing_name form.notPassing _
  | cons word later inductionHypothesis =>
    rw [List.map_cons, List.cons_append, takePassing_word, inductionHypothesis]
    rfl

/-- The start of a default value, or the end of a parameter, does not extend a type. -/
theorem TypeTree.not_extendedBy_value (tree : TypeTree) (value : Option (List Token)) :
    ¬ tree.ExtendedBy (valueTokens value) := by
  cases value <;> simp [valueTokens, ExtendedBy, ExtendsName]

/-- An `As` comes next exactly where there is a clause. -/
theorem ByPosition.Left.isAs {clause : Option AsClause} {value : Option (List Token)}
    (left : Left tokens index (asTokens clause ++ valueTokens value)) :
    Token.isKeyword (BasicToSharp.tokenAt tokens index) "as" = clause.isSome := by
  rw [left.tokenAt]
  cases clause with
  | some clause => exact clause.word.property
  | none =>
    cases value with
    | none => decide
    | some value => exact (by decide : Token.isKeyword "=" "as" = false)

/-- Where nothing is left, the line has ended. -/
theorem ByPosition.Left.ended (left : Left tokens index []) : ¬ index < tokens.length := by
  obtain ⟨done, rfl, rfl⟩ := left
  simp

/-- An `As` clause is read up to the value behind it, or to the end. -/
theorem Reading.asClause_form (clause : Option AsClause) (value : Option (List Token))
    (left : Left tokens index (asTokens clause ++ valueTokens value)) :
    ∃ stop, Reading.asClause tokens index = .ok (clause.map (·.type.text), stop) ∧
      Left tokens stop (valueTokens value) := by
  have isAs := left.isAs
  cases clause with
  | none => exact ⟨index, by simp [Reading.asClause, isAs], left⟩
  | some clause =>
    have behind : Left tokens (index + 1) (clause.type.tokens ++ valueTokens value) := left.next
    refine ⟨index + 1 + clause.type.tokens.length, ?_, behind.advance⟩
    simp [Reading.asClause, isAs, behind.sliceFrom,
      clause.type.typeText_tokens (clause.type.not_extendedBy_value value)]

/-- The type of a parameter is that of its clause, or the default. -/
theorem readParameterType_form (clause : Option AsClause) (value : Option (List Token))
    (left : Left tokens index (asTokens clause ++ valueTokens value)) :
    ∃ stop, readParameterType tokens index = .ok (asText clause, stop) ∧
      Left tokens stop (valueTokens value) := by
  obtain ⟨stop, read, atValue⟩ := Reading.asClause_form clause value left
  exact ⟨stop, by simp [readParameterType, read, asText], atValue⟩

/-- A default value is read as it is stated. -/
theorem readDefault_form {value : Option (List Token)} (filled : ∀ tokens ∈ value, tokens ≠ [])
    (left : Left tokens index (valueTokens value)) :
    readDefault tokens index = .ok (valueWords value) := by
  cases value with
  | none =>
    have isEnd : tokenAt tokens index = "" := left.tokenAt
    simp [readDefault, isEnd, left.ended, valueWords]
  | some value =>
    have isEqual : tokenAt tokens index = "=" := left.tokenAt
    have behind : Left tokens (index + 1) value := left.next
    simp [readDefault, isEqual, behind.sliceFrom, filled value rfl, valueWords]

end Parts

/-! ## Parameters -/

/-- An `As` clause is a single part. -/
theorem asTokens_single (clause : Option AsClause) : Single (asTokens clause) := by
  cases clause with
  | none => exact .nil
  | some clause =>
    obtain ⟨inert, other⟩ :=
      Token.inert_of_test (Token.isKeyword · "as") clause.word.property (by decide)
    exact clause.type.single_tokens.cons inert other

/-- A stated value is a single part if its tokens are. -/
theorem valueTokens_single {value : Option (List Token)}
    (single : ∀ tokens ∈ value, Single tokens) : Single (valueTokens value) := by
  cases value with
  | none => exact .nil
  | some value => exact (single value rfl).cons (by decide) (by decide)

namespace ParameterForm

variable (form : ParameterForm)

/-- A parameter has tokens. -/
theorem tokens_ne_nil : form.tokens ≠ [] := by simp [tokens]

/-- A parameter does not start as type parameters do. -/
theorem starts_notOf (rest : List Token) :
    Token.isKeyword (tokenAt (form.tokens ++ rest) 0) "of" = false := by
  unfold tokens
  cases form.passing with
  | nil => exact form.notOf
  | cons word later => exact word.spelling.isKeyword_other (by cases word.kind <;> decide)

/-- A parameter is one item of a list. -/
theorem single_tokens : Single form.tokens := by
  have marker : Single (if form.isArray then ["(", ")"] else []) := by
    cases form.isArray <;> decide
  have behind : Single ((if form.isArray then ["(", ")"] else []) ++
      (asTokens form.type ++ valueTokens form.default)) :=
    marker.append ((asTokens_single form.type).append
      (valueTokens_single fun value stated => (form.defaultSingle value stated).2))
  obtain ⟨inert, other⟩ := Token.inert_of_identifier form.name.property
  unfold tokens
  induction form.passing with
  | nil => exact behind.cons inert other
  | cons word later inductionHypothesis =>
    obtain ⟨inertWord, otherWord⟩ :=
      Token.inert_of_test (Token.isKeyword · word.kind.word) word.spelling.property
        (by cases word.kind <;> decide)
    exact inductionHypothesis.cons inertWord otherWord

/-- Behind the name of a parameter, `()` is found exactly when it is an array. -/
theorem array_marked {tokens : List Token} {index : Nat}
    (left : Left tokens index (form.name.val :: ((if form.isArray then ["(", ")"] else []) ++
      (asTokens form.type ++ valueTokens form.default)))) :
    (tokenAt tokens (index + 1) == "(" && tokenAt tokens (index + 2) == ")") = form.isArray := by
  rw [left.tokenAt_add 1, left.tokenAt_add 2]
  cases form.isArray with
  | true => rfl
  | false =>
    cases type : form.type with
    | some clause =>
      have noBracket : clause.word.val ≠ "(" := by
        intro same
        exact absurd (same ▸ clause.word.property) (by decide)
      simp [asTokens, tokenAt, noBracket]
    | none => cases form.default <;> rfl

/-- A parameter is read as its words in C#. -/
theorem readParameter_tokens : readParameter form.tokens = .ok form.words := by
  have atName : Left form.tokens form.passing.length
      (form.name.val :: ((if form.isArray then ["(", ")"] else []) ++
        (asTokens form.type ++ valueTokens form.default))) :=
    ⟨form.passing.map (·.spelling.val), rfl, by simp⟩
  have atType : Left form.tokens
      (if form.isArray then form.passing.length + 3 else form.passing.length + 1)
      (asTokens form.type ++ valueTokens form.default) := by
    have behind := atName.next
    cases marked : form.isArray with
    | true =>
      rw [marked] at behind
      exact behind.next.next
    | false =>
      rw [marked] at behind
      exact behind
  obtain ⟨stop, typed, atDefault⟩ := readParameterType_form form.type form.default atType
  have valued :=
    readDefault_form (fun value stated => (form.defaultSingle value stated).1) atDefault
  have named : tokenAt form.tokens form.passing.length = form.name.val := atName.tokenAt
  rw [readParameter, takePassing_form]
  simp only [named, form.name.property, if_true, form.array_marked atName, typed,
    Reading.ok_bind, valued, Reading.pure_eq_ok]
  cases marked : form.isArray <;> simp [words, typeText, marked]

end ParameterForm

/-- Parameters are read from their tokens, one by one. -/
theorem readParameters_forms (forms : List ParameterForm) :
    readParameters ([","].intercalate (forms.map (·.tokens))) = .ok (forms.map (·.words)) := by
  have parts : Token.commaParts ([","].intercalate (forms.map (·.tokens))) =
      forms.map (·.tokens) :=
    Token.commaParts_intercalate
      (List.forall_mem_map.mpr fun form _ => form.single_tokens)
      (List.forall_mem_map.mpr fun form _ => form.tokens_ne_nil)
  rw [readParameters, parts]
  clear parts
  induction forms with
  | nil => rfl
  | cons form rest inductionHypothesis =>
    simp only [List.map_cons, List.mapM_cons, form.readParameter_tokens, inductionHypothesis,
      Reading.ok_bind, Reading.pure_eq_ok]

/-! ## Functions -/

/-- The header of a function or sub as it is written. The keyword has been found already and
is not read again. A sub of this form is no entry point and no constructor. -/
structure FunctionForm where
  modifiers : List Token
  keyword : Token
  isSub : Bool
  name : Name
  ordinary : isSub = true → name.val ≠ "Main" ∧ name.val ≠ "New"
  parameters : List ParameterForm
  returns : Option AsClause

namespace FunctionForm

variable (form : FunctionForm)

/-- The tokens between the parentheses of a function header. -/
def parameterTokens : List Token := [","].intercalate (form.parameters.map (·.tokens))

/-- The tokens of a function header. -/
def tokens : List Token :=
  form.modifiers ++ form.keyword :: form.name.val :: "(" ::
    (form.parameterTokens ++ ")" :: asTokens form.returns)

/-- The modifiers of a function in C#: those of the source that have a counterpart, and
`static` for a member of a module that is not so already. -/
def sharpModifiers (nesting : Nesting) : List String :=
  let written := form.modifiers.filterMap Vocabulary.modifier?
  written ++
    if nesting.insideModule ∧ ¬ nesting.insideClass ∧ "static" ∉ written then ["static"] else []

/-- What a function returns in C#. -/
def returnText : String := if form.isSub then "void" else asText form.returns

/-- The signature line in C#. -/
def line (nesting : Nesting) : String :=
  " ".intercalate (form.sharpModifiers nesting ++ [form.returnText, form.name.val]) ++ "(" ++
    ", ".intercalate (form.parameters.map (" ".intercalate ·.words)) ++ ")"

/-- What is known of a function without its locals. -/
def record (nesting : Nesting) : FunctionRecord where
  name := form.name.val
  modifiers := form.sharpModifiers nesting
  returnType := some form.returnText
  parameters := form.parameters.map (·.words)

/-- The modifiers of a function, in the place where it stands. -/
theorem withModuleStatic_modifiers (nesting : Nesting) :
    nesting.withModuleStatic (modifiersOf form.modifiers) = form.sharpModifiers nesting := by
  simp only [Nesting.withModuleStatic, Nesting.ownedByModule, sharpModifiers, modifiersOf,
    Bool.and_eq_true, Bool.not_eq_true', List.contains_eq_mem, decide_eq_false_iff_not,
    Bool.not_eq_true, and_assoc]
  split <;> simp

/-- The tokens of parameters are balanced. -/
theorem balanced_parameterTokens : Token.Balanced form.parameterTokens :=
  .intercalate (List.forall_mem_map.mpr fun parameter _ => parameter.single_tokens.toBalanced)

/-- Parameters are not taken for type parameters. -/
theorem parameterTokens_starts_notOf (rest : List Token) :
    Token.isKeyword (tokenAt (form.parameterTokens ++ ")" :: rest) 0) "of" = false := by
  unfold parameterTokens
  match form.parameters with
  | [] => exact (by decide : Token.isKeyword ")" "of" = false)
  | [parameter] =>
    rw [List.map_singleton, List.intercalate_singleton]
    exact parameter.starts_notOf _
  | parameter :: next :: others =>
    rw [List.map_cons, List.map_cons, List.intercalate_cons_cons, List.append_assoc,
      List.append_assoc]
    exact parameter.starts_notOf _

/-- Where the keyword of a function stands. -/
theorem left_keyword : Left form.tokens form.modifiers.length
    (form.keyword :: form.name.val :: "(" ::
      (form.parameterTokens ++ ")" :: asTokens form.returns)) :=
  ⟨form.modifiers, rfl, rfl⟩

/-- Where the parameters of a function start. -/
theorem left_parameters : Left form.tokens (form.modifiers.length + 2)
    ("(" :: (form.parameterTokens ++ ")" :: asTokens form.returns)) :=
  form.left_keyword.next.next

/-- The parentheses behind the name hold no type parameters. -/
theorem readGenerics_tokens (construct : Construct) :
    readGenerics construct form.tokens (form.modifiers.length + 2) =
      .ok ("", form.modifiers.length + 2) := by
  have notOf : Token.isKeyword (tokenAt form.tokens (form.modifiers.length + 2 + 1)) "of" =
      false := by
    rw [form.left_parameters.tokenAt_add 1]
    exact form.parameterTokens_starts_notOf _
  simp [readGenerics, notOf]

/-- The parameter list of a function is read, up to its return type. -/
theorem readParameterList_tokens (construct : Construct) :
    ∃ stop, readParameterList construct form.tokens (form.modifiers.length + 2) =
        .ok (form.parameters.map (·.words), stop) ∧
      Left form.tokens stop (asTokens form.returns) := by
  have opened : tokenAt form.tokens (form.modifiers.length + 2) = "(" :=
    form.left_parameters.tokenAt
  have closed := form.left_parameters.closing form.balanced_parameterTokens
  have inside : Left form.tokens (form.modifiers.length + 2 + 1)
      (form.parameterTokens ++ ")" :: asTokens form.returns) := form.left_parameters.next
  refine ⟨_, ?_, inside.advance.next⟩
  simp only [readParameterList, opened, if_true, closed, Reading.require, Reading.ok_bind,
    inside.slice, Reading.pure_eq_ok]
  rw [parameterTokens, readParameters_forms]
  rfl

/-- The return type of a function is read, up to the end of its header. -/
theorem asClause_tokens {index : Nat}
    (left : Left form.tokens index (asTokens form.returns)) :
    Reading.asClause form.tokens index =
      .ok (form.returns.map (·.type.text), form.tokens.length) := by
  obtain ⟨stop, read, atEnd⟩ := Reading.asClause_form form.returns none
    (by rwa [valueTokens, List.append_nil])
  obtain rfl : stop = form.tokens.length := by simpa [valueTokens] using atEnd.eq_sub
  exact read

/-- The signature of a written function is read in full. -/
theorem signature_read (construct : Construct) :
    Signature.read construct form.tokens form.modifiers.length =
      .ok ⟨form.name.val, "", form.parameters.map (·.words), form.returns.map (·.type.text),
        form.tokens.length⟩ := by
  have named : tokenAt form.tokens (form.modifiers.length + 1) = form.name.val :=
    form.left_keyword.next.tokenAt
  obtain ⟨stop, listed, atReturn⟩ := form.readParameterList_tokens construct
  simp only [Signature.read, named, form.name.property, if_true, form.readGenerics_tokens,
    Reading.ok_bind, listed, form.asClause_tokens atReturn, Reading.pure_eq_ok]

/-- A written function header is read as its record, with no type parameters and nothing
behind it. -/
theorem functionHeader_read (nesting : Nesting) :
    FunctionHeader.read nesting form.tokens form.modifiers.length form.isSub =
      .ok ⟨form.record nesting, "", none⟩ := by
  have before : Reading.sliceUpTo form.tokens form.modifiers.length = .ok form.modifiers := by
    have start : Left form.tokens 0 form.tokens := .start form.tokens
    simpa [Reading.sliceUpTo] using start.slice
  have behind : Reading.sliceFrom form.tokens (min form.tokens.length form.tokens.length) =
      .ok [] := by
    rw [Nat.min_self]
    exact Left.sliceFrom ⟨form.tokens, by simp, rfl⟩
  have head : nesting.functionHead ⟨form.name.val, "", form.parameters.map (·.words),
        form.returns.map (·.type.text), form.tokens.length⟩ form.isSub
        (modifiersOf form.modifiers) =
      .ok (modifiersOf form.modifiers, form.name.val, some form.returnText) := by
    unfold Nesting.functionHead returnText
    cases isSub : form.isSub with
    | true => simp [form.ordinary isSub]
    | false => rfl
  simp only [FunctionHeader.read, form.signature_read, Reading.ok_bind, before, head, behind,
    List.isEmpty_nil, if_true, Reading.pure_eq_ok, form.withModuleStatic_modifiers]
  rfl

end FunctionForm

end BasicToSharp
