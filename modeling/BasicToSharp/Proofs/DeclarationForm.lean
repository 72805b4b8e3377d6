import BasicToSharp.Proofs.RuleOutcome
import BasicToSharp.Proofs.SignatureForm

/-!
# Written declarations

A declaration is written as `Dim` and modifiers, a name, array bounds in parentheses, an `As`
clause and an initial value, each but the name only if it is wanted. `DeclarationForm` holds these
parts. What becomes of them is said part by part: the modifiers of the variable, its type, its
initial value, and with them the line and what is known of the variable afterwards.

Every such declaration is accepted. The reader takes the parts in their order, and each stops
where the next one starts.
-/

namespace BasicToSharp

open Token (Spelling Name Single)
open ByPosition (Left)

/-- A declaration as it is written. Its name is no word that can stand before a name, each bound is
one item of a list or empty, and neither its type nor its initial value starts with `New`. -/
structure DeclarationForm where
  words : List Token
  areWords : ∀ word ∈ words,
    Token.isKeyword word "dim" = true ∨ Vocabulary.isModifier word = true := by decide
  name : Name
  notDim : Token.isKeyword name.val "dim" = false := by decide
  notModifier : Vocabulary.isModifier name.val = false := by decide
  bounds : Option (List (List Token)) := none
  boundsSingle : ∀ inner ∈ bounds, ∀ bound ∈ inner, Single bound := by decide
  type : Option AsClause := none
  typePlain : ∀ clause ∈ type, Token.isKeyword (tokenAt clause.type.tokens 0) "new" = false := by
    decide
  initial : Option (List Token) := none
  initialPlain : ∀ value ∈ initial,
    value ≠ [] ∧ Token.isKeyword (tokenAt value 0) "new" = false := by decide

/-- The tokens of bounds with commas between them, in parentheses, if there are any. -/
def dimensionTokens : Option (List (List Token)) → List Token
  | none => []
  | some bounds => "(" :: ([","].intercalate bounds ++ [")"])

/-- The length of a dimension in C#, from its last index: one more, unless that is no integer of
64 bits any more. -/
def lengthText (bound : List Token) : String :=
  match Number.readInteger (String.join bound) with
  | some last =>
    Number.decimalText (if last < Number.largestInteger then last + 1 else Number.largestInteger)
  | none => Expression.render bound ++ " + 1"

/-- The enum that an initial value such as `Color.Red` belongs to. -/
def enumOwner (symbols : Symbols) (value : List Token) : Option String :=
  match value with
  | [owner, ".", _] => if symbols.isEnum owner then some owner else none
  | _ => none

namespace DeclarationForm

variable (form : DeclarationForm)

/-- The tokens of a declaration. -/
def tokens : List Token :=
  form.words ++ form.name.val ::
    (dimensionTokens form.bounds ++ (asTokens form.type ++ valueTokens form.initial))

/-- The modifiers of the variable in C#: those that stand before the name, each where it comes
first, and `static` at module level unless it is static or constant already. -/
def modifiers (nesting : Nesting) : List String :=
  let written := (form.words.filterMap Vocabulary.modifier?).eraseDups
  written ++
    if nesting.atModuleLevel ∧ "const" ∉ written ∧ "static" ∉ written then ["static"] else []

/-- The type of the variable or of its elements in C#. One that is not stated is the enum that the
initial value belongs to, or else any object. -/
def base (symbols : Symbols) : String :=
  match form.type with
  | some clause => clause.type.text
  | none => (form.initial.bind (enumOwner symbols)).getD TypeRef.defaultText

/-- The type of the variable in C#, with a comma between any two of its dimensions. -/
def typeText (symbols : Symbols) : String :=
  match form.bounds with
  | none => form.base symbols
  | some bounds =>
    form.base symbols ++ "[" ++ String.join (List.replicate (max bounds.length 1 - 1) ",") ++ "]"

/-- True of a variable that is constructed: it has neither bounds nor a value, and the file
declares its type. -/
def isConstructed (symbols : Symbols) : Bool :=
  form.bounds.isNone && form.initial.isNone && symbols.isUserType (plainName (form.base symbols))

/-- The initial value in C#: the stated one, an array of which every length is known, or a new
object. -/
def initialText (symbols : Symbols) : Option String :=
  match form.initial, form.bounds with
  | some value, _ => some (Expression.render value)
  | none, some bounds =>
    if bounds ≠ [] ∧ [] ∉ bounds then
      some ("new " ++ form.base symbols ++ "[" ++ ", ".intercalate (bounds.map lengthText) ++ "]")
    else none
  | none, none =>
    if form.isConstructed symbols then some ("new " ++ form.base symbols ++ "()") else none

/-- The line of a declaration in C#. -/
def line (symbols : Symbols) (nesting : Nesting) : String :=
  " ".intercalate (form.modifiers nesting ++ [form.typeText symbols, form.name.val]) ++
    ((form.initialText symbols).map (" = " ++ ·)).getD "" ++ ";"

/-- What is known of a declared variable. -/
def declared (symbols : Symbols) (nesting : Nesting) : Variable where
  name := form.name.val
  type := form.typeText symbols
  modifiers := form.modifiers nesting
  isArray := form.bounds.isSome
  isNew := form.isConstructed symbols
  initial := (form.initialText symbols).getD ""

end DeclarationForm

/-! ## Modifiers -/

/-- Add a modifier, unless it is there already. -/
def addNew (kept : List String) (modifier : String) : List String :=
  if kept.contains modifier then kept else kept ++ [modifier]

/-- Adding modifiers one by one adds each where it comes first. -/
theorem foldl_addNew (added kept : List String) :
    added.foldl addNew kept = kept ++ (added.filter (· ∉ kept)).eraseDups := by
  induction added generalizing kept with
  | nil => simp
  | cons modifier rest inductionHypothesis =>
    rw [List.foldl_cons, inductionHypothesis]
    by_cases there : modifier ∈ kept
    · have same : addNew kept modifier = kept := if_pos (List.contains_iff_mem.mpr there)
      simp [same, there]
    · have longer : addNew kept modifier = kept ++ [modifier] := by simp [addNew, there]
      have others : rest.filter (· ∉ kept ++ [modifier]) =
          (rest.filter (· ∉ kept)).filter (fun other => !other == modifier) := by
        rw [List.filter_filter]
        exact List.filter_congr fun other _ => by grind
      rw [longer, others, List.filter_cons_of_pos (by simpa using there), List.eraseDups_cons,
        List.append_assoc]
      rfl

/-- `Dim` stands for no modifier. -/
theorem modifier?_dim {word : Token} (isDim : Token.isKeyword word "dim" = true) :
    Vocabulary.modifier? word = none := by
  have form : Text.lookupForm word = "dim" :=
    Text.lookupForm_of_isKeyword isDim (by decide) (by decide)
  rw [Vocabulary.modifier?, Vocabulary.find, form]
  decide

/-- The words before a name are taken up to the name. -/
theorem takeModifiers_words {words : List Token} {name : Token}
    (areWords : ∀ word ∈ words,
      Token.isKeyword word "dim" = true ∨ Vocabulary.isModifier word = true)
    (notDim : Token.isKeyword name "dim" = false)
    (notModifier : Vocabulary.isModifier name = false) (kept : List String) (rest : List Token) :
    takeModifiers kept (words ++ name :: rest) =
      ((words.filterMap Vocabulary.modifier?).foldl addNew kept, words.length) := by
  induction words generalizing kept with
  | nil =>
    have noModifier : Vocabulary.modifier? name = none := by
      simpa [Vocabulary.isModifier] using notModifier
    simp [takeModifiers, notDim, noModifier]
  | cons word others inductionHypothesis =>
    obtain ⟨isWord, later⟩ := List.forall_mem_cons.mp areWords
    have taken := inductionHypothesis later
    by_cases isDim : Token.isKeyword word "dim" = true
    · simp [takeModifiers, isDim, modifier?_dim isDim, taken]
    · obtain ⟨modifier, found⟩ := Option.isSome_iff_exists.mp (isWord.resolve_left isDim)
      rw [List.cons_append, takeModifiers, if_neg isDim, found]
      simp [taken, found, addNew]

/-! ## Dimensions -/

/-- The lengths of dimensions as they are read. -/
def dimensionTexts (bounds : List (List Token)) : List String :=
  if bounds.isEmpty then [""] else bounds.map dimensionText

/-- A stated bound is written as a length. -/
theorem dimensionText_eq {bound : List Token} (filled : bound ≠ []) :
    dimensionText bound = lengthText bound := by
  have notEmpty : ¬ bound.isEmpty = true := by simpa using filled
  rw [dimensionText, if_neg notEmpty, lengthText]
  cases Number.readInteger (String.join bound) with
  | none => rfl
  | some last =>
    have same : Number.successor last =
        if last < Number.largestInteger then last + 1 else Number.largestInteger := by
      rw [Number.successor]
      split <;> omega
    exact congrArg Number.decimalText same

/-- An integer has digits. -/
theorem decimalText_ne_empty (value : Int) : Number.decimalText value ≠ "" := by
  cases value with
  | ofNat magnitude =>
    rw [Number.decimalText, ne_eq, ← String.toList_inj, String.toList_ofList]
    exact Nat.toDigits_ne_nil
  | negSucc below => simp [Number.decimalText]

/-- The text of a length is never empty. -/
theorem lengthText_ne_empty (bound : List Token) : lengthText bound ≠ "" := by
  unfold lengthText
  split
  · exact decimalText_ne_empty _
  · simp

/-- The text of a dimension is empty only where no bound is stated. -/
theorem dimensionText_isEmpty (bound : List Token) :
    (dimensionText bound).isEmpty = bound.isEmpty := by
  cases bound with
  | nil => rfl
  | cons token rest =>
    rw [dimensionText_eq (List.cons_ne_nil token rest)]
    simpa using lengthText_ne_empty (token :: rest)

/-- Every length is known exactly if there are bounds and none of them is empty. -/
theorem dimensionTexts_known (bounds : List (List Token)) :
    (dimensionTexts bounds).all (!·.isEmpty) = true ↔ bounds ≠ [] ∧ [] ∉ bounds := by
  cases bounds with
  | nil => decide
  | cons bound rest =>
    simp only [dimensionTexts, List.isEmpty_cons, Bool.false_eq_true, if_false, List.all_map,
      Function.comp_def, dimensionText_isEmpty]
    simp only [List.all_eq_true, Bool.not_eq_true', List.isEmpty_eq_false_iff, ne_eq,
      List.cons_ne_nil, not_false_eq_true, true_and]
    exact ⟨fun filled blank => filled [] blank rfl, fun notBlank part member same =>
      notBlank (same ▸ member)⟩

/-- Lengths that are all known are those of the bounds. -/
theorem dimensionTexts_eq {bounds : List (List Token)} (nonempty : bounds ≠ [])
    (filled : [] ∉ bounds) : dimensionTexts bounds = bounds.map lengthText := by
  rw [dimensionTexts, if_neg (by simpa using nonempty)]
  exact List.map_congr_left fun bound member =>
    dimensionText_eq fun blank => filled (blank ▸ member)

/-- There is a text for every dimension, and at least one. -/
theorem length_dimensionTexts (bounds : List (List Token)) :
    (dimensionTexts bounds).length = max bounds.length 1 := by
  cases bounds with
  | nil => rfl
  | cons bound rest => simp [dimensionTexts]

section Parts

variable {tokens rest : List Token} {index : Nat}

/-- Bounds are read up to what stands behind them. -/
theorem readDimensions_form {bounds : Option (List (List Token))}
    (single : ∀ inner ∈ bounds, ∀ bound ∈ inner, Single bound)
    (apart : tokenAt rest 0 ≠ "(") (left : Left tokens index (dimensionTokens bounds ++ rest)) :
    ∃ stop, readDimensions tokens index = .ok (bounds.map dimensionTexts, stop) ∧
      Left tokens stop rest := by
  cases bounds with
  | none =>
    have noParenthesis : ¬ tokenAt tokens index = "(" := by
      rw [left.tokenAt]
      exact apart
    exact ⟨index, by simp [readDimensions, noParenthesis], left⟩
  | some bounds =>
    have single := single bounds rfl
    have opened : tokenAt tokens index = "(" := left.tokenAt
    have whole : Left tokens index ("(" :: ([","].intercalate bounds ++ ")" :: rest)) := by
      simpa [dimensionTokens] using left
    have closed := whole.closing (.intercalate fun bound member => (single bound member).toBalanced)
    have inside : Left tokens (index + 1) ([","].intercalate bounds ++ ")" :: rest) := whole.next
    refine ⟨_, ?_, inside.advance.next⟩
    have parts : (if (Token.commaParts ([","].intercalate bounds)).isEmpty then [""]
        else (Token.commaParts ([","].intercalate bounds)).map dimensionText) =
          dimensionTexts bounds := by
      by_cases blank : bounds = [[]]
      · rw [blank]
        rfl
      · rw [Token.commaParts_intercalate_of_ne single blank]
        rfl
    simp only [readDimensions, opened, if_true, closed, Reading.require, Reading.ok_bind,
      inside.slice, Reading.pure_eq_ok, parts, Option.map_some]

/-- The type behind a name is read up to the initial value. -/
theorem TypeClause.read_form {clause : Option AsClause} {value : Option (List Token)}
    (plain : ∀ stated ∈ clause, Token.isKeyword (tokenAt stated.type.tokens 0) "new" = false)
    (left : Left tokens index (asTokens clause ++ valueTokens value)) :
    ∃ stop, TypeClause.read none tokens index = .ok ⟨clause.map (·.type.text), none, stop⟩ ∧
      Left tokens stop (valueTokens value) := by
  have isAs := left.isAs
  cases clause with
  | none => exact ⟨index, by simp [TypeClause.read, isAs], left⟩
  | some clause =>
    have behind : Left tokens (index + 1) (clause.type.tokens ++ valueTokens value) := left.next
    have notNew : Token.isKeyword (tokenAt tokens (index + 1)) "new" = false := by
      have starts : BasicToSharp.tokenAt (clause.type.tokens ++ valueTokens value) 0 =
          BasicToSharp.tokenAt clause.type.tokens 0 := by
        cases clause.type <;> simp [TypeTree.tokens, BasicToSharp.tokenAt]
      rw [behind.tokenAt, starts]
      exact plain clause rfl
    refine ⟨index + 1 + clause.type.tokens.length, ?_, behind.advance⟩
    simp [TypeClause.read, isAs, notNew, behind.sliceFrom,
      clause.type.typeText_tokens (clause.type.not_extendedBy_value value)]

/-- An initial value is read to the end, and supplies an enum where no type is stated. -/
theorem Given.read_form (symbols : Symbols) (hasDimensions : Bool) (type : Option String)
    {value : Option (List Token)}
    (plain : ∀ stated ∈ value, stated ≠ [] ∧ Token.isKeyword (tokenAt stated 0) "new" = false)
    (left : Left tokens index (valueTokens value)) :
    Given.read symbols hasDimensions ⟨type, none, index⟩ tokens =
      .ok ⟨type.or (value.bind (enumOwner symbols)), none, value.map Expression.render⟩ := by
  cases value with
  | none =>
    have isEnd : tokenAt tokens index = "" := left.tokenAt
    simp [Given.read, isEnd, left.ended]
  | some value =>
    obtain ⟨filled, notNew⟩ := plain value rfl
    have isEqual : tokenAt tokens index = "=" := left.tokenAt
    have behind : Left tokens (index + 1) value := left.next
    have notBuilt : wholeConstruction value = .ok none := by simp [wholeConstruction, notNew]
    have noArray : arrayLiteral value = .ok none := by simp [arrayLiteral, notNew]
    simp only [Given.read, isEqual, if_true, behind.sliceFrom, Reading.ok_bind,
      List.isEmpty_iff, filled, if_false, Given.withValue, notBuilt, noArray, Reading.pure_eq_ok,
      Option.map_some, Option.bind_some]
    rfl

end Parts

namespace DeclarationForm

variable (form : DeclarationForm)

/-- Behind the name and its bounds stands neither a type character nor a parenthesis. -/
theorem starts_behind :
    Vocabulary.typeChar? (tokenAt (asTokens form.type ++ valueTokens form.initial) 0) = none ∧
      tokenAt (asTokens form.type ++ valueTokens form.initial) 0 ≠ "(" := by
  cases form.type with
  | none =>
    cases form.initial with
    | none => decide
    | some value => exact (by decide : Vocabulary.typeChar? "=" = none ∧ "=" ≠ "(")
  | some clause =>
    have other : ∀ symbol, Token.isKeyword symbol "as" = false → clause.word.val ≠ symbol := by
      rintro _ notAs rfl
      rw [clause.word.property] at notAs
      cases notAs
    refine ⟨List.lookup_eq_none_iff.mpr fun entry member => ?_, other "(" (by decide)⟩
    have notAs : ∀ entry ∈ Vocabulary.typeChars, Token.isKeyword entry.1 "as" = false := by decide
    exact bne_iff_ne.mpr (other entry.1 (notAs entry member))

/-- What follows the name of a declared variable is no type character. -/
theorem typeChar?_behind :
    Vocabulary.typeChar? (tokenAt (dimensionTokens form.bounds ++
      (asTokens form.type ++ valueTokens form.initial)) 0) = none := by
  cases form.bounds with
  | none => exact form.starts_behind.1
  | some bounds => exact (by decide : Vocabulary.typeChar? "(" = none)

/-- The type that the parts of a declaration supply. -/
theorem base_eq (symbols : Symbols) :
    ((form.type.map (·.type.text)).or (form.initial.bind (enumOwner symbols))).getD
      TypeRef.defaultText = form.base symbols := by
  unfold base
  cases form.type <;> rfl

/-- The modifiers of a declaration, in the place where it stands. -/
theorem withLevelStatic_modifiers (nesting : Nesting) :
    nesting.withLevelStatic ((form.words.filterMap Vocabulary.modifier?).foldl addNew []) =
      form.modifiers nesting := by
  have written := foldl_addNew (form.words.filterMap Vocabulary.modifier?) []
  simp only [List.not_mem_nil, not_false_eq_true, decide_true, List.filter_true,
    List.nil_append] at written
  rw [written, modifiers, Nesting.withLevelStatic]
  simp only [Bool.and_eq_true, Bool.not_eq_true', Bool.or_eq_false_iff, List.contains_eq_mem,
    decide_eq_false_iff_not]
  split <;> simp

section Reading

variable (symbols : Symbols)

/-- A variable is constructed by default only. -/
theorem withDefault_eq (type : Option String) :
    Given.withDefault symbols form.bounds.isSome (form.base symbols)
        ⟨type, none, form.initial.map Expression.render⟩ =
      ⟨type, if form.isConstructed symbols then some ⟨form.base symbols, ""⟩ else none,
        form.initial.map Expression.render⟩ := by
  unfold Given.withDefault isConstructed
  simp only [Option.isNone_none, Bool.and_true, Option.isNone_map, Option.not_isSome]
  split <;> rfl

/-- What is written behind the name of a declared variable. -/
theorem initialText_eq (type : Option String) :
    Given.initialText (form.base symbols) (form.bounds.map dimensionTexts)
        ⟨type, if form.isConstructed symbols then some ⟨form.base symbols, ""⟩ else none,
          form.initial.map Expression.render⟩ =
      form.initialText symbols := by
  unfold Given.initialText initialText
  by_cases constructed : form.isConstructed symbols = true
  · obtain ⟨noBounds, noValue⟩ : form.bounds = none ∧ form.initial = none := by
      simp only [isConstructed, Bool.and_eq_true, Option.isNone_iff_eq_none] at constructed
      exact constructed.1
    simp only [constructed, if_true, noBounds, noValue, Construction.text, String.append_assoc]
    rfl
  · simp only [constructed, Bool.false_eq_true, if_false]
    cases form.initial with
    | some value => rfl
    | none =>
      cases form.bounds with
      | none => rfl
      | some bounds =>
        simp only [Option.map_none, Option.map_some, dimensionTexts_known]
        split
        · next known => rw [dimensionTexts_eq known.1 known.2]
        · rfl

/-- The type of an array is read off its dimensions. -/
theorem arrayType_eq {bounds : List (List Token)} (stated : form.bounds = some bounds) :
    arrayType (form.base symbols) (dimensionTexts bounds) = .ok (form.typeText symbols) := by
  have atLeastOne : ¬ max bounds.length 1 = 0 := by omega
  rw [arrayType, length_dimensionTexts, if_neg atLeastOne, typeText, stated]

/-- The line that a declaration is written as. -/
theorem declarationText_eq (nesting : Nesting) :
    declarationText (form.modifiers nesting) (form.typeText symbols) form.name.val
      (form.initialText symbols) = form.line symbols nesting := by
  unfold declarationText line
  cases form.initialText symbols <;> rfl

/-- A written declaration is read as the variable it declares and the line it becomes. -/
theorem read_tokens (nesting : Nesting) :
    DeclarationLine.read symbols nesting form.tokens =
      .ok ⟨form.declared symbols nesting, form.line symbols nesting⟩ := by
  have atName : Left form.tokens form.words.length (form.name.val ::
      (dimensionTokens form.bounds ++ (asTokens form.type ++ valueTokens form.initial))) :=
    ⟨form.words, rfl, rfl⟩
  have named : tokenAt form.tokens form.words.length = form.name.val := atName.tokenAt
  have noSuffix : Vocabulary.typeChar? (tokenAt form.tokens (form.words.length + 1)) = none := by
    rw [atName.next.tokenAt]
    exact form.typeChar?_behind
  obtain ⟨behindBounds, dimensions, atType⟩ :=
    readDimensions_form form.boundsSingle form.starts_behind.2 atName.next
  obtain ⟨behindType, clause, atValue⟩ := TypeClause.read_form form.typePlain atType
  have given := Given.read_form symbols form.bounds.isSome (form.type.map (·.type.text))
    form.initialPlain atValue
  have isNew : (if form.isConstructed symbols then some (⟨form.base symbols, ""⟩ : Construction)
      else none).isSome = form.isConstructed symbols := by
    cases form.isConstructed symbols <;> rfl
  unfold DeclarationLine.read
  rw [tokens, takeModifiers_words form.areWords form.notDim form.notModifier, ← tokens]
  simp only [named, form.name.property, if_true, noSuffix, Option.isSome_none,
    Bool.false_eq_true, if_false, dimensions, Reading.ok_bind, clause, Option.isSome_map, given,
    form.base_eq, form.withLevelStatic_modifiers, form.withDefault_eq, form.initialText_eq, isNew]
  cases stated : form.bounds with
  | none =>
    have plain : form.base symbols = form.typeText symbols := by rw [typeText, stated]
    rw [plain, form.declarationText_eq, declared, stated]
    rfl
  | some bounds =>
    simp only [Option.map_some, form.arrayType_eq symbols stated, Reading.ok_bind,
      Reading.pure_eq_ok, form.declarationText_eq, declared, stated]

end Reading

end DeclarationForm

/-- Every declaration of this form is accepted, in every draft. It becomes exactly one line, with
the modifiers, type and initial value of the form, and the variable is entered where it
belongs. -/
theorem declaration_is_translated (form : DeclarationForm) (draft : Draft) :
    (Rule.declaration form.tokens).run draft = .ok ()
        ((draft.register (form.declared draft.symbols draft.nesting)).emit
          (form.line draft.symbols draft.nesting)) ∧
      (draft.register (form.declared draft.symbols draft.nesting)).output = draft.output := by
  refine ⟨?_, ?_⟩
  · rw [Rule.declaration_run, form.read_tokens]
    rfl
  · rw [Draft.register_frame]

/-- An array of a module, with a repeated modifier and two bounds of which one is a literal. -/
theorem module_array_is_translated :
    ∃ after : Draft, (Rule.declaration ["PRIVATE", "Dim", "Private", "cells", "(", "2", ",", "n",
        ")", "As", "Integer"]).run
        { nesting := { containers := [⟨"Board", .moduleBlock, 0⟩] }, output := #["x;"] } =
          .ok () after ∧
      after.output = #["x;", "private static int[,] cells = new int[3, n + 1];"] ∧
      (after.symbols.globals.get? "cells").map (·.type) = some "int[,]" := by
  have translated := declaration_is_translated
    { words := ["PRIVATE", "Dim", "Private"]
      name := ⟨"cells", by decide⟩
      bounds := some [["2"], ["n"]]
      type := some ⟨⟨"As", by decide⟩, .plain ⟨"Integer", by decide⟩ [] 0⟩ }
    { nesting := { containers := [⟨"Board", .moduleBlock, 0⟩] }, output := #["x;"] }
  exact ⟨_, translated.1, by decide +kernel, by decide +kernel⟩

end BasicToSharp
