import BasicToSharp.Proofs.BranchHeader
import BasicToSharp.Proofs.SignatureForm
import BasicToSharp.Proofs.TrimmedLines

/-!
# Signatures in C#

The signature of a function is joined from its modifiers, its return type, its name and its
parameters. All of these start with a letter, a digit or an underscore, and so none of them is
taken for a sign, a quote or a symbol that is set tight. The line is therefore the words with
one space between them, and the parameters behind them in parentheses.

The parameters are then locals of the function. Where two of them have one name, the later type
counts.
-/

namespace BasicToSharp

open Token (quote)

/-- True of a text that starts with a word character. -/
def startsWord (text : String) : Bool := text.toList.head?.any Token.isWordChar

section StartsWord

variable {text : String}

/-- What is put behind a text that starts with a word does not matter. -/
theorem startsWord_append (starts : startsWord text = true) (more : String) :
    startsWord (text ++ more) = true := by
  obtain ⟨c, isFirst, isWord⟩ := (Option.any_eq_true _ _).mp starts
  obtain ⟨rest, chars⟩ := List.head?_eq_some_iff.mp isFirst
  simpa [startsWord, String.toList_append, chars] using isWord

/-- The first of joined texts decides how they start. -/
theorem startsWord_intercalate {first : String} (starts : startsWord first = true)
    (separator : String) (rest : List String) :
    startsWord (separator.intercalate (first :: rest)) = true := by
  cases rest with
  | nil => simpa using starts
  | cons next rest =>
    rw [String.intercalate_cons_cons, String.append_assoc]
    exact startsWord_append starts _

/-- A name starts with a word. -/
theorem startsWord_of_identifier (named : Token.isIdentifier text = true) :
    startsWord text = true := by
  have fits := Token.fits_of_identifier named
  simp only [Token.Kind.fits, Bool.and_eq_true, List.all_eq_true] at fits
  cases chars : text.toList with
  | nil => simp [chars] at fits
  | cons c rest => simp [startsWord, chars, fits.2 c (by simp [chars])]

/-- A text that starts with a word character is no symbol. -/
theorem ne_of_startsWord (starts : startsWord text = true) (symbol : String)
    (isSymbol : startsWord symbol = false) : text ≠ symbol := by
  rintro rfl
  rw [isSymbol] at starts
  cases starts

/-- A written type starts with a word. -/
theorem TypeTree.startsWord_text (tree : TypeTree) : startsWord tree.text = true := by
  have name : ∀ (head : Token.Name) (path : List Token.Name),
      startsWord (nameText head path) = true := by
    intro head path
    have named := startsWord_of_identifier head.property
    unfold nameText
    split
    · cases found : Vocabulary.dataType? head.val with
      | none => exact named
      | some type => exact Vocabulary.WordTable.of_lookup (by decide) found
    · rw [String.join_cons]
      exact startsWord_append named _
  cases tree with
  | plain head path ranks => exact startsWord_append (name head path) _
  | applied head path word arguments ranks =>
    simp only [TypeTree.text, String.append_assoc]
    exact startsWord_append (name head path) _

/-- The type of a clause starts with a word, and so does the default. -/
theorem startsWord_asText (clause : Option AsClause) : startsWord (asText clause) = true := by
  cases clause with
  | none => exact (by decide : startsWord "object" = true)
  | some clause => exact clause.type.startsWord_text

/-- C# has two passing words. -/
theorem ParameterForm.passing_sharp (form : ParameterForm) :
    ∀ word ∈ form.passing.flatMap (·.kind.sharp), word = "ref" ∨ word = "params" := by
  intro word member
  obtain ⟨passing, -, inSharp⟩ := List.mem_flatMap.mp member
  generalize passing.kind = kind at inSharp
  cases kind <;> simp_all [Passing.sharp]

/-- A written parameter starts with a word. -/
theorem ParameterForm.startsWord_words (form : ParameterForm) :
    startsWord (" ".intercalate form.words) = true := by
  have typed : startsWord form.typeText = true := startsWord_append (startsWord_asText form.type) _
  have sharp : ∀ word ∈ form.passing.flatMap (·.kind.sharp), startsWord word = true := by
    intro word member
    rcases form.passing_sharp word member with rfl | rfl <;> decide
  unfold words
  cases passing : form.passing.flatMap (·.kind.sharp) with
  | nil => exact startsWord_intercalate typed _ _
  | cons first rest =>
    exact startsWord_intercalate (sharp first (by rw [passing]; exact List.mem_cons_self)) _ _

end StartsWord

/-! ## The line -/

/-- The spacing of signatures. -/
def Spacing.signature : Spacing :=
  { Spacing.closeParentheses with tightBefore := ["(", ")", ","] }

section Line

variable {before : Option Token} {word : Token}

namespace Spacing

/-- No space stands before a symbol that is set tight. -/
theorem signature_gap_tight (previous : Token) {symbol : Token}
    (tight : symbol ∈ signature.tightBefore) : signature.gap before previous symbol = "" := by
  have none : signature.separates previous symbol false = false := by
    rw [separates, List.contains_iff_mem.mpr tight]
    simp
  rw [gap, none, Bool.and_false, if_neg Bool.false_ne_true]

/-- Words are set apart from each other and from the comma before them. -/
theorem signature_gap_word {previous : Token} (loose : previous ∉ ["-", "+", "("])
    (starts : startsWord word = true) : signature.gap before previous word = " " := by
  have notOpening := ne_of_startsWord starts "(" (by decide)
  have notClosing := ne_of_startsWord starts ")" (by decide)
  have notComma := ne_of_startsWord starts "," (by decide)
  simp only [List.mem_cons, List.not_mem_nil, or_false, not_or] at loose
  simp [gap, isSign, separates, signature, closeParentheses, loose, notOpening, notClosing,
    notComma]

/-- Nothing stands behind an opening parenthesis. -/
theorem signature_gap_opening (next : Token) : signature.gap before "(" next = "" := by
  simp [gap, separates, signature, closeParentheses]

/-- A word is written, then the gap before what follows it. -/
theorem lineFrom_startsWord (starts : startsWord word = true) (next : Token) (rest : List Token) :
    signature.lineFrom before (word :: next :: rest) =
      word ++ signature.gap before word next ++ signature.lineFrom (some word) (next :: rest) :=
  lineFrom_cons signature (ne_of_startsWord starts quote (by decide)) rest

/-- A word is no sign and no parenthesis. -/
theorem loose_of_startsWord (starts : startsWord word = true) : word ∉ ["-", "+", "("] := by
  simp [ne_of_startsWord starts "-" (by decide), ne_of_startsWord starts "+" (by decide),
    ne_of_startsWord starts "(" (by decide)]

/-- Words before a parenthesis are written with one space between them. -/
theorem lineFrom_words {words : List Token} (filled : words ≠ [])
    (starts : ∀ word ∈ words, startsWord word = true) (before : Option Token)
    (rest : List Token) :
    ∃ last, signature.lineFrom before (words ++ "(" :: rest) =
      " ".intercalate words ++ signature.lineFrom last ("(" :: rest) := by
  induction words generalizing before with
  | nil => exact absurd rfl filled
  | cons first later inductionHypothesis =>
    obtain ⟨here, there⟩ := List.forall_mem_cons.mp starts
    cases later with
    | nil =>
      refine ⟨some first, ?_⟩
      rw [List.singleton_append, lineFrom_startsWord here, signature_gap_tight first (by decide),
        String.append_empty, String.intercalate_singleton]
    | cons second others =>
      obtain ⟨last, written⟩ := inductionHypothesis nofun there (some first)
      refine ⟨last, ?_⟩
      rw [List.cons_append, List.cons_append, lineFrom_startsWord here,
        signature_gap_word (loose_of_startsWord here) (there second List.mem_cons_self),
        ← List.cons_append, written, String.intercalate_cons_cons]
      simp only [String.append_assoc]

/-- Separated parameters start with the first one. -/
theorem separateParameters_starts (parameter : List Token) (rest : List (List Token)) :
    ∃ more, separateParameters (parameter :: rest) = " ".intercalate parameter :: more := by
  cases rest with
  | nil => exact ⟨_, rfl⟩
  | cons next others => exact ⟨_, rfl⟩

/-- Parameters are written with a comma and one space between them. -/
theorem lineFrom_parameters {parameters : List (List Token)}
    (starts : ∀ parameter ∈ parameters, startsWord (" ".intercalate parameter) = true)
    (before : Option Token) :
    signature.lineFrom before (separateParameters parameters ++ [")"]) =
      ", ".intercalate (parameters.map (" ".intercalate ·)) ++ ")" := by
  induction parameters generalizing before with
  | nil => exact lineFrom_single signature ")"
  | cons parameter later inductionHypothesis =>
    obtain ⟨here, there⟩ := List.forall_mem_cons.mp starts
    cases later with
    | nil =>
      rw [separateParameters, List.singleton_append, lineFrom_startsWord here,
        signature_gap_tight _ (by decide), lineFrom_single]
      simp
    | cons next others =>
      have written := inductionHypothesis there (some ",")
      obtain ⟨more, split⟩ := separateParameters_starts next others
      have parted : separateParameters (parameter :: next :: others) =
          " ".intercalate parameter :: "," :: separateParameters (next :: others) := rfl
      rw [split, List.cons_append] at written
      rw [parted, split, List.cons_append, List.cons_append, List.cons_append,
        lineFrom_startsWord here, signature_gap_tight _ (by decide),
        lineFrom_cons signature (by decide),
        signature_gap_word (by decide) (there next List.mem_cons_self), written,
        List.map_cons, List.map_cons, List.map_cons, String.intercalate_cons_cons]
      simp only [String.append_assoc, String.append_empty]
      rfl

/-- An opening parenthesis is written without a gap behind it. -/
theorem lineFrom_opening (before : Option Token) (next : Token) (rest : List Token) :
    signature.lineFrom before ("(" :: next :: rest) =
      "(" ++ signature.lineFrom (some "(") (next :: rest) := by
  rw [lineFrom_cons signature (by decide), signature_gap_opening, String.append_empty]

end Spacing

/-- Modifiers start with words. -/
theorem modifiersOf_startsWord (tokens : List Token) :
    ∀ modifier ∈ modifiersOf tokens, startsWord modifier = true := by
  intro modifier member
  obtain ⟨word, -, found⟩ := List.mem_filterMap.mp member
  exact Vocabulary.WordTable.of_lookup (by decide) found

namespace FunctionForm

variable (form : FunctionForm) (nesting : Nesting)

/-- The words before the parameters all start with a word character. -/
theorem words_startWord :
    ∀ word ∈ form.sharpModifiers nesting ++ [form.returnText, form.name.val],
      startsWord word = true := by
  have returned : startsWord form.returnText = true := by
    unfold returnText
    split
    · decide
    · exact startsWord_asText form.returns
  have named := startsWord_of_identifier form.name.property
  intro word member
  rcases List.mem_append.mp member with isModifier | isOther
  · rw [sharpModifiers, List.mem_append] at isModifier
    rcases isModifier with isWritten | isStatic
    · exact modifiersOf_startsWord form.modifiers word isWritten
    · split at isStatic
      · rw [List.mem_singleton.mp isStatic]
        decide
      · cases isStatic
  · simp only [List.mem_cons, List.not_mem_nil, or_false] at isOther
    rcases isOther with rfl | rfl
    · exact returned
    · exact named

/-- The line starts with a word and ends with a parenthesis. -/
theorem trimmed_line : Text.Trimmed (form.line nesting).toList := by
  have starts : startsWord (form.line nesting) = true := by
    have words := form.words_startWord nesting
    unfold line
    cases leading : form.sharpModifiers nesting ++ [form.returnText, form.name.val] with
    | nil => simp at leading
    | cons first rest =>
      rw [leading] at words
      simp only [String.append_assoc]
      exact startsWord_append (startsWord_intercalate (words first List.mem_cons_self) " " rest) _
  refine Text.trimmed_iff.mpr ⟨fun c isFirst => ?_, ?_⟩
  · rw [startsWord, isFirst] at starts
    exact Token.isWordChar_visible starts
  · exact Text.endsVisible_append (by decide) (by decide) _

/-- The signature of a written function is its line in C#. -/
theorem signature_record :
    (form.record nesting).bindParameters.signature "" = form.line nesting := by
  have tokens : (form.record nesting).bindParameters.signature "" =
      Spacing.signature.join ((form.sharpModifiers nesting ++ [form.returnText, form.name.val]) ++
        "(" :: (separateParameters (form.parameters.map (·.words)) ++ [")"])) := by
    rw [FunctionRecord.bindParameters_eq]
    simp [FunctionRecord.signature, record, Spacing.signature]
  have parameters : ∀ parameter ∈ form.parameters.map (·.words),
      startsWord (" ".intercalate parameter) = true :=
    List.forall_mem_map.mpr fun parameter _ => parameter.startsWord_words
  obtain ⟨last, words⟩ := Spacing.lineFrom_words (by simp) (form.words_startWord nesting) none
    (separateParameters (form.parameters.map (·.words)) ++ [")"])
  have inside := Spacing.lineFrom_parameters parameters (some "(")
  have written : Spacing.signature.lineFrom none
      ((form.sharpModifiers nesting ++ [form.returnText, form.name.val]) ++
        "(" :: (separateParameters (form.parameters.map (·.words)) ++ [")"])) =
      form.line nesting := by
    rw [words]
    cases behind : separateParameters (form.parameters.map (·.words)) ++ [")"] with
    | nil => simp at behind
    | cons next rest =>
      rw [Spacing.lineFrom_opening, ← behind, inside, line, List.map_map]
      simp only [String.append_assoc]
      rfl
  rw [tokens, Spacing.join_eq, written, Text.trim, (form.trimmed_line nesting).trimBlanks_eq,
    String.ofList_toList]

end FunctionForm

end Line

/-! ## Locals -/

/-- A name declared again takes the new type, and a new one is entered. -/
theorem Table.get?_redeclare (locals : Table Variable) (declared : Variable) (name : String) :
    (locals.redeclare declared).get? name =
      if name = declared.name then
        some (((locals.get? name).map ({ · with type := declared.type })).getD declared)
      else locals.get? name := by
  unfold Table.redeclare
  split
  · next held =>
    rw [Table.get?_adjust]
    split
    · next same =>
      subst same
      obtain ⟨old, found⟩ := Option.isSome_iff_exists.mp held
      simp [found]
    · rfl
  · next fresh =>
    rw [Table.get?_enter]
    split
    · next same =>
      subst same
      have none : locals.get? declared.name = none := by simpa [Table.contains] using fresh
      simp [none]
    · simp

/-- Of several declarations of one name the last gives the type. -/
theorem Table.get?_declareAll (bindings : List (String × String)) (name : String) :
    (bindings.foldl (fun locals (type, name) => locals.redeclare { name := name, type := type })
        ({} : Table Variable)).get? name =
      (bindings.reverse.find? (·.2 = name)).map fun binding =>
        { name := name, type := binding.1 } := by
  induction bindings using List.reverseRecOn with
  | nil => rfl
  | append_singleton rest last inductionHypothesis =>
    obtain ⟨type, declared⟩ := last
    rw [List.foldl_append, List.foldl_cons, List.foldl_nil, Table.get?_redeclare,
      inductionHypothesis, List.reverse_concat, List.find?_cons]
    by_cases same : declared = name
    · subst same
      cases rest.reverse.find? (·.2 = declared) <;> simp
    · have other : name ≠ declared := fun equal => same equal.symm
      simp [same, other]

namespace ParameterForm

variable (form : ParameterForm)

/-- The type of a parameter is not taken for a passing word of C#. -/
theorem typeText_notPassing : form.typeText ≠ "ref" ∧ form.typeText ≠ "params" := by
  unfold typeText
  cases form.isArray with
  | true =>
    have ending : ∀ {word : String}, word.toList.getLast? ≠ some ']' →
        asText form.type ++ "[]" ≠ word := by
      rintro word other rfl
      simp at other
    exact ⟨ending (by decide), ending (by decide)⟩
  | false =>
    simp only [Bool.false_eq_true, if_false, String.append_empty]
    cases type : form.type with
    | none => exact (by decide : "object" ≠ "ref" ∧ "object" ≠ "params")
    | some clause => exact form.typeNamed clause type

/-- A parameter is bound to its C# type. -/
theorem parameterBinding_words :
    parameterBinding form.words = some (form.typeText, form.name.val) := by
  have skipped : ∀ word ∈ form.passing.flatMap (·.kind.sharp),
      (word == "ref" || word == "params") = true := by
    intro word member
    rcases form.passing_sharp word member with rfl | rfl <;> decide
  unfold parameterBinding words
  rw [List.append_assoc, List.dropWhile_append_of_pos skipped]
  simp [form.typeText_notPassing]

end ParameterForm

/-- The locals of a function that has just been started are its parameters, each with its C#
type; of several parameters with one name the last counts. -/
theorem FunctionForm.local?_record (form : FunctionForm) (nesting : Nesting) (name : String) :
    (form.record nesting).bindParameters.local? name =
      (form.parameters.reverse.find? (·.name.val = name)).map fun parameter =>
        { name := name, type := parameter.typeText } := by
  have bindings : (form.record nesting).parameters.filterMap parameterBinding =
      form.parameters.map fun parameter => (parameter.typeText, parameter.name.val) := by
    simp only [record, List.filterMap_map, Function.comp_def,
      ParameterForm.parameterBinding_words, List.filterMap_eq_map']
  rw [FunctionRecord.bindParameters_eq, bindings]
  refine (Table.get?_declareAll _ name).trans ?_
  rw [← List.map_reverse, List.find?_map, Option.map_map]
  rfl

/-! ## The rule -/

/-- The lines that start a function: a blank one if needed, the signature and the brace. -/
theorem Draft.startFunction_lines (draft : Draft) (record : FunctionRecord) (generics : String) :
    (draft.startFunction record generics none).output = draft.output ++
      ((if draft.needsGap then [""] else []) ++
        [record.bindParameters.signature generics, "\x7b"]).toArray := by
  apply Array.toList_inj.mp
  simp only [Draft.startFunction, commentEnding, String.append_empty]
  split <;> simp [Draft.openBrace, Draft.resymbol, Draft.renest]

/-- Signatures are translated part by part. On every draft, the header of a function or sub
that is no entry point and no constructor is converted: behind at most one blank line its
signature line is written and a brace opened, and nothing is reported. The function is entered
among the symbols and made the current one, with its parameters, under their C# types, as its
locals. -/
theorem signatures_are_translated (form : FunctionForm) (draft : Draft) :
    ∃ record : FunctionRecord,
      (Rule.function form.tokens form.modifiers.length form.isSub).run draft =
        .ok () { draft with
          output := draft.output ++
            ((if draft.needsGap then [""] else []) ++ [form.line draft.nesting, "\x7b"]).toArray
          symbols := draft.symbols.addFunction record
          nesting := draft.nesting.enterFunction record } ∧
      record.name = form.name.val ∧
      record.modifiers = form.sharpModifiers draft.nesting ∧
      record.returnType = some form.returnText ∧
      record.parameters = form.parameters.map (·.words) ∧
      ∀ name, record.local? name =
        (form.parameters.reverse.find? (·.name.val = name)).map fun parameter =>
          { name := name, type := parameter.typeText } := by
  have written := form.signature_record draft.nesting
  refine ⟨(form.record draft.nesting).bindParameters, ?_, ?_, ?_, ?_, ?_,
    form.local?_record draft.nesting⟩
  · rw [Rule.function_run, form.functionHeader_read, ← written, ← Draft.startFunction_lines]
    exact congrArg _ (draft.startFunction_frame (form.record draft.nesting) "" none)
  all_goals rw [FunctionRecord.bindParameters_eq]; rfl

/-- A member of a module with each kind of parameter: passed by reference, an array of an
applied type with a call for its default, and a parameter array without a type. -/
def FunctionForm.member : FunctionForm where
  modifiers := ["Public", "Overloads"]
  keyword := "Function"
  isSub := false
  name := ⟨"Find", by decide⟩
  ordinary := nofun
  parameters :=
    [{ passing := [⟨.byRef, ⟨"byref", by decide⟩⟩]
       name := ⟨"key", by decide⟩
       notPassing := by intro kind; cases kind <;> decide
       notOf := by decide
       isArray := false
       type := some ⟨⟨"AS", by decide⟩, .plain ⟨"String", by decide⟩ [] 0⟩
       typeNamed := by decide
       default := none
       defaultSingle := nofun },
     { passing := [⟨.optional, ⟨"Optional", by decide⟩⟩, ⟨.byVal, ⟨"ByVal", by decide⟩⟩]
       name := ⟨"bags", by decide⟩
       notPassing := by intro kind; cases kind <;> decide
       notOf := by decide
       isArray := true
       type := some ⟨⟨"As", by decide⟩, .applied ⟨"Bag", by decide⟩ [] ⟨"Of", by decide⟩
         (.last (.plain ⟨"Long", by decide⟩ [] 0)) 0⟩
       typeNamed := by decide
       default := some ["f", "(", "1", ",", "\"", "a,b", "\"", ")"]
       defaultSingle := by decide },
     { passing := [⟨.paramArray, ⟨"ParamArray", by decide⟩⟩]
       name := ⟨"rest", by decide⟩
       notPassing := by intro kind; cases kind <;> decide
       notOf := by decide
       isArray := true
       type := none
       typeNamed := nofun
       default := none
       defaultSingle := nofun }]
  returns := some ⟨⟨"As", by decide⟩, .plain ⟨"Boolean", by decide⟩ [] 1⟩

/-- A member of a module with parameters passed in all ways. -/
theorem member_signature_is_translated :
    ∃ after : Draft, (Rule.function ["Public", "Overloads", "Function", "Find", "(", "byref", "key",
        "AS", "String", ",", "Optional", "ByVal", "bags", "(", ")", "As", "Bag", "(", "Of",
        "Long", ")", "=", "f", "(", "1", ",", "\"", "a,b", "\"", ")", ",", "ParamArray", "rest",
        "(", ")", ")", "As", "Boolean", "(", ")"] 2 false).run
        { nesting := { containers := [⟨"Tools", .moduleBlock, 0⟩] }, output := #["x;"] } =
          .ok () after ∧
      after.output = #["x;", "",
        "public static bool[] Find(ref string key, Bag<long>[] bags = f(1, \"a,b\"), " ++
          "params object[] rest)", "\x7b"] ∧
      (after.nesting.function.bind (·.local? "bags")).map (·.type) = some "Bag<long>[]" := by
  obtain ⟨record, ran, -, -, -, -, locals⟩ := signatures_are_translated FunctionForm.member
    { nesting := { containers := [⟨"Tools", .moduleBlock, 0⟩] }, output := #["x;"] }
  have line : FunctionForm.member.line { containers := [⟨"Tools", .moduleBlock, 0⟩] } =
      "public static bool[] Find(ref string key, Bag<long>[] bags = f(1, \"a,b\"), " ++
        "params object[] rest)" := by decide +kernel
  refine ⟨_, ran, by rw [line]; rfl, ?_⟩
  rw [Nesting.enterFunction, Option.bind_some, locals]
  decide +kernel

end BasicToSharp
