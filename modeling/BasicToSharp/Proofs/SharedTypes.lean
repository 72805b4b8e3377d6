import BasicToSharp.Proofs.DeclaredNames

/-!
# Types shared by declared names

`Dim a, b As Integer` declares two names, and `a` takes the type that `b` states. In general a
name with neither a type nor an initial value takes the type of the next name that has a clause.

Such a line becomes one line for each name. Each is the keyword and the name as it is written,
and what follows is a type that was found by a search. So a name can be misled: it takes no type
because its own bounds hold an `As` or a `=`, or it takes for a type what stands behind an `As`
in the bounds or in the initial value of a later name. `Misled` says when one of the names is,
and that is the only way in which a line comes out wrong.
-/

namespace BasicToSharp

open Token (tokenize Spelling quote quoteChar insideAfter openAfter Lexed IsCode)
open SourceLine (shareTypes typeClause splitDeclaration)

/-- The type that a name takes by what a search finds in it and in the names behind it. -/
def takenType (form : DeclaredForm) (later : List DeclaredForm) : Option (List Token) :=
  if form.isBare && !form.hasStray then later.findSome? (soughtType ·.tokens) else none

/-- True of names of which one takes another type than it should. -/
def Misled : List DeclaredForm → Prop
  | [] => False
  | form :: later => takenType form later ≠ sharedType form later ∨ Misled later

instance decidableMisled : (forms : List DeclaredForm) → Decidable (Misled forms)
  | [] => .isFalse id
  | form :: later =>
    have := decidableMisled later
    inferInstanceAs (Decidable (takenType form later ≠ sharedType form later ∨ Misled later))

/-- Names are not misled where no search goes astray. -/
theorem not_misled_of_clear {forms : List DeclaredForm}
    (clear : ∀ form ∈ forms, form.isClear = true) : ¬ Misled forms := by
  have sought : ∀ {later : List DeclaredForm}, (∀ form ∈ later, form.isClear = true) →
      later.findSome? (soughtType ·.tokens) = later.findSome? DeclaredForm.ownType := by
    intro later clear
    induction later with
    | nil => rfl
    | cons form later inductionHypothesis =>
      obtain ⟨here, behind⟩ := List.forall_mem_cons.mp clear
      rw [List.findSome?_cons, List.findSome?_cons, form.soughtType_clear here,
        inductionHypothesis behind]
  induction forms with
  | nil => exact id
  | cons form later inductionHypothesis =>
    obtain ⟨here, behind⟩ := List.forall_mem_cons.mp clear
    have notStray : form.isBare = true → form.hasStray = false := by
      simp only [DeclaredForm.isClear, Bool.and_eq_true, Bool.not_eq_true'] at here
      intro bare
      simpa [bare] using here.2
    have same : takenType form later = sharedType form later := by
      rw [takenType, sharedType, sought behind]
      cases bare : form.isBare with
      | true => rw [notStray bare]; rfl
      | false => rfl
    exact fun misled => misled.elim (fun differs => differs same) (inductionHypothesis behind)

/-! ## Reading a type that was found -/

section Reading

variable {tokens clause front rest : List Token} {token : Token}

/-- No `As` is found where everything is in literals. -/
theorem behindAs_quoted (quoted : ∀ marked ∈ Token.mark tokens, marked.quoted = true) :
    behindAs tokens = none := by
  rw [behindAs, Option.map_eq_none_iff, Token.findKeyword, Token.findUnquoted,
    List.findIdx?_eq_none_iff]
  intro marked member
  rw [quoted marked member]
  rfl

/-- A literal in front holds no `As`. -/
theorem behindAs_literal {text : List Char} (escaped : Token.Escaped text) (rest : List Token) :
    behindAs (quote :: (Token.spanTokens text ++ quote :: rest)) = behindAs rest := by
  have closed : insideAfter false (quote :: (Token.spanTokens text ++ [quote])) = false := by
    have inside := @Token.insideAfter_of_not_mem true _ fun member =>
      escaped.spanTokens_ne_quote quote member rfl
    simp [Token.insideAfter_append, inside]
  have none : behindAs (quote :: (Token.spanTokens text ++ [quote])) = none := by
    refine behindAs_quoted ?_
    rw [escaped.mark_literal, Token.mark, Token.markFrom, List.append_nil]
    exact Token.quoted_of_mem_closedMarks
  have split : quote :: (Token.spanTokens text ++ quote :: rest) =
      (quote :: (Token.spanTokens text ++ [quote])) ++ rest := by simp
  rw [split, behindAs_append closed, none]
  rfl

/-- What stands behind an `As` outside literals is read as it would be on its own. -/
theorem Token.Lexed.behindAs {behind : List Token} (lexed : Lexed tokens)
    (found : behindAs tokens = some behind) : Lexed behind := by
  induction lexed with
  | nil => cases found
  | @code kind token rest plain fits other later inductionHypothesis =>
    rw [behindAs_cons (Token.Kind.ne_quote plain fits)] at found
    split at found
    · obtain rfl := Option.some.inj found
      exact later
    · exact inductionHypothesis found
  | literal escaped later inductionHypothesis =>
    rw [behindAs_literal escaped] at found
    exact inductionHypothesis found
  | unclosed escaped visible =>
    rw [behindAs_quoted (escaped.mark_unclosed ▸ Token.quoted_of_mem_literalMarks)] at found
    cases found

/-- Before the first quote there is only code. -/
theorem Token.Lexed.isCode_front (lexed : Lexed (front ++ rest)) (plain : quote ∉ front) :
    ∀ token ∈ front, IsCode token := by
  induction front with
  | nil => exact fun token member => absurd member List.not_mem_nil
  | cons first front inductionHypothesis =>
    obtain ⟨other, plainLater⟩ := not_or.mp (mt List.mem_cons.mpr plain)
    generalize same : first :: front ++ rest = tokens at lexed
    cases lexed with
    | nil => cases same
    | code notQuote fits notSpace later =>
      obtain ⟨rfl, rfl⟩ := List.cons.inj same
      exact List.forall_mem_cons.mpr
        ⟨⟨_, notQuote, fits, notSpace⟩, inductionHypothesis later plainLater⟩
    | literal => exact absurd (List.cons.inj same).1.symm other
    | unclosed => exact absurd (List.cons.inj same).1.symm other

/-- The characters of tokens are among those of the tokens joined. -/
theorem Token.mem_toList_intercalate {c : Char} (member : token ∈ tokens)
    (inside : c ∈ token.toList) : c ∈ (" ".intercalate tokens).toList := by
  induction tokens with
  | nil => exact absurd member List.not_mem_nil
  | cons first rest inductionHypothesis =>
    cases rest with
    | nil =>
      obtain rfl := List.mem_singleton.mp member
      rwa [String.intercalate_singleton]
    | cons next rest =>
      rw [String.intercalate_cons_cons, String.toList_append, String.toList_append]
      rcases List.mem_cons.mp member with rfl | later
      · exact List.mem_append_left _ (List.mem_append_left _ inside)
      · exact List.mem_append_right _ (inductionHypothesis later)

/-- What a search finds is all code, unless it holds a quote. -/
theorem soughtType_isCode (lexed : Lexed tokens) (found : soughtType tokens = some clause)
    (plain : quote ∉ clause) : ∀ token ∈ clause, IsCode token := by
  obtain ⟨behind, isBehind, taken⟩ := Option.bind_eq_some_iff.mp found
  obtain rfl : (behind.takeWhile (· != "=")).filter (!Token.isKeyword · "new") = clause := by
    simp only [clauseBehind] at taken
    split at taken
    · cases taken
    · exact Option.some.inj taken
  have plainFront : quote ∉ behind.takeWhile (· != "=") :=
    fun member => plain (List.mem_filter.mpr ⟨member, by decide⟩)
  have lexedBehind := lexed.behindAs isBehind
  rw [← @List.takeWhile_append_dropWhile _ (· != "=") behind] at lexedBehind
  exact fun token member =>
    lexedBehind.isCode_front plainFront token (List.mem_filter.mp member).1

/-- What a search finds is read as a type exactly when it is the type. It is written with a space
behind every token, so that a literal in it may come out different, but it stays a literal. -/
theorem tokenize_soughtType (lexed : Lexed tokens) (found : soughtType tokens = some clause)
    (tree : TypeTree) :
    tokenize (" ".intercalate clause) = tree.tokens ↔ clause = tree.tokens := by
  constructor
  · intro same
    have plain : quote ∉ clause := by
      intro member
      have isQuote : quote ∈ tokenize (" ".intercalate clause) :=
        Token.quote_mem_tokenize (Token.mem_toList_intercalate member (by decide))
      rw [same] at isQuote
      exact absurd rfl (tree.mem_tokens quote isQuote).isCode.ne_quote
    rw [← same, Token.tokenize_intercalate (soughtType_isCode lexed found plain)]
  · rintro rfl
    exact Token.tokenize_intercalate fun token member => (tree.mem_tokens token member).isCode

end Reading

/-! ## The lines -/

/-- What is read of an added type, if there is one. -/
def addedTokens : Option (List Token) → List Token
  | none => []
  | some clause => "As" :: tokenize (" ".intercalate clause)

/-- The tokens of the lines that the names of one line become. -/
def takenLines (keyword : Token) : List DeclaredForm → List (List Token)
  | [] => []
  | form :: later =>
    (keyword :: (form.tokens ++ addedTokens (takenType form later))) :: takenLines keyword later

section Lines

variable {forms later : List DeclaredForm} {form : DeclaredForm} {keyword : Token}

/-- A type that is taken is what is sought in a later piece. -/
theorem takenType_sought {clause : List Token} (taken : takenType form later = some clause) :
    ∃ other ∈ later, soughtType other.tokens = some clause := by
  unfold takenType at taken
  split at taken
  · exact List.exists_of_findSome?_eq_some taken
  · cases taken

/-- A type that is shared is stated as a type. -/
theorem sharedType_stated {type : List Token} (shared : sharedType form later = some type) :
    ∃ tree : TypeTree, tree.tokens = type := by
  unfold sharedType at shared
  split at shared
  · obtain ⟨other, -, stated⟩ := List.exists_of_findSome?_eq_some shared
    obtain ⟨clause, -, isType⟩ := Option.map_eq_some_iff.mp stated
    exact ⟨clause.type, isType⟩
  · cases shared

/-- A name is written with the type that it should take exactly when it takes that type. -/
theorem addedTokens_eq_iff (lexed : ∀ other ∈ later, Lexed other.tokens) :
    addedTokens (takenType form later) = sharedTokens (sharedType form later) ↔
      takenType form later = sharedType form later := by
  cases taken : takenType form later with
  | none => cases sharedType form later <;> simp [addedTokens, sharedTokens]
  | some clause =>
    cases shared : sharedType form later with
    | none => simp [addedTokens, sharedTokens]
    | some type =>
      obtain ⟨other, member, found⟩ := takenType_sought taken
      obtain ⟨tree, rfl⟩ := sharedType_stated shared
      simpa [addedTokens, sharedTokens] using tokenize_soughtType (lexed other member) found tree

/-- The lines are the declarations exactly if no name is misled. -/
theorem takenLines_eq_iff (lexed : ∀ form ∈ forms, Lexed form.tokens) :
    takenLines keyword forms = declarations keyword forms ↔ ¬ Misled forms := by
  induction forms with
  | nil => simp [takenLines, declarations, Misled]
  | cons form later inductionHypothesis =>
    obtain ⟨-, behind⟩ := List.forall_mem_cons.mp lexed
    simp [takenLines, declarations, Misled, addedTokens_eq_iff behind, inductionHypothesis behind]

/-- Every name is written behind the keyword as it stands. -/
theorem takenLines_starts (keyword : Token) (forms : List DeclaredForm) :
    List.Forall₂ (fun form line => keyword :: form.tokens <+: line) forms
      (takenLines keyword forms) := by
  induction forms with
  | nil => exact .nil
  | cons form later inductionHypothesis =>
    exact .cons (List.prefix_append (keyword :: form.tokens) _) inductionHypothesis

/-- The clause that is shared is the first one sought in the later pieces. -/
theorem findSome?_typeClause {pieces : List String}
    (read : pieces.map tokenize = forms.map (·.tokens)) :
    (pieces.map fun piece => (piece, typeClause piece)).findSome? Prod.snd =
      (forms.findSome? (soughtType ·.tokens)).map (" ".intercalate ·) := by
  induction forms generalizing pieces with
  | nil =>
    obtain rfl := List.map_eq_nil_iff.mp read
    rfl
  | cons form later inductionHypothesis =>
    obtain ⟨piece, rest, rfl, here, behind⟩ := List.map_eq_cons_iff.mp read
    rw [List.map_cons, List.findSome?_cons, List.findSome?_cons, inductionHypothesis behind]
    simp only [SourceLine.typeClause_eq, here]
    cases soughtType form.tokens <;> rfl

/-- A line is read as its parts, an added type among them. -/
theorem tokenize_line (code : IsCode keyword) {piece : String}
    (closed : insideAfter false (tokenize piece) = false) (clause : Option (List Token)) :
    tokenize (keyword ++ " " ++ piece ++ (match clause.map (" ".intercalate ·) with
      | some type => " As " ++ type
      | none => "")) = keyword :: (tokenize piece ++ addedTokens clause) := by
  have start : tokenize (keyword ++ " " ++ piece) = keyword :: tokenize piece := by
    rw [Token.tokenize_append code.closed, code.tokenize_eq, List.singleton_append]
  cases clause with
  | none => simp [start, addedTokens]
  | some clause =>
    have closedFront : openAfter false (keyword ++ " " ++ piece).toList = false := by
      rw [← Token.insideAfter_tokenize, start, Token.insideAfter_cons, if_neg code.ne_quote, closed]
    have isCode : IsCode "As" := .of_word (by decide)
    have parts : keyword ++ " " ++ piece ++ (" As " ++ " ".intercalate clause) =
        keyword ++ " " ++ piece ++ " " ++ ("As" ++ " " ++ " ".intercalate clause) := by
      rw [show " As " = " " ++ "As" ++ " " from rfl]
      simp only [String.append_assoc]
    rw [Option.map_some, parts, Token.tokenize_append closedFront, start,
      Token.tokenize_append isCode.closed, isCode.tokenize_eq]
    rfl

/-- The lines that share their types are read as the lines of their names. -/
theorem tokenize_shareTypes (code : IsCode keyword) {pieces : List String}
    (read : pieces.map tokenize = forms.map (·.tokens)) :
    (shareTypes keyword (pieces.map fun piece => (piece, typeClause piece))).map tokenize =
      takenLines keyword forms := by
  induction forms generalizing pieces with
  | nil =>
    obtain rfl := List.map_eq_nil_iff.mp read
    rfl
  | cons form later inductionHypothesis =>
    obtain ⟨piece, rest, rfl, here, behind⟩ := List.map_eq_cons_iff.mp read
    have closed : insideAfter false (tokenize piece) = false :=
      here ▸ form.tokens_single.literals
    have shared : (if (typeClause piece).isNone && !SourceLine.hasInitializer piece then
          (rest.map fun piece => (piece, typeClause piece)).findSome? Prod.snd else none) =
        (takenType form later).map (" ".intercalate ·) := by
      have lacks : ((typeClause piece).isNone && !SourceLine.hasInitializer piece) =
          (form.isBare && !form.hasStray) := by
        rw [SourceLine.typeClause_eq, Option.isNone_map, ← form.lacksType_eq]
        exact congrArg lacksType here
      rw [takenType, lacks, findSome?_typeClause behind]
      split <;> rfl
    have line := tokenize_line code closed (takenType form later)
    rw [here] at line
    rw [List.map_cons, shareTypes, shared, List.map_cons, inductionHypothesis behind]
    exact congrArg (· :: takenLines keyword later) line

end Lines

/-! ## Declarations of several names -/

/-- A text is cut at the first blank behind a word. -/
theorem Text.cutAtBlank_append {word : List Char} (visible : ∀ c ∈ word, isBlank c = false)
    {blank : Char} (stop : isBlank blank = true) (after : List Char) :
    cutAtBlank (word ++ blank :: after) = some (word, after) := by
  induction word with
  | nil => simp [cutAtBlank, stop]
  | cons c word inductionHypothesis =>
    obtain ⟨here, later⟩ := List.forall_mem_cons.mp visible
    simp [cutAtBlank, here, inductionHypothesis later]

/-- A line that declares several names: the keyword, a blank, and the names with commas between
them. -/
structure DimForm where
  keyword : Spelling "dim"
  blank : Char
  isBlank : Text.isBlank blank = true
  names : List DeclaredForm
  several : 2 ≤ names.length
  text : String
  written : tokenize text = [","].intercalate (names.map (·.tokens))

namespace DimForm

/-- The text of the line. -/
def line (declaration : DimForm) : String :=
  declaration.keyword.val ++ String.singleton declaration.blank ++ declaration.text

variable (declaration : DimForm)

/-- The keyword of a declaration is code. -/
theorem keyword_isCode : IsCode declaration.keyword.val :=
  .of_word (declaration.keyword.fits (by decide) (by decide))

/-- The segments of a declaration are read as its names. -/
theorem tokenize_pieces : (SourceLine.segments declaration.text.toList).map tokenize =
    declaration.names.map (·.tokens) := by
  refine Token.tokenize_segments ?_ ?_ ?_ declaration.written
  · have several := declaration.several
    exact List.ne_nil_of_length_pos (by rw [List.length_map]; omega)
  · exact List.forall_mem_map.mpr fun form _ => form.tokens_single
  · exact List.forall_mem_map.mpr fun form _ => List.cons_ne_nil _ _

/-- The line becomes one line for each name. -/
theorem tokenize_split : (splitDeclaration declaration.line).map tokenize =
    takenLines declaration.keyword.val declaration.names := by
  have code := declaration.keyword_isCode
  have pieces := declaration.tokenize_pieces
  have count : (SourceLine.segments declaration.text.toList).length = declaration.names.length := by
    simpa using congrArg List.length pieces
  have whole : declaration.line.toList =
      declaration.keyword.val.toList ++ declaration.blank :: declaration.text.toList := by
    simp [line]
  have cut := Text.cutAtBlank_append (fun c member => (code.bare.2 c member).1)
    declaration.isBlank declaration.text.toList
  have several : ¬ (SourceLine.segments declaration.text.toList).length < 2 := by
    rw [count]
    exact Nat.not_lt.mpr declaration.several
  simp only [splitDeclaration, whole, cut, if_neg several, String.ofList_toList]
  exact tokenize_shareTypes code pieces

/-- The tokens of declared names are as they are read from a line. -/
theorem lexed_names : ∀ form ∈ declaration.names, Lexed form.tokens := by
  intro form member
  have isPiece : form.tokens ∈ (SourceLine.segments declaration.text.toList).map tokenize := by
    rw [declaration.tokenize_pieces]
    exact List.mem_map_of_mem member
  obtain ⟨piece, -, same⟩ := List.mem_map.mp isPiece
  exact same ▸ Token.lexed_tokenize piece

end DimForm

/-- A line that declares several names becomes one line for each of them, which starts with the
keyword and the name as it is written. Each bare name is then given the type of the next name
that states one, and nothing else is added, exactly when no name is misled. None is where no `As`
or `=` stands where it can be taken for one of the name's own. -/
theorem declared_types_are_shared (declaration : DimForm) :
    (splitDeclaration declaration.line).length = declaration.names.length ∧
    List.Forall₂ (fun form line => declaration.keyword.val :: form.tokens <+: tokenize line)
      declaration.names (splitDeclaration declaration.line) ∧
    ((splitDeclaration declaration.line).map tokenize =
        declarations declaration.keyword.val declaration.names ↔ ¬ Misled declaration.names) ∧
    ((∀ form ∈ declaration.names, form.isClear = true) → ¬ Misled declaration.names) := by
  have starts : List.Forall₂
      (fun form line => declaration.keyword.val :: form.tokens <+: tokenize line)
      declaration.names (splitDeclaration declaration.line) := by
    rw [← List.forall₂_map_right_iff, declaration.tokenize_split]
    exact takenLines_starts _ _
  refine ⟨starts.length_eq.symm, starts, ?_, not_misled_of_clear⟩
  rw [declaration.tokenize_split]
  exact takenLines_eq_iff declaration.lexed_names

/-- Two bare names, one with a comma in its bounds, that share the type of the last name, with a
literal between them that holds a comma, an `As` and a `=`. -/
def DimForm.grid : DimForm where
  keyword := ⟨"DIM", by decide⟩
  blank := '\t'
  isBlank := by decide
  names :=
    [{ name := ⟨"grid", by decide⟩
       bounds := some ["n", "-", "1", ",", "f", "(", "2", ")"] },
     { name := ⟨"s", by decide⟩
       initial := some ["\"", "x, y As Z = 1", "\""] },
     { name := ⟨"m", by decide⟩ },
     { name := ⟨"last", by decide⟩
       type := some ⟨⟨"as", by decide⟩, .applied ⟨"Queue", by decide⟩ [] ⟨"oF", by decide⟩
         (.last (.plain ⟨"Short", by decide⟩ [] 1)) 0⟩
       initial := some ["Function", "(", "x", "As", "Integer", ")", "x"] }]
  several := by decide
  text := "grid(n-1,f(2)), s = \"x, y As Z = 1\" ,m," ++
    "last as Queue(oF Short()) = Function(x As Integer) x"
  written := by decide +kernel

/-- A declaration with bounds, a literal, a generic array type and a lambda. -/
theorem grid_types_are_shared :
    (splitDeclaration ("DIM\tgrid(n-1,f(2)), s = \"x, y As Z = 1\" ,m," ++
        "last as Queue(oF Short()) = Function(x As Integer) x")).map tokenize =
      [["DIM", "grid", "(", "n", "-", "1", ",", "f", "(", "2", ")", ")",
          "As", "Queue", "(", "oF", "Short", "(", ")", ")"],
        ["DIM", "s", "=", "\"", "x, y As Z = 1", "\""],
        ["DIM", "m", "As", "Queue", "(", "oF", "Short", "(", ")", ")"],
        ["DIM", "last", "as", "Queue", "(", "oF", "Short", "(", ")", ")", "=",
          "Function", "(", "x", "As", "Integer", ")", "x"]] := by
  obtain ⟨-, -, shared, unmisled⟩ := declared_types_are_shared DimForm.grid
  have clear : ∀ form ∈ DimForm.grid.names, form.isClear = true := by decide +kernel
  exact shared.mpr (unmisled clear)

/-- A bare name before one with a lambda for its initial value. -/
def DimForm.lambda : DimForm where
  keyword := ⟨"Dim", by decide⟩
  blank := ' '
  isBlank := by decide
  names :=
    [{ name := ⟨"a", by decide⟩ },
     { name := ⟨"b", by decide⟩
       initial := some ["Function", "(", "x", "As", "Integer", ")", "x"] }]
  several := by decide
  text := "a, b = Function(x As Integer) x"
  written := by decide +kernel

/-- The type of a lambda's parameter is shared, with all that stands behind it, although no name
states a type. -/
theorem lambda_parameter_type_is_shared :
    DimForm.lambda.line = "Dim a, b = Function(x As Integer) x" ∧
    splitDeclaration "Dim a, b = Function(x As Integer) x" =
      ["Dim a As Integer ) x", "Dim b = Function(x As Integer) x"] ∧
    declarations "Dim" DimForm.lambda.names =
      [["Dim", "a"], ["Dim", "b", "=", "Function", "(", "x", "As", "Integer", ")", "x"]] := by
  decide +kernel

end BasicToSharp
