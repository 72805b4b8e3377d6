import BasicToSharp.Proofs.AlikeHeader

/-!
# What the kind of a statement says about its line

A line is classified by tests in a fixed order. What a later proof needs of a kind is not
the order but the test that decided for it: the word a line starts with, or the position
of its keyword behind plain words. `classify_form` gives this for every kind at once.

The tests look at the first token, at declaration keywords and at words outside literals,
and so two lines that are alike, neither of them a comment, are statements of one kind.
-/

namespace BasicToSharp.Statement

open Token (Alike AlikeFrom)

/-- The test that a line of this kind has passed. -/
def Form (text : String) (tokens : List Token) : Statement → Prop
  | .blank => tokens = []
  | .comment => isComment text tokens = true
  | .container .classBlock keyword => openingKeyword tokens "Class" = some keyword
  | .container .moduleBlock keyword => openingKeyword tokens "Module" = some keyword
  | .declaration => tokenAt tokens 0 = "Dim" ∨ Vocabulary.isModifier (tokenAt tokens 0) = true
  | .doLoop => tokenAt tokens 0 = "Do"
  | .endBlock => tokenAt tokens 0 = "End"
  | .exitJump => tokenAt tokens 0 = "Exit"
  | .enumHeader keyword => openingKeyword tokens "Enum" = some keyword
  | .forLoop => tokenAt tokens 0 = "For"
  | .function keyword isSub =>
    openingKeyword tokens (if isSub then "Sub" else "Function") = some keyword
  | .accessor keyword => accessorKeyword tokens = some keyword
  | .ifBranch => tokenAt tokens 0 = "If"
  | .elseIfBranch => tokenAt tokens 0 = "ElseIf"
  | .elseBranch => tokenAt tokens 0 = "Else"
  | .loopEnd => tokenAt tokens 0 = "Loop"
  | .namespaceHeader => tokenAt tokens 0 = "Namespace"
  | .nextLoop => tokenAt tokens 0 = "Next" ∨ tokenAt tokens 0 = "Wend"
  | .property keyword => openingKeyword tokens "Property" = some keyword
  | .returnJump => tokenAt tokens 0 = "Return"
  | .whileLoop keyword => Token.position tokens "While" = some keyword
  | .inheritance => tokenAt tokens 0 = "Inherits" ∨ tokenAt tokens 0 = "Implements"
  | .other => tokens ≠ []

section Form

variable {text : String} {tokens : List Token}

/-- The last tests decide for the kinds that they are for. -/
theorem classifyMember_form (filled : tokens ≠ []) :
    (classifyMember tokens).Form text tokens := by
  unfold classifyMember
  simp only
  repeat' split
  all_goals first | assumption | exact filled | simp_all [Form]

/-- The tests for blocks decide for the kinds that they are for. -/
theorem classifyBlock_form (filled : tokens ≠ []) :
    (classifyBlock tokens).Form text tokens := by
  unfold classifyBlock
  simp only
  repeat' split
  all_goals first | assumption | exact classifyMember_form filled

/-- Every line has passed the test of its kind. -/
theorem classify_form (text : String) (tokens : List Token) :
    (classify text tokens).Form text tokens := by
  unfold classify
  simp only
  by_cases filled : tokens = []
  · simp [filled, Form]
  · repeat' split
    all_goals first | assumption | exact classifyBlock_form filled | simp_all [Form]

end Form

section Keywords

variable {tokens : List Token} {word : String} {keyword : Nat}

/-- A keyword that opens something is a declaration keyword. -/
theorem declarationKeyword_of_opening (found : openingKeyword tokens word = some keyword) :
    declarationKeyword tokens word = some keyword := by
  unfold openingKeyword at found
  split at found
  · cases found
  · exact found

/-- Plain words lead to a keyword that opens something. -/
theorem leads_of_openingKeyword (differs : word ≠ Token.quote)
    (found : openingKeyword tokens word = some keyword) : Token.Leads tokens keyword :=
  leads_of_declarationKeyword differs (declarationKeyword_of_opening found)

/-- The keyword of an accessor is `Get` or `Set`. -/
theorem declarationKeyword_of_accessor (found : accessorKeyword tokens = some keyword) :
    declarationKeyword tokens "Get" = some keyword ∨
      declarationKeyword tokens "Set" = some keyword := by
  unfold accessorKeyword at found
  rcases Option.or_eq_some_iff.mp found with found | ⟨-, found⟩
  · exact .inl (Option.filter_eq_some_iff.mp found).1
  · exact .inr (Option.filter_eq_some_iff.mp found).1

/-- Plain words lead to the keyword of an accessor. -/
theorem leads_of_accessorKeyword (found : accessorKeyword tokens = some keyword) :
    Token.Leads tokens keyword := by
  rcases declarationKeyword_of_accessor found with found | found
  · exact leads_of_declarationKeyword (by decide) found
  · exact leads_of_declarationKeyword (by decide) found

end Keywords

section Alike

variable {text text' : String} {left right : List Token}

/-- An opening keyword is found at the same position. -/
theorem openingKeyword_alike (alike : Alike left right) (word : String)
    (differs : word ≠ Token.quote) :
    openingKeyword left word = openingKeyword right word := by
  unfold openingKeyword
  rw [Alike.tokenAt_eq alike (Token.outside_zero left), declarationKeyword_alike alike differs]

/-- The keyword of one kind of accessor is found at the same position. -/
theorem accessorNamed_alike (alike : Alike left right) (word : String)
    (differs : word ≠ Token.quote) :
    accessorNamed left word = accessorNamed right word := by
  unfold accessorNamed
  rw [← declarationKeyword_alike alike differs]
  cases found : declarationKeyword left word with
  | none => rfl
  | some index =>
    have leads := leads_of_declarationKeyword differs found
    simp only [Option.filter_some, Alike.tokenAt_eq alike leads.behind]

/-- The keyword of an accessor is found at the same position. -/
theorem accessorKeyword_alike (alike : Alike left right) :
    accessorKeyword left = accessorKeyword right := by
  unfold accessorKeyword
  rw [accessorNamed_alike alike "Get" (by decide), accessorNamed_alike alike "Set" (by decide)]

/-- Lines that are alike pass the same of the last tests. -/
theorem classifyMember_alike (alike : Alike left right) :
    classifyMember left = classifyMember right := by
  unfold classifyMember Token.position
  simp only [Alike.tokenAt_eq alike (Token.outside_zero left), Alike.findUnquoted_eq alike,
    openingKeyword_alike alike "Module" (by decide),
    openingKeyword_alike alike "Property" (by decide),
    openingKeyword_alike alike "Sub" (by decide)]

/-- Lines that are alike pass the same tests for blocks. -/
theorem classifyBlock_alike (alike : Alike left right) :
    classifyBlock left = classifyBlock right := by
  unfold classifyBlock
  simp only [Alike.tokenAt_eq alike (Token.outside_zero left), accessorKeyword_alike alike,
    openingKeyword_alike alike "Enum" (by decide),
    openingKeyword_alike alike "Function" (by decide), classifyMember_alike alike]

/-- Two lines that are alike, neither of them a comment, are of one kind. -/
theorem classify_alike (alike : Alike left right) (plain : classify text left ≠ .comment)
    (plain' : classify text' right ≠ .comment) : classify text left = classify text' right := by
  have sameEmpty : left.isEmpty = right.isEmpty := isEmpty_eq alike
  unfold classify at plain plain' ⊢
  simp only [← sameEmpty] at plain' ⊢
  by_cases empty : left.isEmpty = true
  · simp [empty]
  · have code : isComment text left = false := by
      rw [← Bool.not_eq_true]
      intro comment
      exact plain (by simp [empty, comment])
    have code' : isComment text' right = false := by
      rw [← Bool.not_eq_true]
      intro comment
      exact plain' (by simp [empty, comment])
    simp only [code, code', Alike.tokenAt_eq alike (Token.outside_zero left),
      openingKeyword_alike alike "Class" (by decide), classifyBlock_alike alike]

end Alike

end BasicToSharp.Statement
