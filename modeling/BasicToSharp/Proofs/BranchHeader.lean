import BasicToSharp.Proofs.AccessorLookAhead
import BasicToSharp.Proofs.RespacedTokens

/-!
# The header of a branch

An `If` line with nothing behind `Then` opens a block, and its condition stands in the header.
That needs three things of the tokens between `If` and `Then`: none of them makes the line a
declaration, none of them is `Then`, and none of them is read differently in its place. Tokens
that are so are said to stay in the condition, and the lemmas below carry a condition of such
tokens from the line to the header that is written for it.
-/

namespace BasicToSharp

open Token (Kind quote)

/-! ## Tokens of a condition -/

/-- Words that make a declaration of a line that starts with `If`. -/
def openingWords : List Token := ["Class", "Enum", "Function", "Get", "Set"]

/-- A token of a condition that leaves an `If` line what it is: it is no quote and no
ampersand, it does not end the condition, and it makes no declaration of the line. -/
structure StaysInCondition (token : Token) : Prop where
  notQuote : token ≠ quote
  notAmpersand : token ≠ "&"
  notThen : Token.isKeyword token "Then" = false
  notOpening : token ∉ openingWords

/-- A run of operator characters is no word of the line. -/
theorem StaysInCondition.of_operators {token : Token} (fits : Kind.operators.fits token = true)
    (notAmpersand : token ≠ "&") : StaysInCondition token where
  notQuote := Token.Kind.ne_of_fits fits (by decide)
  notAmpersand := notAmpersand
  notThen := by
    rw [Bool.eq_false_iff]
    intro isThen
    obtain ⟨c, rest, starts, -⟩ := Kind.ofChar_of_fits fits
    have letter : c.toLower = 't' := Token.toLower_of_isKeyword starts rfl isThen
    have isWord := (Token.CharClass.of_letter (by rw [letter]; decide)).1
    have isOperator := Kind.class_of_fits fits c (by rw [starts]; exact List.mem_cons_self)
    rw [isWord] at isOperator
    cases isOperator
  notOpening := by
    intro member
    have words : openingWords.all (!Kind.operators.fits ·) = true := by decide
    simpa [fits] using List.all_eq_true.mp words token member

/-! ## From the line to the header -/

/-- A draft in which the block of a branch has been opened. -/
def Draft.openIf (draft : Draft) (header : String) : Draft :=
  (draft.renest fun nesting =>
    { nesting with blocks := .ifBlock :: nesting.blocks }).openBrace header

section Header

variable {condition : List Token} {text : String}

/-- Without quotes every token is outside literals. -/
theorem Token.mark_plain {tokens : List Token} (plain : ∀ token ∈ tokens, token ≠ quote) :
    Token.mark tokens = tokens.map (⟨·, false⟩) := by
  have marked := Token.markFrom_append false plain []
  rw [List.append_nil] at marked
  exact marked.trans (List.append_nil _)

/-- Without quotes a change outside literals is a change everywhere. -/
theorem Token.mapUnquoted_plain {tokens : List Token} (plain : ∀ token ∈ tokens, token ≠ quote)
    (change : Token → Token) : Token.mapUnquoted change tokens = tokens.map change := by
  rw [Token.mapUnquoted, Token.mark_plain plain, List.map_map]
  simp [Function.comp_def]

/-- Without `&` there is nothing to rewrite. -/
theorem Token.concatenations_plain {tokens : List Token} (free : "&" ∉ tokens) :
    Token.concatenations tokens = tokens := by
  have marks : (Token.mark tokens).map Token.Marked.token = tokens :=
    Token.markFrom_map_token false tokens
  have whole := @Token.take_joinAmpersands_of_free "" (Token.mark tokens)
    ((Token.concatenations tokens).length + tokens.length)
    (by rw [marks]; exact fun member => free (List.mem_of_mem_take member))
  rw [marks, List.take_of_length_le (Nat.le_add_left _ _)] at whole
  exact (List.take_of_length_le (Nat.le_add_right _ _)).symm.trans whole

/-- A line that starts with `If` and has no word of a declaration is a branch. -/
theorem Statement.classify_ifBranch {rest : List Token}
    (starts : text.toList.head? ≠ some Token.apostrophe)
    (noOpening : ∀ token ∈ rest, token ∉ openingWords) :
    Statement.classify text ("If" :: rest) = .ifBranch := by
  have absent : ∀ keyword ∈ openingWords,
      Statement.declarationKeyword ("If" :: rest) keyword = none := by
    intro keyword opening
    have notFirst : "If" ≠ keyword := by
      rintro rfl
      exact absurd opening (by decide)
    have missing : ("If" :: rest).findIdx? (· == keyword) = none := by
      rw [List.findIdx?_eq_none_iff]
      intro token member
      rcases List.mem_cons.mp member with rfl | later
      · simpa using notFirst
      · rw [beq_eq_false_iff_ne]
        rintro rfl
        exact noOpening _ later opening
    rw [Statement.declarationKeyword, missing]
  have noComment : Statement.isComment text ("If" :: rest) = false := by
    have notRemark : Token.isKeyword "If" "rem" = false := by decide
    simpa [Statement.isComment, tokenAt, notRemark] using starts
  have noClass := absent "Class" (by decide)
  have noEnum := absent "Enum" (by decide)
  have noFunction := absent "Function" (by decide)
  have noGet := absent "Get" (by decide)
  have noSet := absent "Set" (by decide)
  simp [Statement.classify, Statement.classifyBlock, Statement.openingKeyword,
    Statement.accessorKeyword, Statement.accessorNamed, tokenAt, noComment, noClass, noEnum,
    noFunction, noGet, noSet]

/-- The block of an `If` line is headed by all that stands before `Then`. -/
theorem IfLine.read_block (nonempty : condition ≠ [])
    (stays : ∀ token ∈ condition, StaysInCondition token) (bare : tokenAt condition 0 ≠ "(") :
    IfLine.read ("If" :: (condition ++ ["Then"])) =
      .ok (.block (blockHeader "if" (Expression.renderCondition condition))) := by
  have plain : ∀ token ∈ "If" :: (condition ++ ["Then"]), token ≠ quote := by
    simp only [List.forall_mem_cons, List.forall_mem_append]
    exact ⟨by decide, fun token member => (stays token member).notQuote, by decide, nofun⟩
  have noThen : condition.findIdx? (Token.isKeyword · "Then") = none :=
    List.findIdx?_eq_none_iff.mpr fun token member => (stays token member).notThen
  have found : Token.findKeyword ("If" :: (condition ++ ["Then"])) "Then" =
      some (condition.length + 1) := by
    have notFirst : Token.isKeyword "If" "Then" = false := by decide
    have last : Token.isKeyword "Then" "Then" = true := by decide
    rw [Token.findKeyword, Token.findUnquoted, Token.mark_plain plain, List.findIdx?_map]
    simp [Function.comp_def, List.findIdx?_cons, notFirst, List.findIdx?_append, noThen, last]
  have sliced : Reading.slice ("If" :: (condition ++ ["Then"])) 1 (condition.length + 1) =
      .ok condition := by
    rw [slice_ok (by omega) (by simp)]
    simp
  have nothing : Reading.sliceFrom ("If" :: (condition ++ ["Then"])) (condition.length + 1 + 1) =
      .ok [] := by
    rw [Reading.sliceFrom, slice_ok (by simp) (Nat.le_refl _)]
    simp
  have whole : stripParentheses condition = .ok condition := by
    rw [stripParentheses, if_neg fun closed => bare closed.1]
  simp [IfLine.read, found, sliced, nothing, conditionText, conditionBy, readCondition, whole,
    nonempty]

/-- An `If` line opens a block with its condition in the header. -/
theorem Draft.convertLine_ifBlock (draft : Draft)
    (starts : text.toList.head? ≠ some Token.apostrophe)
    (tokens : Token.tokenize text = "If" :: (condition ++ ["Then"])) (nonempty : condition ≠ [])
    (stays : ∀ token ∈ condition, StaysInCondition token) (bare : tokenAt condition 0 ≠ "(") :
    draft.convertLine text =
      .ok (draft.openIf (blockHeader "if" (Expression.renderCondition condition))) := by
  have whole : lineTokens text = "If" :: (condition ++ ["Then"]) := by
    rw [lineTokens, tokens]
    refine Token.concatenations_plain fun member => ?_
    simp only [List.mem_cons, List.mem_append, List.not_mem_nil, or_false] at member
    rcases member with first | inside | last
    · exact absurd first (by decide)
    · exact (stays _ inside).notAmpersand rfl
    · exact absurd last (by decide)
  have statement : lineStatement text = .ifBranch := by
    rw [lineStatement, whole]
    refine Statement.classify_ifBranch starts fun token member => ?_
    rcases List.mem_append.mp member with inside | last
    · exact (stays token inside).notOpening
    · rw [List.mem_singleton.mp last]
      decide
  apply Draft.convertLine_accepted
  rw [statement, whole]
  refine (Rule.ifBranch_run _ draft).trans ?_
  rw [IfLine.read_block nonempty stays bare]
  rfl

end Header

/-! ## The text of a header -/

section Text

variable {before : Option Token}

/-- Tokens of code are written one behind the other with the gaps between them. -/
theorem Spacing.lineFrom_cons (spacing : Spacing) {first second : Token} (plain : first ≠ quote)
    (rest : List Token) :
    spacing.lineFrom before (first :: second :: rest) =
      first ++ spacing.gap before first second ++
        spacing.lineFrom (some first) (second :: rest) := by
  have outside : (first == quote) = false := by simpa using plain
  rw [Spacing.lineFrom, outside, Spacing.joinBehind_outside, String.append_assoc]

/-- A lone token is written as it is. -/
theorem Spacing.lineFrom_single (spacing : Spacing) (token : Token) :
    spacing.lineFrom before [token] = token := by
  simp [Spacing.lineFrom, Spacing.joinBehind]

/-- The header of a block is its keyword with the content in parentheses. -/
theorem blockHeader_eq {keyword content : String} (word : Kind.word.fits keyword = true)
    (plain : content ≠ quote) :
    blockHeader keyword content = keyword ++ " (" ++ content ++ ")" := by
  have bare := Kind.bare_of_isRun rfl word
  have spaced : (blockPhrase keyword content).spacing.gap none keyword "(" = " " := by
    have symbols : keyword ∉ ["-", "+", "("] := Kind.not_mem_of_fits word (by decide)
    simp only [List.mem_cons, List.not_mem_nil, or_false, not_or] at symbols
    simp [Spacing.gap, Spacing.isSign, Spacing.separates, blockPhrase, symbols]
  have opened : (blockPhrase keyword content).spacing.gap (some keyword) "(" content = "" := by
    simp [Spacing.gap, Spacing.separates, blockPhrase]
  have closed : (blockPhrase keyword content).spacing.gap (some "(") content ")" = "" := by
    simp [Spacing.gap, Spacing.separates, blockPhrase]
  have written : (blockPhrase keyword content).spacing.lineFrom none [keyword, "(", content, ")"] =
      keyword ++ " (" ++ content ++ ")" := by
    have space : " (" = " " ++ "(" := by decide
    rw [Spacing.lineFrom_cons _ bare.ne_quote, Spacing.lineFrom_cons _ (by decide),
      Spacing.lineFrom_cons _ plain, Spacing.lineFrom_single, spaced, opened, closed, space]
    simp only [String.append_assoc, String.empty_append]
  have trimmed : Text.Trimmed (keyword ++ " (" ++ content ++ ")").toList := by
    obtain ⟨c, rest, chars, visible, -⟩ := bare.head
    have ends : Text.EndsVisible ")".toList := by decide
    rw [Text.trimmed_iff]
    refine ⟨?_, ?_⟩
    · intro first starts
      rw [String.append_assoc, String.append_assoc, String.toList_append, chars] at starts
      obtain rfl := Option.some.inj starts
      exact visible
    · rw [String.toList_append]
      exact ends.append_of_ne_nil (by decide) _
  calc blockHeader keyword content
    _ = (blockPhrase keyword content).spacing.join [keyword, "(", content, ")"] ++ "" := rfl
    _ = keyword ++ " (" ++ content ++ ")" := by
      rw [String.append_empty, Spacing.join_eq, written, Text.trim, trimmed.trimBlanks_eq,
        String.ofList_toList]

end Text

end BasicToSharp
