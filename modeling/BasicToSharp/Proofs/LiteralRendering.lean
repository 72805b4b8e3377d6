import BasicToSharp.Conversion.Line
import BasicToSharp.Expression
import BasicToSharp.Proofs.TokenShape

/-!
# String literals in rendered text

An expression is written by replacing words and setting spaces. Neither touches a literal, but
that is not enough: two quotes without a space between them are one doubled quote to whoever
reads the text again, and so are a quote that closes a literal and one that opens the next.
What keeps them apart is that no rule sets a quote tight.

The statement is about reading the written text again. Its literals are compared with the
quoted spans of the tokens it was written from. Both lists grow with the same constructors, so
the comparison goes by induction over the tokens; the characters behind a closing quote matter
only through the first of them.
-/

namespace BasicToSharp

open Text (isBlank EndsVisible StartsVisible)

namespace Token

/-- A token of code that stays apart from quotes: it has characters, and none of them is a
blank or a quote. -/
def Bare (token : Token) : Prop :=
  token ≠ "" ∧ ∀ c ∈ token.toList, isBlank c = false ∧ c ≠ quoteChar

instance (token : Token) : Decidable (Bare token) :=
  decidable_of_iff (token ≠ "" ∧ token.toList.all (fun c => !isBlank c && c != quoteChar) = true)
    (by simp [Bare])

/-- The tokens of a line without the spaces between them. -/
inductive WellQuoted : List Token → Prop
  | nil : WellQuoted []
  | code {token : Token} {rest : List Token} :
      Bare token → WellQuoted rest → WellQuoted (token :: rest)
  | literal {text : List Char} {rest : List Token} :
      Escaped text → WellQuoted rest → WellQuoted (quote :: (spanTokens text ++ quote :: rest))
  | unclosed {text : List Char} :
      Escaped text → EndsVisible text → WellQuoted (quote :: spanTokens text)

/-- A bare token is no quote. -/
theorem Bare.ne_quote {token : Token} (bare : Bare token) : token ≠ quote := by
  rintro rfl
  exact (bare.2 quoteChar (by decide)).2 rfl

/-- A bare token starts with a character that is neither a blank nor a quote. -/
theorem Bare.head {token : Token} (bare : Bare token) :
    ∃ c rest, token.toList = c :: rest ∧ isBlank c = false ∧ c ≠ quoteChar := by
  cases chars : token.toList with
  | nil => exact absurd (String.toList_eq_nil_iff.mp chars) bare.1
  | cons c rest => exact ⟨c, rest, rfl, bare.2 c (by rw [chars]; exact List.mem_cons_self)⟩

/-- A token that is no quote and no space is bare. -/
theorem Kind.bare {kind : Kind} {token : Token} (plain : kind ≠ .quote)
    (fits : kind.fits token = true) (other : token ≠ " ") : Bare token := by
  have visible := Kind.visible_of_fits fits other
  refine ⟨?_, fun c member => ⟨visible c member, ?_⟩⟩
  · rintro rfl
    obtain ⟨c, rest, chars, -⟩ := Kind.ofChar_of_fits fits
    cases chars
  · rintro rfl
    cases kind with
    | quote => exact plain rfl
    | grouping =>
      obtain ⟨c, rfl, isSymbol⟩ := isGrouping_eq_true fits
      obtain rfl : quoteChar = c := by simpa [String.toList_singleton] using member
      exact absurd isSymbol (by decide)
    | operators =>
      simp only [Kind.fits, Bool.and_eq_true, List.all_eq_true, bne_iff_ne] at fits
      exact (fits.2 quoteChar member).2 rfl
    | word =>
      simp only [Kind.fits, Bool.and_eq_true, List.all_eq_true] at fits
      exact absurd (fits.2 quoteChar member) (by decide)

/-! ## Quoted spans of well-quoted tokens -/

section Spans

variable {text : List Char} {token : Token} {tokens : List Token}

/-- Outside literals a token that is no quote starts no span. -/
theorem spans_code (plain : token ≠ quote) (rest : List Token) :
    spans (token :: rest) = spans rest := by
  simp [spans, spansFrom, plain]

/-- A literal is one span, which is closed. -/
theorem Escaped.spans_literal (escaped : Escaped text) (rest : List Token) :
    spans (quote :: (spanTokens text ++ quote :: rest)) =
      ⟨spanTokens text, true⟩ :: spans rest := by
  simp [spans, spansFrom, spansFrom_append (some []) escaped.spanTokens_ne_quote]

/-- A literal that is not closed is one span. -/
theorem Escaped.spans_unclosed (escaped : Escaped text) :
    spans (quote :: spanTokens text) = [⟨spanTokens text, false⟩] := by
  have alone := spansFrom_append (some []) escaped.spanTokens_ne_quote []
  rw [List.append_nil] at alone
  simp [spans, spansFrom, alone]

/-- The marks of a literal are those of its quote and its text. -/
theorem map_literalMarks (text : List Char) :
    (literalMarks text).map Marked.token = quote :: spanTokens text := by
  simp [literalMarks, Function.comp_def]

/-- All tokens of a literal are kept. -/
theorem filterMap_kept_literalMarks (text : List Char) :
    (literalMarks text).filterMap Marked.kept = quote :: spanTokens text := by
  rw [← map_literalMarks, ← List.filterMap_eq_map]
  refine List.filterMap_congr fun marked member => ?_
  simp [Marked.kept, quoted_of_mem_literalMarks marked member]

/-- Dropping blanks leaves well-quoted tokens with the same spans. -/
theorem Shaped.wellQuoted {before : Option Kind} (shaped : Shaped before tokens) :
    WellQuoted (dropBlanks tokens) ∧ spans (dropBlanks tokens) = spans tokens := by
  change WellQuoted ((mark tokens).filterMap Marked.kept) ∧
    spans ((mark tokens).filterMap Marked.kept) = spans tokens
  induction shaped with
  | nil => exact ⟨.nil, rfl⟩
  | @code before kind token rest plain fits apart later inductionHypothesis =>
    obtain ⟨quoted, same⟩ := inductionHypothesis
    have notQuote := Kind.ne_quote plain fits
    rw [mark_code notQuote, List.filterMap_cons, Marked.kept_code fits, spans_code notQuote]
    by_cases space : token = " "
    · rw [if_pos space]
      exact ⟨quoted, same⟩
    · rw [if_neg space]
      have bare := Kind.bare plain fits space
      exact ⟨.code bare quoted, (spans_code notQuote _).trans same⟩
  | literal escaped later inductionHypothesis =>
    obtain ⟨quoted, same⟩ := inductionHypothesis
    rw [escaped.mark_literal, List.append_assoc, List.filterMap_append,
      filterMap_kept_literalMarks, escaped.spans_literal, ← same]
    exact ⟨.literal escaped quoted, escaped.spans_literal _⟩
  | unclosed escaped visible =>
    rw [escaped.mark_unclosed, filterMap_kept_literalMarks]
    exact ⟨.unclosed escaped visible, rfl⟩

/-- A change outside literals leaves a literal as it is. -/
theorem map_unquoted_literalMarks (change : Token → Token) (text : List Char) :
    ((literalMarks text).map fun marked =>
      if marked.quoted then marked.token else change marked.token) = quote :: spanTokens text := by
  rw [← map_literalMarks]
  refine List.map_congr_left fun marked member => ?_
  rw [quoted_of_mem_literalMarks marked member, if_pos rfl]

/-- A change of the tokens outside literals that keeps them bare keeps the spans. -/
theorem WellQuoted.change {change : Token → Token}
    (keeps : ∀ token, Bare token → Bare (change token)) (quoted : WellQuoted tokens) :
    WellQuoted (mapUnquoted change tokens) ∧ spans (mapUnquoted change tokens) = spans tokens := by
  unfold mapUnquoted
  induction quoted with
  | nil => exact ⟨.nil, rfl⟩
  | code bare rest inductionHypothesis =>
    obtain ⟨quoted, same⟩ := inductionHypothesis
    have changed := keeps _ bare
    rw [mark_code bare.ne_quote, List.map_cons, spans_code bare.ne_quote]
    exact ⟨.code changed quoted, (spans_code changed.ne_quote _).trans same⟩
  | literal escaped rest inductionHypothesis =>
    obtain ⟨quoted, same⟩ := inductionHypothesis
    rw [escaped.mark_literal, List.append_assoc, List.map_append, map_unquoted_literalMarks,
      escaped.spans_literal, ← same]
    exact ⟨.literal escaped quoted, escaped.spans_literal _⟩
  | unclosed escaped visible =>
    rw [escaped.mark_unclosed, map_unquoted_literalMarks]
    exact ⟨.unclosed escaped visible, rfl⟩

/-- Joining `&` passes over tokens in literals. -/
theorem joinAmpersands_append {quoted : List Marked}
    (inLiteral : ∀ marked ∈ quoted, marked.quoted = true) (previous : Token) (more : List Marked) :
    ∃ last, joinAmpersands previous (quoted ++ more) =
      quoted.map Marked.token ++ joinAmpersands last more := by
  induction quoted generalizing previous with
  | nil => exact ⟨previous, rfl⟩
  | cons marked rest inductionHypothesis =>
    obtain ⟨here, later⟩ := List.forall_mem_cons.mp inLiteral
    obtain ⟨last, same⟩ := inductionHypothesis later marked.token
    exact ⟨last, by simp [joinAmpersands, here, same]⟩

/-- Writing `&` as `+` leaves well-quoted tokens. -/
theorem WellQuoted.joinAmpersands (quoted : WellQuoted tokens) (previous : Token) :
    WellQuoted (Token.joinAmpersands previous (mark tokens)) := by
  induction quoted generalizing previous with
  | nil => exact .nil
  | code bare rest inductionHypothesis =>
    rw [mark_code bare.ne_quote]
    refine .code ?_ (inductionHypothesis _)
    split
    · decide
    · exact bare
  | literal escaped rest inductionHypothesis =>
    obtain ⟨last, same⟩ := joinAmpersands_append quoted_of_mem_closedMarks previous (mark _)
    rw [escaped.mark_literal, same, List.map_append, map_literalMarks, List.append_assoc]
    exact .literal escaped (inductionHypothesis last)
  | unclosed escaped visible =>
    obtain ⟨last, same⟩ := joinAmpersands_append quoted_of_mem_literalMarks previous []
    rw [List.append_nil, map_literalMarks] at same
    rw [escaped.mark_unclosed, same]
    simpa [Token.joinAmpersands] using WellQuoted.unclosed escaped visible

end Spans

/-! ## Literals in characters -/

section Literals

variable {text more : List Char}

/-- Characters without quotes hold no literal. -/
theorem literalsFrom_append {chars : List Char} (plain : quoteChar ∉ chars) (more : List Char) :
    literalsFrom none (chars ++ more) = literalsFrom none more := by
  induction chars with
  | nil => rfl
  | cons c rest inductionHypothesis =>
    obtain ⟨here, later⟩ := List.ne_and_not_mem_of_not_mem_cons plain
    rw [List.cons_append, literalsFrom]
    exact (if_neg (Ne.symm here)).trans (inductionHypothesis later)

/-- An escaped text is read up to the quote behind it, if no second quote follows that one. -/
theorem Escaped.literalsFrom_closed (escaped : Escaped text) (before : List Char)
    (alone : ∀ tail, more = quoteChar :: tail → False) :
    literalsFrom (some before) (text ++ quoteChar :: more) =
      ⟨before ++ text, true⟩ :: literalsFrom none more := by
  induction escaped generalizing before with
  | nil => rw [List.nil_append, List.append_nil, quoteChar, literalsFrom.eq_5 _ _ alone]
  | doubled rest inductionHypothesis =>
    refine (inductionHypothesis (before ++ [quoteChar, quoteChar])).trans ?_
    simp
  | @char c rest other escaped inductionHypothesis =>
    rw [List.cons_append,
      literalsFrom.eq_6 _ _ _ (fun _ isQuote => absurd isQuote other) other, inductionHypothesis]
    simp

/-- A literal that is not closed reaches to the end. -/
theorem Escaped.literalsFrom_unclosed (escaped : Escaped text) (before : List Char) :
    literalsFrom (some before) text = [⟨before ++ text, false⟩] := by
  induction escaped generalizing before with
  | nil => rw [literalsFrom, List.append_nil]
  | doubled rest inductionHypothesis =>
    refine (inductionHypothesis (before ++ [quoteChar, quoteChar])).trans ?_
    simp
  | @char c rest other escaped inductionHypothesis =>
    rw [literalsFrom.eq_6 _ _ _ (fun _ isQuote => absurd isQuote other) other, inductionHypothesis]
    simp

end Literals

end Token

/-! ## The written line -/

namespace Spacing

/-- Tokens written as one line, the first of them behind `before`. -/
def lineFrom (spacing : Spacing) (before : Option Token) : List Token → String
  | [] => ""
  | first :: rest => first ++ spacing.joinBehind before first (first == Token.quote) rest

/-- Tokens are joined by writing them from the first on and trimming the line. -/
theorem join_eq (spacing : Spacing) (tokens : List Token) :
    spacing.join tokens = Text.trim (spacing.lineFrom none tokens) := by
  cases tokens <;> rfl

/-- What is written between two neighbours outside literals. -/
def gap (spacing : Spacing) (before : Option Token) (previous token : Token) : String :=
  if !isSign before previous && spacing.separates previous token false then " " else ""

/-- Between two tokens stands one space or nothing. -/
theorem gap_cases (spacing : Spacing) (before : Option Token) (previous token : Token) :
    spacing.gap before previous token = " " ∨ spacing.gap before previous token = "" := by
  unfold gap
  split
  · exact .inl rfl
  · exact .inr rfl

/-- A quote is neither a sign nor set tight. -/
theorem gap_quotes (before : Option Token) :
    expression.gap before Token.quote Token.quote = " " := by
  have noSign : isSign before Token.quote = false := by
    have other : (Token.quote == "-" || Token.quote == "+") = false := by decide
    rw [isSign, other, Bool.false_and]
  have apart : expression.separates Token.quote Token.quote false = true := by decide
  simp [gap, noSign, apart]

/-- Outside literals a token is written behind its gap. -/
theorem joinBehind_outside (spacing : Spacing) (before : Option Token) (previous first : Token)
    (rest : List Token) :
    spacing.joinBehind before previous false (first :: rest) =
      spacing.gap before previous first ++ spacing.lineFrom (some previous) (first :: rest) := by
  have turned : (if first = Token.quote then !false else false) = (first == Token.quote) := by
    by_cases isQuote : first = Token.quote <;> simp [isQuote]
  rw [joinBehind, turned, String.append_assoc]
  rfl

/-- Inside literals a token is written without a gap. -/
theorem joinBehind_inside (spacing : Spacing) (before : Option Token) (previous token : Token)
    (rest : List Token) :
    spacing.joinBehind before previous true (token :: rest) =
      token ++ spacing.joinBehind (some previous) token (token != Token.quote) rest := by
  have turned : (if token = Token.quote then !true else true) = (token != Token.quote) := by
    by_cases isQuote : token = Token.quote <;> simp [isQuote]
  have tight : (!isSign before previous && spacing.separates previous token true) = false := by
    simp [separates]
  rw [joinBehind, tight, turned, if_neg (by simp), String.empty_append]

/-- A literal is written as its text and its closing quote. -/
theorem joinBehind_literal (spacing : Spacing) (before : Option Token) {text : List Char}
    (escaped : Token.Escaped text) (rest : List Token) :
    ∃ last, (spacing.joinBehind before Token.quote true
        (Token.spanTokens text ++ Token.quote :: rest)).toList =
      text ++ Token.quoteChar :: (spacing.joinBehind last Token.quote false rest).toList := by
  have closes : (Token.quote != Token.quote) = false := by decide
  by_cases empty : text = []
  · subst empty
    refine ⟨some Token.quote, ?_⟩
    rw [Token.spanTokens, if_pos rfl, List.nil_append, joinBehind_inside, closes,
      String.toList_append, Token.toList_quote]
    rfl
  · have plain := escaped.spanTokens_ne_quote
    rw [Token.spanTokens, if_neg empty] at plain ⊢
    have inside : (String.ofList text != Token.quote) = true := by simpa using plain
    refine ⟨some (String.ofList text), ?_⟩
    rw [List.singleton_append, joinBehind_inside, inside, joinBehind_inside, closes,
      String.toList_append, String.toList_append, Token.toList_quote, String.toList_ofList]
    rfl

/-- The text of a literal is written as it is. -/
theorem joinBehind_unclosed (spacing : Spacing) (before : Option Token) (text : List Char) :
    (spacing.joinBehind before Token.quote true (Token.spanTokens text)).toList = text := by
  by_cases empty : text = []
  · subst empty
    rfl
  · rw [Token.spanTokens, if_neg empty, joinBehind_inside, joinBehind, String.append_empty,
      String.toList_ofList]

end Spacing

namespace Token.WellQuoted

variable {tokens : List Token}

/-- What is written behind a closing quote does not start with another quote. -/
theorem joinBehind_ne_quote (quoted : WellQuoted tokens) (before : Option Token) :
    ∀ tail, (Spacing.expression.joinBehind before quote false tokens).toList = quoteChar :: tail →
      False := by
  have space : ∀ {text : String} {tail : List Char},
      (" " ++ text).toList = quoteChar :: tail → False := by
    intro text tail starts
    rw [String.toList_append] at starts
    exact absurd (List.cons.inj starts).1 (by decide)
  intro tail starts
  cases quoted with
  | nil => cases starts
  | @code token rest bare later =>
    rw [Spacing.joinBehind_outside] at starts
    rcases Spacing.gap_cases .expression before quote token with gap | gap
    · rw [gap] at starts
      exact space starts
    · obtain ⟨c, more, chars, -, other⟩ := bare.head
      rw [gap, String.empty_append, Spacing.lineFrom, String.toList_append, chars] at starts
      exact other (List.cons.inj starts).1
  | literal escaped later =>
    rw [Spacing.joinBehind_outside, Spacing.gap_quotes] at starts
    exact space starts
  | unclosed escaped visible =>
    rw [Spacing.joinBehind_outside, Spacing.gap_quotes] at starts
    exact space starts

/-- A gap holds no literal. -/
theorem literalsFrom_joinBehind (tokens : List Token) (before : Option Token) (previous : Token) :
    literalsFrom none (Spacing.expression.joinBehind before previous false tokens).toList =
      literalsFrom none (Spacing.expression.lineFrom (some previous) tokens).toList := by
  cases tokens with
  | nil => rfl
  | cons first rest =>
    rw [Spacing.joinBehind_outside, String.toList_append]
    apply literalsFrom_append
    rcases Spacing.gap_cases .expression before previous first with gap | gap <;> rw [gap] <;>
      decide

/-- The literals of a written line are the spans of its tokens. -/
theorem literals (quoted : WellQuoted tokens) (before : Option Token) :
    (literalsFrom none (Spacing.expression.lineFrom before tokens).toList).map Span.tokens =
      spans tokens := by
  have opens : ∀ chars, literalsFrom none (quoteChar :: chars) = literalsFrom (some []) chars :=
    fun _ => rfl
  have isQuote : (quote == quote) = true := by decide
  induction quoted generalizing before with
  | nil => rfl
  | @code token rest bare later inductionHypothesis =>
    have notQuote : (token == quote) = false := by simpa using bare.ne_quote
    have plain : quoteChar ∉ token.toList := fun member => (bare.2 quoteChar member).2 rfl
    rw [Spacing.lineFrom, notQuote, String.toList_append, literalsFrom_append plain,
      literalsFrom_joinBehind, inductionHypothesis, spans_code bare.ne_quote]
  | @literal text rest escaped later inductionHypothesis =>
    obtain ⟨last, written⟩ := Spacing.joinBehind_literal .expression before escaped rest
    rw [Spacing.lineFrom, isQuote, String.toList_append, written, toList_quote,
      List.singleton_append, opens, escaped.literalsFrom_closed [] (later.joinBehind_ne_quote last),
      List.map_cons, literalsFrom_joinBehind, inductionHypothesis, escaped.spans_literal]
    rfl
  | @unclosed text escaped visible =>
    rw [Spacing.lineFrom, isQuote, String.toList_append, Spacing.joinBehind_unclosed, toList_quote,
      List.singleton_append, opens, escaped.literalsFrom_unclosed, escaped.spans_unclosed]
    rfl

/-- A written line starts with the first character of its first token. -/
theorem lineFrom_head (quoted : WellQuoted tokens) (nonempty : tokens ≠ [])
    (before : Option Token) :
    ∃ c more, (Spacing.expression.lineFrom before tokens).toList = c :: more ∧
      isBlank c = false := by
  cases quoted with
  | nil => exact absurd rfl nonempty
  | code bare later =>
    obtain ⟨c, more, chars, visible, -⟩ := bare.head
    exact ⟨c, _, by rw [Spacing.lineFrom, String.toList_append, chars]; rfl, visible⟩
  | literal escaped later =>
    exact ⟨quoteChar, _, by rw [Spacing.lineFrom, String.toList_append, toList_quote]; rfl,
      by decide⟩
  | unclosed escaped visible =>
    exact ⟨quoteChar, _, by rw [Spacing.lineFrom, String.toList_append, toList_quote]; rfl,
      by decide⟩

/-- A line that ends visibly does so behind another token. -/
theorem joinBehind_endsVisible (quoted : WellQuoted tokens) (before : Option Token)
    (previous : Token)
    (ends : EndsVisible (Spacing.expression.lineFrom (some previous) tokens).toList) :
    EndsVisible (Spacing.expression.joinBehind before previous false tokens).toList := by
  cases tokens with
  | nil => exact nofun
  | cons first rest =>
    rw [Spacing.joinBehind_outside, String.toList_append]
    apply ends.append_of_ne_nil
    obtain ⟨c, more, chars, -⟩ := quoted.lineFrom_head nofun (some previous)
    simp [chars]

/-- A written line ends with the last character of its last token. -/
theorem endsVisible (quoted : WellQuoted tokens) (before : Option Token) :
    EndsVisible (Spacing.expression.lineFrom before tokens).toList := by
  have quoteVisible : EndsVisible [quoteChar] := by
    intro c last
    obtain rfl := Option.some.inj last
    decide
  have isQuote : (quote == quote) = true := by decide
  induction quoted generalizing before with
  | nil => exact fun c last => absurd last (by simp [Spacing.lineFrom])
  | @code token rest bare later inductionHypothesis =>
    have notQuote : (token == quote) = false := by simpa using bare.ne_quote
    rw [Spacing.lineFrom, notQuote, String.toList_append]
    refine EndsVisible.append ?_ (later.joinBehind_endsVisible before token
      (inductionHypothesis (some token)))
    exact fun c last => (bare.2 c (List.mem_of_getLast? last)).1
  | @literal text rest escaped later inductionHypothesis =>
    obtain ⟨last, written⟩ := Spacing.joinBehind_literal .expression before escaped rest
    have behind := later.joinBehind_endsVisible last quote (inductionHypothesis (some quote))
    have closed := (quoteVisible.append behind).append_of_ne_nil (by simp) text
    rw [Spacing.lineFrom, isQuote, String.toList_append, written]
    exact closed.append_of_ne_nil (by simp) _
  | @unclosed text escaped visible =>
    rw [Spacing.lineFrom, isQuote, String.toList_append, Spacing.joinBehind_unclosed, toList_quote]
    exact quoteVisible.append visible

/-- Nothing is trimmed off a written line. -/
theorem trimmed (quoted : WellQuoted tokens) (before : Option Token) :
    Text.Trimmed (Spacing.expression.lineFrom before tokens).toList := by
  refine ⟨?_, Text.dropTrailingBlanks_eq_self.mpr (quoted.endsVisible before)⟩
  intro c first
  cases tokens with
  | nil => cases first
  | cons token rest =>
    obtain ⟨c', more, chars, visible⟩ := quoted.lineFrom_head nofun before
    rw [chars] at first
    obtain rfl := Option.some.inj first
    exact visible

/-- Reading a written line again gives back the spans of its tokens. -/
theorem spans_tokenize (quoted : WellQuoted tokens) :
    spans (tokenize (formatTokens tokens)) = spans tokens := by
  have line : (Text.trim (formatTokens tokens)).toList =
      (Spacing.expression.lineFrom none tokens).toList := by
    rw [formatTokens, Spacing.join_eq, Text.trim, String.toList_ofList,
      (Text.trimmed_trim _).trimBlanks_eq, Text.trim, String.toList_ofList,
      (quoted.trimmed none).trimBlanks_eq]
  calc spans (tokenize (formatTokens tokens))
    _ = spans (split (formatTokens tokens)) := (split_shaped _).wellQuoted.2
    _ = (literalsFrom none (Spacing.expression.lineFrom none tokens).toList).map Span.tokens := by
      rw [spans_split, line]
    _ = spans tokens := quoted.literals none

end Token.WellQuoted

open Token

/-- The words of expressions are written as bare tokens. -/
theorem Vocabulary.expression_bare {word written : String}
    (found : Vocabulary.expression? word = some written) : Bare written := by
  have values : ∀ entry ∈ Vocabulary.expressionWords, Bare entry.2 := by decide
  exact values (_, written) (@Table.mem_entries_of_get? _ ⟨Vocabulary.expressionWords⟩ _ _ found)

/-- A bare token of an expression is written as a bare token. -/
theorem Expression.expressionToken_bare (token : Token) (bare : Bare token) :
    Bare (expressionToken token) := by
  unfold expressionToken
  cases found : Vocabulary.expression? token with
  | none => exact bare
  | some written => exact Vocabulary.expression_bare found

/-- A bare token of a condition is written as a bare token. -/
theorem Expression.conditionToken_bare (token : Token) (bare : Bare token) :
    Bare (conditionToken token) := by
  unfold conditionToken
  split
  · decide
  · decide
  · decide
  · decide
  · decide
  · exact expressionToken_bare token bare

/-- The tokens of a line are well quoted. -/
theorem wellQuoted_lineTokens (line : String) : WellQuoted (lineTokens line) :=
  (split_shaped line).wellQuoted.1.joinAmpersands ""

/-- The literals of a line stand in the expression and in the condition that are written from
it: read again, either text has the same quoted spans in the same order, each with the same
content and closed if it was closed in the line. -/
theorem rendering_keeps_literals (line : String) :
    spans (tokenize (Expression.render (lineTokens line))) = spans (lineTokens line) ∧
      spans (tokenize (Expression.renderCondition (lineTokens line))) =
        spans (lineTokens line) := by
  have quoted := wellQuoted_lineTokens line
  obtain ⟨expression, sameInExpression⟩ := quoted.change Expression.expressionToken_bare
  obtain ⟨condition, sameInCondition⟩ := quoted.change Expression.conditionToken_bare
  constructor
  · exact expression.spans_tokenize.trans sameInExpression
  · exact condition.spans_tokenize.trans sameInCondition

end BasicToSharp
