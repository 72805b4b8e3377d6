import BasicToSharp.Proofs.PiecewiseReading

/-!
# Reading a formatted line again

Tokens are written with one space between neighbours, and rules leave some of these spaces
out. What is left out between a word and a symbol does no harm, since the two are told apart
by their characters. Between two runs of operator characters it does: they are read as one.

No rule sets two words or two quotes tight. What remains are pairs of operator runs of which
the first is a dot, an exclamation mark or the sign of an operand, or the second is a dot.
Wherever such a pair stands, and only there, the written line has fewer tokens than it was
written from. Each of its tokens is a token of the old line or several of them joined; none is
ever split.
-/

namespace BasicToSharp.Token

open Text (EndsVisible)

/-! ## Tokens of a line -/

/-- The tokens of a line without the spaces between them: code by its kinds, and literals. -/
inductive Lexed : List Token → Prop
  | nil : Lexed []
  | code {kind : Kind} {token : Token} {rest : List Token} :
      kind ≠ .quote → kind.fits token = true → token ≠ " " → Lexed rest → Lexed (token :: rest)
  | literal {text : List Char} {rest : List Token} :
      Escaped text → Lexed rest → Lexed (quote :: (spanTokens text ++ quote :: rest))
  | unclosed {text : List Char} :
      Escaped text → EndsVisible text → Lexed (quote :: spanTokens text)

/-- Tokens as they are read from a line are well quoted. -/
theorem Lexed.wellQuoted {tokens : List Token} (lexed : Lexed tokens) : WellQuoted tokens := by
  induction lexed with
  | nil => exact .nil
  | code plain fits other later inductionHypothesis =>
    exact .code (Kind.bare plain fits other) inductionHypothesis
  | literal escaped later inductionHypothesis => exact .literal escaped inductionHypothesis
  | unclosed escaped visible => exact .unclosed escaped visible

/-- Tokens of the right shape are as they are read, once blanks are dropped. -/
theorem Shaped.lexed {before : Option Kind} {tokens : List Token}
    (shaped : Shaped before tokens) : Lexed (dropBlanks tokens) := by
  change Lexed ((mark tokens).filterMap Marked.kept)
  induction shaped with
  | nil => exact .nil
  | @code before kind token rest plain fits apart later inductionHypothesis =>
    rw [mark_code (Kind.ne_quote plain fits), List.filterMap_cons, Marked.kept_code fits]
    by_cases space : token = " "
    · rw [if_pos space]
      exact inductionHypothesis
    · rw [if_neg space]
      exact .code plain fits space inductionHypothesis
  | literal escaped later inductionHypothesis =>
    rw [escaped.mark_literal, List.append_assoc, List.filterMap_append,
      filterMap_kept_literalMarks]
    exact .literal escaped inductionHypothesis
  | unclosed escaped visible =>
    rw [escaped.mark_unclosed, filterMap_kept_literalMarks]
    exact .unclosed escaped visible

/-- The tokens of a line are as they are read from one. -/
theorem lexed_tokenize (line : String) : Lexed (tokenize line) := (split_shaped line).lexed

/-! ## Neighbours that are read as one -/

/-- Two neighbours that are read as one token when they are written: both are runs of operator
characters, and a rule leaves out the space between them, since one of them is set tight on
that side or the first is the sign of an operand. -/
def Fuses (before : Option Token) (left right : Token) : Prop :=
  Kind.operators.fits left = true ∧ Kind.operators.fits right = true ∧
    (left = "." ∨ left = "!" ∨ right = "." ∨ Spacing.isSign before left = true)

instance (before : Option Token) (left right : Token) : Decidable (Fuses before left right) :=
  inferInstanceAs (Decidable (_ ∧ _))

/-- The tokens behind `left`, with what fuses joined. `held` is `left` with all the tokens
before it that it is joined to. -/
def rejoinFrom (before : Option Token) (left held : Token) : List Token → List Token
  | [] => [held]
  | right :: rest =>
    if Fuses before left right then rejoinFrom (some left) right (held ++ right) rest
    else held :: rejoinFrom (some left) right right rest

/-- Tokens with the neighbours that fuse joined. -/
def rejoin : List Token → List Token
  | [] => []
  | first :: rest => rejoinFrom none first first rest

/-- Some token of the list, which is read behind `before`, fuses with the next. -/
inductive FusesSomewhere : Option Token → List Token → Prop
  | here {before : Option Token} {left right : Token} {rest : List Token} :
      Fuses before left right → FusesSomewhere before (left :: right :: rest)
  | later {before : Option Token} {first : Token} {rest : List Token} :
      FusesSomewhere (some first) rest → FusesSomewhere before (first :: rest)

/-- Nothing fuses with a quote before it. -/
theorem not_fuses_quote_left (before : Option Token) (right : Token) :
    ¬ Fuses before quote right := by
  rintro ⟨fits, -⟩
  exact absurd fits (by decide)

/-- Nothing fuses with a quote behind it. -/
theorem not_fuses_quote_right (before : Option Token) (left : Token) :
    ¬ Fuses before left quote := by
  rintro ⟨-, fits, -⟩
  exact absurd fits (by decide)

section Gaps

variable {kind next : Kind} {before : Option Token} {left right : Token}

/-- Tokens of different kinds are different. -/
theorem Kind.ne_of_fits (fits : kind.fits left = true) (other : kind.fits right = false) :
    left ≠ right := by
  rintro rfl
  exact absurd fits (by simp [other])

/-- A token of a kind is none of the tokens of other kinds. -/
theorem Kind.not_mem_of_fits (fits : kind.fits left = true) {symbols : List Token}
    (others : symbols.all (!kind.fits ·) = true) : left ∉ symbols := by
  intro member
  have other := List.all_eq_true.mp others left member
  rw [fits] at other
  cases other

/-- Neighbours that no rule sets tight have a space between them. -/
theorem gap_eq_space (notSign : left ∉ ["-", "+"]) (loose : left ∉ Spacing.expression.tightAfter)
    (looseRight : right ∉ "(" :: Spacing.expression.tightBefore) :
    Spacing.expression.gap before left right = " " := by
  simp only [List.mem_cons, List.not_mem_nil, or_false, not_or] at notSign looseRight
  have noSign : Spacing.isSign before left = false := by simp [Spacing.isSign, notSign]
  have apart : Spacing.expression.separates left right false = true := by
    simp [Spacing.separates, loose, looseRight]
  simp [Spacing.gap, noSign, apart]

/-- No rule sets two words tight. -/
theorem gap_words (fits : Kind.word.fits left = true) (fitsRight : Kind.word.fits right = true) :
    Spacing.expression.gap before left right = " " := by
  apply gap_eq_space
  · exact Kind.not_mem_of_fits fits (by decide)
  · exact Kind.not_mem_of_fits fits (by decide)
  · exact Kind.not_mem_of_fits fitsRight (by decide)

/-- Two runs of operator characters are set tight by a dot, an exclamation mark or a sign. -/
theorem gap_operators (fits : Kind.operators.fits left = true)
    (fitsRight : Kind.operators.fits right = true) :
    Spacing.expression.gap before left right = "" ↔
      left = "." ∨ left = "!" ∨ right = "." ∨ Spacing.isSign before left = true := by
  have notOpen : left ≠ "(" := Kind.ne_of_fits fits (by decide)
  have rightNotOpen : right ≠ "(" := Kind.ne_of_fits fitsRight (by decide)
  have notComma : right ≠ "," := Kind.ne_of_fits fitsRight (by decide)
  have notClose : right ≠ ")" := Kind.ne_of_fits fitsRight (by decide)
  cases sign : Spacing.isSign before left <;>
    simp [Spacing.gap, sign, Spacing.separates, Spacing.expression, notOpen, rightNotOpen,
      notComma, notClose]
  grind

/-- Neighbours fuse where runs of one kind are written without a space between them. -/
theorem fuses_iff (fits : kind.fits left = true) (fitsRight : next.fits right = true) :
    Fuses before left right ↔
      (kind = next ∧ kind.isRun = true) ∧ Spacing.expression.gap before left right = "" := by
  constructor
  · rintro ⟨fitsLeft, fitsNext, tight⟩
    obtain rfl := Kind.fits_unique fits fitsLeft
    obtain rfl := Kind.fits_unique fitsRight fitsNext
    exact ⟨⟨rfl, rfl⟩, (gap_operators fitsLeft fitsNext).mpr tight⟩
  · rintro ⟨⟨rfl, isRun⟩, tight⟩
    cases kind with
    | quote => cases isRun
    | grouping => cases isRun
    | operators => exact ⟨fits, fitsRight, (gap_operators fits fitsRight).mp tight⟩
    | word =>
      rw [gap_words fits fitsRight] at tight
      exact absurd tight (by decide)

end Gaps

/-! ## Joined tokens -/

section Rejoined

variable {before : Option Token} {left held : Token} {rest : List Token}

/-- Nothing fuses with a quote, whatever stands before it. -/
theorem rejoinFrom_behind_quote (before other : Option Token) (held : Token)
    (rest : List Token) : rejoinFrom before quote held rest = rejoinFrom other quote held rest := by
  cases rest with
  | nil => rfl
  | cons right rest =>
    rw [rejoinFrom, if_neg (not_fuses_quote_left _ _), rejoinFrom,
      if_neg (not_fuses_quote_left _ _)]

/-- A quote ends the held token and fuses with nothing. -/
theorem rejoinFrom_quote (before : Option Token) (left held : Token) (rest : List Token) :
    rejoinFrom before left held (quote :: rest) = held :: rejoinFrom none quote quote rest := by
  rw [rejoinFrom, if_neg (not_fuses_quote_right _ _), rejoinFrom_behind_quote _ none]

/-- The tokens of a literal are left as they are. -/
theorem rejoinFrom_literal (text : List Char) (rest : List Token) :
    rejoinFrom none quote quote (spanTokens text ++ quote :: rest) =
      quote :: (spanTokens text ++ rejoinFrom none quote quote rest) := by
  unfold spanTokens
  split
  · exact rejoinFrom_quote _ _ _ _
  · rw [List.singleton_append, rejoinFrom, if_neg (not_fuses_quote_left _ _), rejoinFrom_quote]
    rfl

/-- The text of a literal fuses with nothing. -/
theorem rejoinFrom_unclosed (text : List Char) :
    rejoinFrom none quote quote (spanTokens text) = quote :: spanTokens text := by
  unfold spanTokens
  split
  · rfl
  · rw [rejoinFrom, if_neg (not_fuses_quote_left _ _)]
    rfl

/-- Fusing makes no more tokens. -/
theorem length_rejoinFrom_le (before : Option Token) (left held : Token) (rest : List Token) :
    (rejoinFrom before left held rest).length ≤ rest.length + 1 := by
  induction rest generalizing before left held with
  | nil => exact Nat.le_refl 1
  | cons right rest inductionHypothesis =>
    rw [rejoinFrom]
    split
    · have shorter := inductionHypothesis (some left) right (held ++ right)
      rw [List.length_cons]
      omega
    · rw [List.length_cons, List.length_cons]
      exact Nat.succ_le_succ (inductionHypothesis (some left) right right)

/-- Where nothing fuses, nothing is joined. -/
theorem rejoinFrom_eq_cons (apart : ¬ FusesSomewhere before (left :: rest)) (held : Token) :
    rejoinFrom before left held rest = held :: rest := by
  induction rest generalizing before left held with
  | nil => rfl
  | cons right rest inductionHypothesis =>
    have here : ¬ Fuses before left right := fun fuses => apart (.here fuses)
    rw [rejoinFrom, if_neg here, inductionHypothesis fun later => apart (.later later)]

/-- Where something fuses, fewer tokens are left. -/
theorem length_rejoinFrom_lt (fused : FusesSomewhere before (left :: rest)) (held : Token) :
    (rejoinFrom before left held rest).length < rest.length + 1 := by
  induction rest generalizing before left held with
  | nil =>
    cases fused with
    | later none => cases none
  | cons right rest inductionHypothesis =>
    rw [rejoinFrom, List.length_cons]
    by_cases here : Fuses before left right
    · rw [if_pos here]
      have shorter := length_rejoinFrom_le (some left) right (held ++ right) rest
      omega
    · rw [if_neg here, List.length_cons]
      cases fused with
      | here fuses => exact absurd fuses here
      | later fused => exact Nat.succ_lt_succ (inductionHypothesis fused right)

/-- The tokens are cut into stretches, and each stretch is joined. -/
theorem rejoinFrom_stretches (before : Option Token) (left : Token) (rest : List Token)
    {front : List Token} (nonempty : front ≠ []) :
    ∃ stretches : List (List Token), stretches.flatten = front ++ rest ∧ [] ∉ stretches ∧
      rejoinFrom before left (String.join front) rest = stretches.map String.join := by
  induction rest generalizing before left front with
  | nil =>
    refine ⟨[front], by simp, ?_, rfl⟩
    simpa using nonempty.symm
  | cons right rest inductionHypothesis =>
    rw [rejoinFrom]
    split
    · have joined : String.join front ++ right = String.join (front ++ [right]) := by simp
      obtain ⟨stretches, whole, filled, same⟩ :=
        @inductionHypothesis (some left) right (front ++ [right]) (by simp)
      exact ⟨stretches, by simp [whole], filled, by rw [joined, same]⟩
    · obtain ⟨stretches, whole, filled, same⟩ :=
        @inductionHypothesis (some left) right [right] nofun
      have single : String.join [right] = right := by simp
      refine ⟨front :: stretches, by simp [whole], ?_, ?_⟩
      · simpa using ⟨nonempty, filled⟩
      · rw [List.map_cons, ← same, single]

end Rejoined

/-- What is fused are stretches of tokens, which together are all of them. -/
theorem rejoin_stretches (tokens : List Token) :
    ∃ stretches : List (List Token), stretches.flatten = tokens ∧ [] ∉ stretches ∧
      rejoin tokens = stretches.map String.join := by
  cases tokens with
  | nil => exact ⟨[], rfl, nofun, rfl⟩
  | cons first rest =>
    obtain ⟨stretches, whole, filled, same⟩ := @rejoinFrom_stretches none first rest [first] nofun
    refine ⟨stretches, whole, filled, ?_⟩
    have single : String.join [first] = first := by simp
    rw [← same, single]
    rfl

/-- Tokens stay as they are exactly if no two of them fuse. -/
theorem rejoin_eq_self_iff (tokens : List Token) :
    rejoin tokens = tokens ↔ ¬ FusesSomewhere none tokens := by
  cases tokens with
  | nil => exact ⟨fun _ => nofun, fun _ => rfl⟩
  | cons first rest =>
    constructor
    · intro same fused
      have shorter := length_rejoinFrom_lt fused first
      have length := congrArg List.length same
      rw [rejoin, List.length_cons] at length
      omega
    · exact fun apart => rejoinFrom_eq_cons apart first

/-! ## Writing and reading again -/

/-- A quote ends the held token, with a space before it or without. -/
theorem Kind.resume_gap_quote {kind : Kind} {held : Token} (fits : kind.fits held = true)
    (other : held ≠ " ") (before : Option Token) (previous : Token) (chars : List Char) :
    kind.resume held ((Spacing.expression.gap before previous Token.quote).toList ++
        quoteChar :: chars) =
      held :: Token.quote :: dropBlanksFrom true (scan (.literal []) chars) := by
  rcases Spacing.gap_cases .expression before previous Token.quote with gap | gap
  · rw [gap]
    exact (Kind.resume_blank fits other (by decide)).trans (congrArg (held :: ·) read_quote)
  · rw [gap]
    exact Kind.resume_quote fits other

/-- What is written behind a token is read as the tokens it was written from, joined where
they fuse. The induction carries the token that is held when the next one comes. -/
theorem Lexed.resume_joinBehind {tokens : List Token} (lexed : Lexed tokens)
    {kind : Kind} {before : Option Token} {previous held : Token}
    (fitsPrevious : kind.fits previous = true) (fits : kind.fits held = true) (other : held ≠ " ") :
    kind.resume held (Spacing.expression.joinBehind before previous false tokens).toList =
      rejoinFrom before previous held tokens := by
  have isQuote : (quote == quote) = true := by decide
  induction lexed generalizing kind before previous held with
  | nil => exact Kind.resume_nil fits other
  | @code next token rest plain fitsNext visible later inductionHypothesis =>
    have notQuote : (token == quote) = false := by simpa using Kind.ne_quote plain fitsNext
    have written : (Spacing.expression.lineFrom (some previous) (token :: rest)).toList =
        token.toList ++
          (Spacing.expression.joinBehind (some previous) token false rest).toList := by
      rw [Spacing.lineFrom, notQuote, String.toList_append]
    have fuses := @fuses_iff kind next before previous token fitsPrevious fitsNext
    rw [Spacing.joinBehind_outside, String.toList_append, written, rejoinFrom]
    rcases Spacing.gap_cases .expression before previous token with gap | gap
    · have apart : ¬ Fuses before previous token := by
        rw [fuses, gap]
        exact fun tight => absurd tight.2 (by decide)
      rw [gap, if_neg apart]
      refine (Kind.resume_blank fits other (by decide)).trans (congrArg (held :: ·) ?_)
      exact (read_token plain fitsNext visible).trans
        (inductionHypothesis fitsNext fitsNext visible)
    · rw [gap]
      by_cases same : kind = next ∧ kind.isRun = true
      · obtain ⟨rfl, isRun⟩ := same
        have fitsBoth := Kind.fits_append isRun fits fitsNext
        have bothVisible := Kind.ne_space_of_isRun isRun fitsBoth
        rw [if_pos (fuses.mpr ⟨⟨rfl, isRun⟩, gap⟩)]
        exact (Kind.resume_same isRun fitsNext).trans
          (inductionHypothesis fitsNext fitsBoth bothVisible)
      · rw [if_neg fun fused => same (fuses.mp fused).1]
        refine (Kind.resume_other fits other plain fitsNext visible ?_).trans
          (congrArg (held :: ·) (inductionHypothesis fitsNext fitsNext visible))
        intro isSame
        simpa [isSame] using same
  | @literal text rest escaped later inductionHypothesis =>
    obtain ⟨last, written⟩ := Spacing.joinBehind_literal .expression (some previous) escaped rest
    have closes := later.wellQuoted.joinBehind_ne_quote last
    have behind := @inductionHypothesis .quote last quote quote (by decide) (by decide) (by decide)
    rw [Spacing.joinBehind_outside, String.toList_append, Spacing.lineFrom, isQuote,
      String.toList_append, written, toList_quote, List.singleton_append,
      Kind.resume_gap_quote fits other, escaped.read_closed closes, behind, rejoinFrom_quote,
      rejoinFrom_literal, rejoinFrom_behind_quote last none]
  | @unclosed text escaped visible =>
    rw [Spacing.joinBehind_outside, String.toList_append, Spacing.lineFrom, isQuote,
      String.toList_append, Spacing.joinBehind_unclosed, toList_quote, List.singleton_append,
      Kind.resume_gap_quote fits other, escaped.read_unclosed, rejoinFrom_quote,
      rejoinFrom_unclosed]

/-- Nothing is trimmed off a formatted line. -/
theorem WellQuoted.formatTokens_eq {tokens : List Token} (quoted : WellQuoted tokens) :
    formatTokens tokens = Spacing.expression.lineFrom none tokens := by
  rw [formatTokens, Spacing.join_eq, Text.trim, (quoted.trimmed none).trimBlanks_eq,
    String.ofList_toList]

/-- The tokens of a written line are those it was written from, joined where they fuse. -/
theorem Lexed.tokenize_formatTokens {tokens : List Token} (lexed : Lexed tokens) :
    tokenize (formatTokens tokens) = rejoin tokens := by
  have line : Text.trimBlanks (formatTokens tokens).toList =
      (Spacing.expression.lineFrom none tokens).toList := by
    rw [lexed.wellQuoted.formatTokens_eq, (lexed.wellQuoted.trimmed none).trimBlanks_eq]
  have isQuote : (quote == quote) = true := by decide
  rw [tokenize_eq_read, line]
  cases lexed with
  | nil => rfl
  | @code kind first rest plain fits visible later =>
    have notQuote : (first == quote) = false := by simpa using Kind.ne_quote plain fits
    rw [Spacing.lineFrom, notQuote, String.toList_append, read_token plain fits visible,
      later.resume_joinBehind fits fits visible]
    rfl
  | @literal text rest escaped later =>
    obtain ⟨last, written⟩ := Spacing.joinBehind_literal .expression none escaped rest
    have behind := @later.resume_joinBehind _ .quote last quote quote (by decide) (by decide)
      (by decide)
    rw [Spacing.lineFrom, isQuote, String.toList_append, written, toList_quote,
      List.singleton_append, read_quote,
      escaped.read_closed (later.wellQuoted.joinBehind_ne_quote last), behind, rejoin,
      rejoinFrom_literal, rejoinFrom_behind_quote last none]
  | @unclosed text escaped visible =>
    rw [Spacing.lineFrom, isQuote, String.toList_append, Spacing.joinBehind_unclosed, toList_quote,
      List.singleton_append, read_quote, escaped.read_unclosed, rejoin, rejoinFrom_unclosed]

/-- Formatting a line keeps its tokens apart exactly when no two of its operator runs are set
tight against each other. Otherwise the formatted line is read as the same tokens with every
such pair joined. No token is ever split: each one that is read again is a stretch of the old
ones. -/
theorem formatted_line_keeps_tokens (line : String) :
    tokenize (formatTokens (tokenize line)) = rejoin (tokenize line) ∧
    (∃ stretches : List (List Token), stretches.flatten = tokenize line ∧ [] ∉ stretches ∧
      tokenize (formatTokens (tokenize line)) = stretches.map String.join) ∧
    (tokenize (formatTokens (tokenize line)) = tokenize line ↔
      ¬ FusesSomewhere none (tokenize line)) := by
  have reread := (lexed_tokenize line).tokenize_formatTokens
  rw [reread]
  exact ⟨rfl, rejoin_stretches _, rejoin_eq_self_iff _⟩

/-- The two signs of `- -y` are written side by side and read as one token. -/
theorem formatted_signs_fuse :
    formatTokens (tokenize "x = - -y") = "x = --y" ∧
    tokenize "x = - -y" = ["x", "=", "-", "-", "y"] ∧
    tokenize (formatTokens (tokenize "x = - -y")) = ["x", "=", "--", "y"] := by
  decide

end BasicToSharp.Token
