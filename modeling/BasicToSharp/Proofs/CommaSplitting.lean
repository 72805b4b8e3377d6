import BasicToSharp.Proofs.RespacedTokens
import BasicToSharp.Proofs.ScanSteps

/-!
# Splitting a text at its commas

A declaration is split into pieces by its characters, before anything in it is a token. What is
then read of the pieces are tokens. The same tokens are found by reading the whole text first
and splitting its tokens at their commas: brackets and commas are tokens of their own, both
walks count the same brackets, and a quote opens and closes a literal for both.

Only the blanks at the two ends of the text take care: those in front belong to the first piece
and those behind to the last, which may be inside a literal that is never closed. All other
pieces end where no literal is open.

A text in which every literal is closed can be put before another one with a space between
them, and each is read as if it stood alone.
-/

namespace BasicToSharp

open Token (quoteChar quote)
open Text (isBlank)

namespace Token

/-! ## Texts side by side -/

section Texts

variable {chars : List Char} {text front back : String}

/-- Tokens leave a literal open exactly if their characters do. -/
theorem insideAfter_read (chars : List Char) :
    insideAfter false (read chars) = openAfter false chars :=
  @insideAfter_resume (.code .none) trivial chars

/-- At a blank outside literals, tokens are read separately. -/
theorem read_append_blank (closed : openAfter false chars = false) {blank : Char}
    (isBlank : isBlank blank = true) (rest : List Char) :
    read (chars ++ blank :: rest) = read chars ++ read rest :=
  @Mode.resume_blank (.code .none) trivial chars closed blank isBlank rest

/-- Blanks neither open nor close a literal. -/
theorem openAfter_blanks {blanks : List Char} (blank : Text.AllBlank blanks) (inside : Bool) :
    openAfter inside blanks = inside := by
  refine openAfter_plain (fun isQuote => ?_) inside
  exact absurd (blank quoteChar isQuote) (by decide)

/-- Blanks at the end of a text are not read, if they are in no literal. -/
theorem read_append_blanks (closed : openAfter false chars = false) {blanks : List Char}
    (blank : Text.AllBlank blanks) : read (chars ++ blanks) = read chars := by
  cases blanks with
  | nil => rw [List.append_nil]
  | cons first rest =>
    obtain ⟨here, later⟩ := List.forall_mem_cons.mp blank
    have nothing : read rest = [] := by
      have all := @read_blanks [] rest later
      rw [List.append_nil] at all
      exact all
    rw [read_append_blank closed here, nothing, List.append_nil]

/-- What trimming takes away are blanks at either end. -/
theorem trimBlanks_between (chars : List Char) : ∃ leading trailing, Text.AllBlank leading ∧
    Text.AllBlank trailing ∧ chars = leading ++ (Text.trimBlanks chars ++ trailing) := by
  refine ⟨chars.takeWhile isBlank, (chars.dropWhile isBlank).rtakeWhile isBlank, ?_, ?_, ?_⟩
  · exact fun c member => List.mem_takeWhile_imp member
  · exact fun c member => List.mem_rtakeWhile_imp member
  · rw [Text.trimBlanks, Text.dropTrailingBlanks_append, List.takeWhile_append_dropWhile]

/-- Trimming blanks keeps whether a literal is left open. -/
theorem openAfter_trimBlanks (chars : List Char) :
    openAfter false (Text.trimBlanks chars) = openAfter false chars := by
  obtain ⟨leading, trailing, blank, blank', split⟩ := trimBlanks_between chars
  generalize Text.trimBlanks chars = kept at split
  rw [split, openAfter_append, openAfter_append, openAfter_blanks blank, openAfter_blanks blank']

/-- Trimming blanks keeps the tokens, if no literal is left open. -/
theorem read_trimBlanks (closed : openAfter false chars = false) :
    read (Text.trimBlanks chars) = read chars := by
  obtain ⟨leading, trailing, blank, blank', split⟩ := trimBlanks_between chars
  rw [← openAfter_trimBlanks] at closed
  generalize Text.trimBlanks chars = kept at split closed
  rw [split, read_blanks blank, read_append_blanks closed blank']

/-- A literal is open behind a text exactly when it is behind its tokens. -/
theorem insideAfter_tokenize (text : String) :
    insideAfter false (tokenize text) = openAfter false text.toList := by
  rw [tokenize_eq_read, insideAfter_read, openAfter_trimBlanks]

/-- A text that leaves no literal open is read as it stands. -/
theorem tokenize_closed (closed : openAfter false text.toList = false) :
    tokenize text = read text.toList := by
  rw [tokenize_eq_read, read_trimBlanks closed]

/-- Blanks behind the last visible character are trimmed, whatever literal they are in. -/
theorem read_trimBlanks_append {body trailing : List Char} (ends : Text.EndsVisible body)
    (blank : Text.AllBlank trailing) : read (Text.trimBlanks (body ++ trailing)) = read body := by
  have dropped : ∀ {chars : List Char}, Text.EndsVisible chars →
      Text.dropTrailingBlanks (chars ++ trailing) = chars := by
    intro chars ends
    have reversed : ∀ c ∈ trailing.reverse, isBlank c = true :=
      fun c member => blank c (List.mem_reverse.mp member)
    rw [Text.dropTrailingBlanks, List.reverse_append, List.dropWhile_append_of_pos reversed]
    exact Text.dropTrailingBlanks_eq_self.mpr ends
  have split : body.takeWhile isBlank ++ body.dropWhile isBlank = body :=
    List.takeWhile_append_dropWhile
  have leading : read body = read (body.dropWhile isBlank) := by
    rw [← split, read_blanks fun c member => List.mem_takeWhile_imp member, split]
  rw [leading, Text.trimBlanks, List.dropWhile_append]
  cases visible : body.dropWhile isBlank with
  | nil =>
    have allBlank : trailing.dropWhile isBlank = [] := List.dropWhile_eq_nil_iff.mpr blank
    rw [List.isEmpty_nil, if_pos rfl, allBlank]
    rfl
  | cons c rest =>
    rw [← split, visible] at ends
    rw [List.isEmpty_cons, if_neg Bool.false_ne_true, dropped ends.of_append]

/-- A text with closed literals is read as if nothing stood behind it, and what follows the
space as if nothing stood before it. -/
theorem tokenize_append (closed : openAfter false front.toList = false) (back : String) :
    tokenize (front ++ " " ++ back) = tokenize front ++ tokenize back := by
  obtain ⟨leading, trailing, blank, blank', split⟩ := trimBlanks_between back.toList
  have whole : (front ++ " " ++ back).toList = front.toList ++ ' ' :: back.toList := by simp
  have trimmed := (Text.trimmed_iff.mp (Text.trimmed_trim back)).2
  rw [Text.trim, String.toList_ofList] at trimmed
  rw [tokenize_closed closed, tokenize_eq_read, tokenize_eq_read, whole]
  generalize Text.trimBlanks back.toList = kept at split trimmed
  by_cases nothing : kept = []
  · subst nothing
    have blankBack : Text.AllBlank back.toList := by
      rw [split, List.nil_append]
      exact List.forall_mem_append.mpr ⟨blank, blank'⟩
    have closedWhole : openAfter false (front.toList ++ ' ' :: back.toList) = false := by
      rw [openAfter_append, closed]
      exact openAfter_blanks blankBack false
    have unread := @read_blanks [] back.toList blankBack
    rw [List.append_nil] at unread
    rw [read_trimBlanks closedWhole, read_append_blank closed (by decide), unread]
  · have ends : Text.EndsVisible ((front.toList ++ ' ' :: leading) ++ kept) :=
      trimmed.append_of_ne_nil nothing _
    have parts : front.toList ++ ' ' :: back.toList =
        ((front.toList ++ ' ' :: leading) ++ kept) ++ trailing := by simp [split]
    rw [parts, read_trimBlanks_append ends blank', List.append_assoc, List.cons_append,
      read_append_blank closed (by decide), read_blanks blank]

/-- A quote character outside literals is read as a quote. -/
theorem quote_mem_resume {mode : Mode} (sound : mode.Sound) (outside : mode.inside = false)
    (isQuote : quoteChar ∈ chars) : quote ∈ mode.resume chars := by
  revert outside isQuote
  refine Mode.scanInduction
    (motive := fun mode chars => mode.inside = false → quoteChar ∈ chars →
      quote ∈ mode.resume chars)
    ?finished ?opening ?code ?pair ?closing ?literal ?unclosed sound chars
  case finished => exact fun _ _ member => absurd member List.not_mem_nil
  case opening =>
    intro run rest gathers _ _ _
    rw [Mode.resume_opening gathers]
    simp
  case code =>
    intro run c rest gathers other later outside member
    rw [Mode.resume_code gathers other]
    exact List.mem_append_right _ (later rfl (List.mem_of_ne_of_mem other.symm member))
  case pair => exact fun _ inside => Bool.noConfusion inside
  case closing => exact fun _ _ _ inside => Bool.noConfusion inside
  case literal => exact fun _ _ inside => Bool.noConfusion inside
  case unclosed => exact fun _ inside => Bool.noConfusion inside

/-- A quote in a text is one of its tokens. -/
theorem quote_mem_tokenize (isQuote : quoteChar ∈ text.toList) : quote ∈ tokenize text := by
  obtain ⟨leading, trailing, blank, blank', split⟩ := trimBlanks_between text.toList
  rw [tokenize_eq_read]
  refine @quote_mem_resume _ (.code .none) trivial rfl ?_
  rw [split, List.mem_append, List.mem_append] at isQuote
  rcases isQuote with isLeading | isKept | isTrailing
  · exact absurd (blank _ isLeading) (by decide)
  · exact isKept
  · exact absurd (blank' _ isTrailing) (by decide)

/-- A token of code: a word, an operator run or a symbol, and not a space. -/
def IsCode (token : Token) : Prop :=
  ∃ kind : Kind, kind ≠ .quote ∧ kind.fits token = true ∧ token ≠ " "

/-- A word is code. -/
theorem IsCode.of_word {token : Token} (word : Kind.word.fits token = true) : IsCode token :=
  ⟨.word, by decide, word, Kind.ne_space_of_isRun rfl word⟩

/-- Code is no quote. -/
theorem IsCode.ne_quote {token : Token} (code : IsCode token) : token ≠ quote := by
  obtain ⟨kind, plain, fits, -⟩ := code
  exact Kind.ne_quote plain fits

/-- Code has no quotes in it. -/
theorem IsCode.bare {token : Token} (code : IsCode token) : Bare token := by
  obtain ⟨kind, plain, fits, other⟩ := code
  exact Kind.bare plain fits other

/-- Code leaves no literal open. -/
theorem IsCode.closed {token : Token} (code : IsCode token) :
    openAfter false token.toList = false :=
  openAfter_plain (fun isQuote => (code.bare.2 quoteChar isQuote).2 rfl) false

/-- A token of code is read as itself. -/
theorem IsCode.tokenize_eq {token : Token} (code : IsCode token) : tokenize token = [token] := by
  obtain ⟨kind, plain, fits, other⟩ := code
  have alone := @read_token kind token [] plain fits other
  rw [List.append_nil, Kind.resume_nil fits other] at alone
  rw [tokenize_closed (IsCode.closed ⟨kind, plain, fits, other⟩), alone]

/-- Tokens of code with a space between them are read as themselves. -/
theorem tokenize_intercalate {tokens : List Token} (code : ∀ token ∈ tokens, IsCode token) :
    tokenize (" ".intercalate tokens) = tokens := by
  induction tokens with
  | nil => rfl
  | cons token rest inductionHypothesis =>
    obtain ⟨here, later⟩ := List.forall_mem_cons.mp code
    cases rest with
    | nil => rw [String.intercalate_singleton, here.tokenize_eq]
    | cons next rest =>
      rw [String.intercalate_cons_cons, tokenize_append here.closed, here.tokenize_eq,
        inductionHypothesis later, List.singleton_append]

end Texts

/-! ## Commas -/

/-- The pieces of a text as they are read, the first of them from a mode on and behind the
tokens of `part`, last token first. -/
def Mode.readPieces (mode : Mode) (part : List Token) : List (List Char) → List (List Token)
  | [] => []
  | first :: rest => (part.reverse ++ mode.resume first) :: rest.map read

/-- What is put in front of the first piece is read before it. -/
theorem Mode.readPieces_modifyHead {mode mode' : Mode} {added : List Char} {given : List Token}
    (part : List Token) {pieces : List (List Char)}
    (same : ∀ first ∈ pieces.head?, mode.resume (added ++ first) = given ++ mode'.resume first) :
    mode.readPieces part (pieces.modifyHead (added ++ ·)) =
      mode'.readPieces (given.reverse ++ part) pieces := by
  cases pieces with
  | nil => rfl
  | cons first rest => simp [Mode.readPieces, same first rfl]

section Commas

open SourceLine (splitSegments)

variable {depth : Nat} {c : Char}

/-- Tokens without brackets and commas join the current part. -/
theorem splitCommas_inert {tokens : List Token}
    (inert : ∀ token ∈ tokens, isInert token = true ∧ token ≠ ",") (depth : Nat)
    (part more : List Token) :
    splitCommas depth part (markFrom false (tokens ++ more)) =
      splitCommas depth (tokens.reverse ++ part) (markFrom false more) := by
  induction tokens generalizing part with
  | nil => rfl
  | cons token rest inductionHypothesis =>
    obtain ⟨⟨here, other⟩, later⟩ := List.forall_mem_cons.mp inert
    obtain ⟨plain, notOpening, notClosing⟩ :
        token ≠ quote ∧ isOpening token = false ∧ isClosing token = false := by
      simpa [isInert, and_assoc] using here
    have step : splitCommas depth part (markFrom false (token :: (rest ++ more))) =
        splitCommas depth (token :: part) (markFrom false (rest ++ more)) := by
      simp [markFrom, splitCommas, plain, notOpening, notClosing, other]
    rw [List.cons_append, step, inductionHypothesis later, List.reverse_cons, List.append_assoc,
      List.singleton_append]

/-- A quote joins the current part and changes sides. -/
theorem splitCommas_quote (inside : Bool) (depth : Nat) (part more : List Token) :
    splitCommas depth part (markFrom inside (quote :: more)) =
      splitCommas depth (quote :: part) (markFrom (!inside) more) := by
  simp [markFrom, splitCommas]

/-- The text of a literal is passed over. -/
theorem splitCommas_literal {tokens : List Token} (plain : ∀ token ∈ tokens, token ≠ quote)
    (depth : Nat) (part more : List Token) :
    splitCommas depth part (markFrom true (tokens ++ more)) =
      splitCommas depth (tokens.reverse ++ part) (markFrom true more) := by
  induction tokens generalizing part with
  | nil => rfl
  | cons token rest inductionHypothesis =>
    obtain ⟨here, later⟩ := List.forall_mem_cons.mp plain
    rw [List.cons_append, markFrom, if_neg here, splitCommas, if_pos rfl,
      inductionHypothesis later, List.reverse_cons, List.append_assoc, List.singleton_append]

/-- A bracket opens or closes, and a comma in brackets changes nothing. -/
theorem splitCommas_separator (isSeparator : c ∈ separatorChars)
    (goesOn : ¬ (c = ',' ∧ depth = 0)) (part more : List Token) :
    splitCommas depth part (markFrom false (String.singleton c :: more)) =
      splitCommas (SourceLine.depthAfter depth false c) (String.singleton c :: part)
        (markFrom false more) := by
  have standing : separatorChars.all (fun c => decide (c ≠ quoteChar ∧
      String.singleton c ≠ quote ∧
      (isOpening (String.singleton c) = true ↔ c = '(' ∨ c = '[' ∨ c = '\x7b') ∧
      (isClosing (String.singleton c) = true ↔ c = ')' ∨ c = ']' ∨ c = '\x7d') ∧
      (String.singleton c = "," ↔ c = ','))) = true := by decide
  obtain ⟨notQuote, plain, opening, closing, comma⟩ :=
    of_decide_eq_true (List.all_eq_true.mp standing c isSeparator)
  simp only [markFrom, splitCommas, SourceLine.depthAfter, plain, notQuote, opening, closing,
    comma, goesOn, Bool.false_eq_true, or_self, if_false]
  split
  · rfl
  · split <;> rfl

/-- What is no separator leaves the depth as it is. -/
theorem depthAfter_other (other : c ∉ separatorChars) :
    SourceLine.depthAfter depth false c = depth := by
  simp only [separatorChars, List.mem_cons, List.not_mem_nil, or_false, not_or] at other
  simp [SourceLine.depthAfter, other]

/-- A character that ends no segment stands in front of the first one. -/
theorem splitSegments_step {inside : Bool} (goesOn : ¬ (c = ',' ∧ inside = false ∧ depth = 0))
    (rest : List Char) :
    splitSegments depth inside [] (c :: rest) =
      (splitSegments (SourceLine.depthAfter depth inside c)
        (if c = quoteChar then !inside else inside) [] rest).modifyHead ([c] ++ ·) := by
  rw [SourceLine.splitSegments_cons goesOn, SourceLine.splitSegments_current]
  rfl

/-- The first piece starts as the whole text does, and so with no quote if that does not. -/
theorem splitSegments_head_alone {rest : List Char}
    (alone : ∀ more, rest = quoteChar :: more → False) :
    ∀ first ∈ (splitSegments depth false [] rest).head?,
      ∀ more, first = quoteChar :: more → False := by
  intro first isFirst more starts
  cases rest with
  | nil =>
    obtain rfl : [] = first := by simpa [splitSegments] using isFirst
    cases starts
  | cons c rest =>
    by_cases cuts : c = ',' ∧ false = false ∧ depth = 0
    · obtain ⟨rfl, -, rfl⟩ := cuts
      rw [SourceLine.splitSegments_comma] at isFirst
      obtain rfl : [] = first := by simpa using isFirst
      cases starts
    · rw [splitSegments_step cuts, List.head?_modifyHead] at isFirst
      obtain ⟨piece, -, rfl⟩ := Option.map_eq_some_iff.mp isFirst
      exact alone rest (by rw [(List.cons.inj starts).1])

/-- From the start of a line, the pieces are read one by one. -/
theorem Mode.readPieces_start (pieces : List (List Char)) :
    (Mode.code .none).readPieces [] pieces = pieces.map read := by
  cases pieces <;> rfl

/-- A comma outside everything ends a part. -/
theorem splitCommas_comma (part more : List Token) :
    splitCommas 0 part (markFrom false ("," :: more)) =
      part.reverse :: splitCommas 0 [] (markFrom false more) := by
  simp [markFrom, quote, splitCommas, isOpening, isClosing]

/-- What a character of code ends is passed over, unless it is a comma outside brackets. -/
theorem Run.Gathers.splitCommas_ended {run : Run} (gathers : run.Gathers)
    (goesOn : ¬ (c = ',' ∧ depth = 0)) (part more : List Token) :
    splitCommas depth part (markFrom false (run.ended c ++ more)) =
      splitCommas (SourceLine.depthAfter depth false c) ((run.ended c).reverse ++ part)
        (markFrom false more) := by
  by_cases isSeparator : c ∈ separatorChars
  · rw [(gathers.separator isSeparator).2, List.append_assoc,
      splitCommas_inert gathers.tokens_inert, List.singleton_append,
      splitCommas_separator isSeparator goesOn]
    simp
  · rw [depthAfter_other isSeparator]
    rcases gathers.ended_other isSeparator with nothing | whole
    · rw [nothing]
      rfl
    · rw [whole, splitCommas_inert gathers.tokens_inert]

/-- Splitting the characters of a text and reading the pieces gives the same as reading the
text and splitting its tokens. -/
theorem Mode.splitCommas_resume {mode : Mode} (sound : mode.Sound) (chars : List Char)
    (depth : Nat) (part : List Token) :
    splitCommas depth part (markFrom mode.inside (mode.resume chars)) =
      mode.readPieces part (splitSegments depth mode.inside [] chars) := by
  revert depth part
  refine Mode.scanInduction
    (motive := fun mode chars => ∀ depth part,
      splitCommas depth part (markFrom mode.inside (mode.resume chars)) =
        mode.readPieces part (splitSegments depth mode.inside [] chars))
    ?finished ?opening ?code ?pair ?closing ?literal ?unclosed sound chars
  case finished =>
    intro run gathers depth part
    have whole := splitCommas_inert gathers.tokens_inert depth part []
    rw [List.append_nil] at whole
    rw [Mode.resume_end gathers]
    refine whole.trans ?_
    simp [splitCommas, markFrom, Mode.readPieces, splitSegments, Mode.resume_end gathers]
  case opening =>
    intro run rest gathers later depth part
    change splitCommas depth part (markFrom false _) = Mode.readPieces _ part
      (splitSegments depth false [] (quoteChar :: rest))
    rw [Mode.resume_opening gathers, splitCommas_inert gathers.tokens_inert, splitCommas_quote,
      splitSegments_step (by simp [quoteChar]), if_pos rfl,
      @Mode.readPieces_modifyHead _ (.literal []) [quoteChar] (run.tokens ++ [quote]) part _
        fun first _ => by simp [Mode.resume_opening gathers]]
    simpa [SourceLine.depthAfter, Mode.inside] using
      later depth (quote :: (run.tokens.reverse ++ part))
  case code =>
    intro run c rest gathers other later depth part
    change splitCommas depth part (markFrom false _) = Mode.readPieces _ part
      (splitSegments depth false [] (c :: rest))
    rw [Mode.resume_code gathers other]
    by_cases cuts : c = ',' ∧ depth = 0
    · obtain ⟨rfl, rfl⟩ := cuts
      have isSeparator : ',' ∈ separatorChars := by decide
      have comma : String.singleton ',' = "," := by decide
      rw [(gathers.separator isSeparator).1] at later ⊢
      rw [(gathers.separator isSeparator).2, comma, List.append_assoc,
        splitCommas_inert gathers.tokens_inert, List.singleton_append, splitCommas_comma,
        SourceLine.splitSegments_comma, Mode.readPieces, List.reverse_nil,
        Mode.resume_end gathers, ← Mode.readPieces_start]
      simpa [Mode.inside] using later 0 []
    · rw [gathers.splitCommas_ended cuts, splitSegments_step (by simpa using cuts), if_neg other,
        Mode.readPieces_modifyHead part fun first _ => Mode.resume_code gathers other first]
      exact later _ _
  case pair =>
    intro reversed rest later depth part
    change splitCommas depth part (markFrom true _) = Mode.readPieces _ part
      (splitSegments depth true [] (quoteChar :: quoteChar :: rest))
    rw [Mode.resume_pair, splitSegments_step (by simp), if_pos rfl,
      splitSegments_step (by simp [quoteChar]), if_pos rfl, List.modifyHead_modifyHead]
    have joined := @Mode.readPieces_modifyHead (.literal reversed)
      (.literal (quoteChar :: quoteChar :: reversed)) [quoteChar, quoteChar] [] part
      (splitSegments depth true [] rest) fun first _ => Mode.resume_pair reversed first
    simpa [SourceLine.depthAfter, Mode.inside, Function.comp_def] using
      (later depth part).trans joined.symm
  case closing =>
    intro reversed rest sound alone later depth part
    change splitCommas depth part (markFrom true _) = Mode.readPieces _ part
      (splitSegments depth true [] (quoteChar :: rest))
    rw [Mode.resume_closing sound alone, splitCommas_literal (literalTokens_ne_quote sound),
      splitCommas_quote, splitSegments_step (by simp), if_pos rfl,
      @Mode.readPieces_modifyHead _ (.code .none) [quoteChar] (literalTokens reversed ++ [quote])
        part _ fun first isFirst => by
          simp [Mode.resume_closing sound (splitSegments_head_alone alone first isFirst)]]
    simpa [SourceLine.depthAfter, Mode.inside] using
      later depth (quote :: ((literalTokens reversed).reverse ++ part))
  case literal =>
    intro reversed c rest other later depth part
    change splitCommas depth part (markFrom true _) = Mode.readPieces _ part
      (splitSegments depth true [] (c :: rest))
    rw [Mode.resume_literal other, splitSegments_step (by simp), if_neg other,
      @Mode.readPieces_modifyHead _ (.literal (c :: reversed)) [c] [] part _
        fun first _ => Mode.resume_literal other reversed first]
    simpa [SourceLine.depthAfter, Mode.inside] using later depth part
  case unclosed =>
    intro reversed sound depth part
    have whole := splitCommas_literal (literalTokens_ne_quote sound) depth part []
    rw [List.append_nil] at whole
    rw [Mode.resume_unclosed sound]
    refine whole.trans ?_
    simp [splitCommas, markFrom, Mode.readPieces, splitSegments, Mode.resume_unclosed sound]

/-- The parts of the tokens are the tokens of the pieces. -/
theorem splitCommas_read (chars : List Char) :
    splitCommas 0 [] (mark (read chars)) = (splitSegments 0 false [] chars).map read := by
  rw [← Mode.readPieces_start]
  exact @Mode.splitCommas_resume (.code .none) trivial chars 0 []

end Commas

/-! ## Pieces of a text -/

section Pieces

open SourceLine (splitSegments)
open Text (isBlank AllBlank trimBlanks)

variable {depth : Nat} {inside : Bool} {blanks : List Char}

/-- A blank keeps the depth of parentheses. -/
theorem depthAfter_blank {c : Char} (blank : isBlank c = true) (depth : Nat) (inside : Bool) :
    SourceLine.depthAfter depth inside c = depth := by
  have other : c ∉ separatorChars := by
    intro isSeparator
    rw [(mem_separatorChars.mp isSeparator).2] at blank
    cases blank
  have notQuote : c ≠ quoteChar := Text.ne_of_isBlank blank (by decide)
  cases inside with
  | false => exact depthAfter_other other
  | true => simp [SourceLine.depthAfter, notQuote]

/-- Blanks join the current piece. -/
theorem splitSegments_blanks (blank : AllBlank blanks) (depth : Nat) (inside : Bool)
    (current rest : List Char) :
    splitSegments depth inside current (blanks ++ rest) =
      splitSegments depth inside (blanks.reverse ++ current) rest := by
  induction blanks generalizing current with
  | nil => rfl
  | cons c more inductionHypothesis =>
    obtain ⟨here, later⟩ := List.forall_mem_cons.mp blank
    have differs : ∀ other, isBlank other = false → c ≠ other :=
      fun other visible => Text.ne_of_isBlank here visible
    rw [List.cons_append, SourceLine.splitSegments_cons fun cut => differs ',' (by decide) cut.1,
      if_neg (differs quoteChar (by decide)), depthAfter_blank here, inductionHypothesis later]
    simp

/-- Every piece but the last ends outside literals. The last one is the end of the text, and
takes the blanks that may follow. -/
theorem splitSegments_last (chars : List Char) (depth : Nat) (current : List Char) :
    ∃ (first : List (List Char)) (last : List Char),
      (∀ piece ∈ first, openAfter false piece = false) ∧ last <:+ current.reverse ++ chars ∧
      ∀ blanks, AllBlank blanks →
        splitSegments depth (openAfter false current.reverse) current (chars ++ blanks) =
          first ++ [last ++ blanks] := by
  induction chars generalizing depth current with
  | nil =>
    refine ⟨[], current.reverse, by simp, by simp, fun blanks blank => ?_⟩
    have joined := splitSegments_blanks blank depth (openAfter false current.reverse) current []
    simpa [splitSegments] using joined
  | cons c rest inductionHypothesis =>
    by_cases cuts : c = ',' ∧ openAfter false current.reverse = false ∧ depth = 0
    · obtain ⟨rfl, closed, rfl⟩ := cuts
      obtain ⟨first, last, ends, isEnd, pieces⟩ := inductionHypothesis 0 []
      refine ⟨current.reverse :: first, last, List.forall_mem_cons.mpr ⟨closed, ends⟩, ?_, ?_⟩
      · exact isEnd.trans ((List.suffix_cons ',' rest).trans (List.suffix_append _ _))
      · intro blanks blank
        rw [closed, List.cons_append, SourceLine.splitSegments_comma, List.cons_append]
        exact congrArg _ (pieces blanks blank)
    · obtain ⟨first, last, ends, isEnd, pieces⟩ := inductionHypothesis
        (SourceLine.depthAfter depth (openAfter false current.reverse) c) (c :: current)
      refine ⟨first, last, ends, by simpa using isEnd, fun blanks blank => ?_⟩
      rw [List.cons_append, SourceLine.splitSegments_cons cuts]
      have walked : openAfter false (c :: current).reverse =
          if c = quoteChar then !openAfter false current.reverse
          else openAfter false current.reverse := by
        rw [List.reverse_cons, openAfter_append]
        rfl
      rw [← walked]
      exact pieces blanks blank

/-- Blanks in front are trimmed. -/
theorem trimBlanks_append (blank : AllBlank blanks) (chars : List Char) :
    trimBlanks (blanks ++ chars) = trimBlanks chars := by
  rw [trimBlanks, List.dropWhile_append_of_pos blank, trimBlanks]

/-- The trimmed pieces of a text are read as the pieces of the trimmed text. -/
theorem map_read_splitSegments (chars : List Char) :
    (splitSegments 0 false [] chars).map (fun piece => read (trimBlanks piece)) =
      (splitSegments 0 false [] (trimBlanks chars)).map read := by
  obtain ⟨leading, trailing, blank, blank', split⟩ := trimBlanks_between chars
  have visible := (Text.trimmed_iff.mp (Text.trimmed_trim (String.ofList chars))).2
  rw [Text.trim, String.toList_ofList, String.toList_ofList] at visible
  generalize trimBlanks chars = kept at split visible
  obtain ⟨first, last, ends, isEnd, pieces⟩ := splitSegments_last kept 0 []
  have whole : splitSegments 0 false [] (kept ++ trailing) = first ++ [last ++ trailing] :=
    pieces trailing blank'
  have trimmed : splitSegments 0 false [] kept = first ++ [last] := by
    have alone : splitSegments 0 false [] (kept ++ []) = first ++ [last ++ []] :=
      pieces [] (by simp [AllBlank])
    simpa using alone
  have leads : ∀ pieces : List (List Char),
      (pieces.modifyHead (leading ++ ·)).map (fun piece => read (trimBlanks piece)) =
        pieces.map fun piece => read (trimBlanks piece) := by
    rintro (_ | ⟨piece, rest⟩)
    · rfl
    · simp [trimBlanks_append blank]
  have lastVisible : Text.EndsVisible last := by
    obtain ⟨front, same⟩ := isEnd
    rw [List.reverse_nil, List.nil_append] at same
    rw [← same] at visible
    exact visible.of_append
  rw [split, splitSegments_blanks blank, List.append_nil, SourceLine.splitSegments_current,
    List.reverse_reverse, leads, whole, trimmed, List.map_append, List.map_append]
  congr 1
  · exact List.map_congr_left fun piece member => read_trimBlanks (ends piece member)
  · rw [List.map_singleton, List.map_singleton, read_trimBlanks_append lastVisible blank']

/-- The trimmed pieces of any text are read as the parts of its tokens. -/
theorem map_read_trimBlanks (text : String) :
    (splitSegments 0 false [] text.toList).map (fun piece => read (trimBlanks piece)) =
      splitCommas 0 [] (mark (tokenize text)) := by
  rw [map_read_splitSegments, tokenize_eq_read, splitCommas_read]

/-- A trimmed piece is read as it stands. -/
theorem tokenize_trimBlanks (piece : List Char) :
    tokenize (String.ofList (trimBlanks piece)) = read (trimBlanks piece) := by
  have trimmed := (Text.trimmed_trim (String.ofList piece)).trimBlanks_eq
  rw [Text.trim, String.toList_ofList, String.toList_ofList] at trimmed
  rw [tokenize_eq_read, String.toList_ofList, trimmed]

end Pieces

/-- A text whose tokens are a list of single items is split into as many pieces, and each piece
is read as its item. -/
theorem tokenize_segments {text : String} {parts : List (List Token)} (listed : parts ≠ [])
    (single : ∀ part ∈ parts, Single part) (filled : ∀ part ∈ parts, part ≠ [])
    (tokens : tokenize text = [","].intercalate parts) :
    (SourceLine.segments text.toList).map tokenize = parts := by
  have pieces : (SourceLine.splitSegments 0 false [] text.toList).map
      (fun piece => read (Text.trimBlanks piece)) = parts := by
    have whole := commaParts_intercalate single filled
    have nonempty : [","].intercalate parts ≠ [] := by
      intro empty
      rw [empty] at whole
      exact listed whole.symm
    rw [commaParts, if_neg (by simpa using nonempty)] at whole
    rw [map_read_trimBlanks, tokens, whole]
  have kept : ∀ piece ∈ (SourceLine.splitSegments 0 false [] text.toList).map Text.trimBlanks,
      (!piece.isEmpty) = true := by
    refine List.forall_mem_map.mpr fun piece member => ?_
    have isPart : read (Text.trimBlanks piece) ∈ parts := by
      rw [← pieces]
      exact List.mem_map.mpr ⟨piece, member, rfl⟩
    have visible : Text.trimBlanks piece ≠ [] := by
      intro empty
      rw [empty] at isPart
      exact filled _ isPart rfl
    simpa using visible
  rw [SourceLine.segments, List.filter_eq_self.mpr kept, List.map_map, List.map_map, ← pieces]
  refine List.map_congr_left fun piece _ => ?_
  rw [Function.comp_apply, Function.comp_apply, tokenize_trimBlanks]

end Token

end BasicToSharp
