import BasicToSharp.Proofs.LiteralRendering

/-!
# Reading a line piece by piece

A line that is put together from tokens and blanks is read from left to right. At every
moment one token is held: the last one that was read, which may still grow. A blank ends it;
a token behind it ends it too, unless both are runs of one kind and nothing stands between
them, in which case the two are read as one.

Each lemma below takes one piece off the front of the characters and leaves the rest general,
so that the tokens of a line are found by rewriting with one lemma for each of its pieces.
-/

namespace BasicToSharp

/-- True of characters all of which are blanks. -/
def Text.AllBlank (chars : List Char) : Prop := ∀ c ∈ chars, Text.isBlank c = true

instance (chars : List Char) : Decidable (Text.AllBlank chars) :=
  decidable_of_iff (chars.all Text.isBlank = true) List.all_eq_true

namespace Token

open Text (isBlank AllBlank)

/-- The tokens of characters that are read outside literals. -/
def read (chars : List Char) : List Token := dropBlanksFrom false (scan (.code .none) chars)

/-- A line is read without the blanks at its ends. -/
theorem tokenize_eq_read (line : String) :
    tokenize line = read (Text.trimBlanks line.toList) := rfl

/-- The run that is open behind a token: only operator characters and word characters go on
gathering. -/
def Kind.run (kind : Kind) (held : Token) : Run :=
  match kind with
  | .operators => .operator held.toList.reverse
  | .word => .word held.toList.reverse
  | .quote | .grouping => .none

/-- What is finished of a token that has just been read. -/
def Kind.finished (kind : Kind) (held : Token) : List Token :=
  if kind.isRun then [] else [held]

/-- The tokens of characters behind a held token, with that token in front and all that it
gathers from them. -/
def Kind.resume (kind : Kind) (held : Token) (chars : List Char) : List Token :=
  kind.finished held ++ dropBlanksFrom false (scan (.code (kind.run held)) chars)

section Pieces

variable {kind next : Kind} {held token : Token} {c : Char} {rest : List Char}

/-- The class of the characters that a kind of token is made of. -/
def Kind.charClass : Kind → CharClass
  | .quote | .operators => .operator
  | .word => .word
  | .grouping => .grouping

/-- All characters of a token are of the class of its kind. -/
theorem Kind.class_of_fits (fits : kind.fits token = true) :
    ∀ c ∈ token.toList, CharClass.of c = kind.charClass := by
  intro c member
  cases kind with
  | quote =>
    obtain rfl : token = Token.quote := by simpa [Kind.fits] using fits
    obtain rfl : c = quoteChar := by simpa [toList_quote] using member
    decide
  | grouping =>
    obtain ⟨symbol, rfl, isSymbol⟩ := isGrouping_eq_true fits
    obtain rfl : c = symbol := by simpa [String.toList_singleton] using member
    exact CharClass.of_eq_grouping.mpr isSymbol
  | operators =>
    simp only [Kind.fits, Bool.and_eq_true, List.all_eq_true] at fits
    exact CharClass.of_eq_operator.mpr (fits.2 c member).1
  | word =>
    simp only [Kind.fits, Bool.and_eq_true, List.all_eq_true] at fits
    exact CharClass.of_eq_word.mpr (fits.2 c member)

/-- Two runs of one kind that touch are one run of that kind. -/
theorem Kind.fits_append (isRun : kind.isRun = true) (fitsHeld : kind.fits held = true)
    (fits : kind.fits token = true) : kind.fits (held ++ token) = true := by
  cases kind <;> simp_all [Kind.isRun, Kind.fits]

/-- The space is a grouping symbol, so no run is one. -/
theorem Kind.ne_space_of_isRun (isRun : kind.isRun = true) (fits : kind.fits token = true) :
    token ≠ " " := by
  rintro rfl
  cases kind <;> revert fits isRun <;> decide

/-- A quote is no run. -/
theorem Kind.ne_quote_of_isRun (isRun : kind.isRun = true) : kind ≠ .quote := by
  rintro rfl
  cases isRun

/-- A token that is a run is bare. -/
theorem Kind.bare_of_isRun (isRun : kind.isRun = true) (fits : kind.fits token = true) :
    Bare token :=
  Kind.bare (Kind.ne_quote_of_isRun isRun) fits (Kind.ne_space_of_isRun isRun fits)

/-- A character of the run's own class is gathered. -/
theorem Kind.extend_run (isRun : kind.isRun = true) (ofClass : CharClass.of c = kind.charClass) :
    (kind.run held).extend c = ([], kind.run (held.push c)) := by
  cases kind <;> simp_all [Kind.isRun, Kind.run, Run.extend, Kind.charClass]

/-- A character of another class ends the run and starts a token of its own. -/
theorem Kind.extend_other (plain : next ≠ .quote) (apart : kind = next → kind.isRun = false)
    (ofClass : CharClass.of c = next.charClass) :
    (kind.run held).extend c =
      ((kind.run held).tokens ++ next.finished (String.singleton c),
        next.run (String.singleton c)) := by
  cases kind <;> cases next <;>
    simp_all [Kind.isRun, Kind.run, Kind.finished, Run.extend, Kind.charClass, Run.tokens,
      String.toList_singleton]

/-- The characters of a run's own kind are gathered. -/
theorem Kind.scan_run (isRun : kind.isRun = true) {chars : List Char}
    (ofKind : ∀ c ∈ chars,
      isBlank c = false ∧ c ≠ quoteChar ∧ CharClass.of c = kind.charClass) :
    scan (.code (kind.run held)) (chars ++ rest) =
      scan (.code (kind.run (held ++ String.ofList chars))) rest := by
  induction chars generalizing held with
  | nil => simp
  | cons c chars inductionHypothesis =>
    obtain ⟨⟨visible, other, ofClass⟩, later⟩ := List.forall_mem_cons.mp ofKind
    have same : held.push c ++ String.ofList chars = held ++ String.ofList (c :: chars) := by
      simp [← String.toList_inj]
    rw [List.cons_append, scan_code _ other, visible, if_neg Bool.false_ne_true,
      Kind.extend_run isRun ofClass, List.nil_append, inductionHypothesis later, same]

/-- What a token's characters say about each of them. -/
theorem Kind.chars_of_fits (plain : next ≠ .quote) (fits : next.fits token = true)
    (other : token ≠ " ") : ∀ c ∈ token.toList,
      isBlank c = false ∧ c ≠ quoteChar ∧ CharClass.of c = next.charClass := by
  intro c member
  obtain ⟨visible, notQuote⟩ := (Kind.bare plain fits other).2 c member
  exact ⟨visible, notQuote, Kind.class_of_fits fits c member⟩

/-- A token of another kind ends the one that is held. -/
theorem Kind.scan_other (plain : next ≠ .quote) (fits : next.fits token = true)
    (other : token ≠ " ") (apart : kind = next → kind.isRun = false) :
    scan (.code (kind.run held)) (token.toList ++ rest) =
      (kind.run held).tokens ++ (next.finished token ++ scan (.code (next.run token)) rest) := by
  have ofKind := Kind.chars_of_fits plain fits other
  obtain ⟨c, chars, first, -⟩ := Kind.ofChar_of_fits fits
  rw [first] at ofKind
  obtain ⟨⟨visible, notQuote, ofClass⟩, later⟩ := List.forall_mem_cons.mp ofKind
  have whole : String.singleton c ++ String.ofList chars = token := by
    simp [← String.toList_inj, first, String.toList_singleton]
  have step : scan (.code (kind.run held)) (token.toList ++ rest) =
      (kind.run held).tokens ++ (next.finished (String.singleton c) ++
        scan (.code (next.run (String.singleton c))) (chars ++ rest)) := by
    rw [first, List.cons_append, scan_code _ notQuote, visible, if_neg Bool.false_ne_true,
      Kind.extend_other plain apart ofClass, List.append_assoc]
  cases isRun : next.isRun with
  | true =>
    rw [step, Kind.scan_run isRun later, whole]
    simp [Kind.finished, isRun]
  | false =>
    obtain rfl : next = .grouping := by cases next <;> simp_all [Kind.isRun]
    obtain ⟨symbol, rfl, -⟩ := isGrouping_eq_true fits
    obtain ⟨rfl, rfl⟩ := List.cons.inj ((String.toList_singleton symbol).symm.trans first)
    exact step

/-- A token other than a quote and a space is kept. -/
theorem Kind.dropBlanksFrom_fits (plain : kind ≠ .quote) (fits : kind.fits token = true)
    (other : token ≠ " ") (more : List Token) :
    dropBlanksFrom false (token :: more) = token :: dropBlanksFrom false more := by
  have notQuote := Kind.ne_quote plain fits
  simp [dropBlanksFrom, markFrom, notQuote, Marked.kept_code fits, other]

/-- Once the held token has ended, it is read, and the rest goes on from there. -/
theorem Kind.resume_of_ended (fits : kind.fits held = true) (other : held ≠ " ")
    {chars : List Char} {more : List Token}
    (ended : scan (.code (kind.run held)) chars = (kind.run held).tokens ++ more) :
    kind.resume held chars = held :: dropBlanksFrom false more := by
  unfold Kind.resume
  rw [ended]
  cases kind with
  | quote => rfl
  | grouping => rfl
  | operators => simpa [Kind.run, Run.tokens, Kind.finished, Kind.isRun] using
      Kind.dropBlanksFrom_fits (by decide) fits other more
  | word => simpa [Kind.run, Run.tokens, Kind.finished, Kind.isRun] using
      Kind.dropBlanksFrom_fits (by decide) fits other more

/-! ## One lemma for each piece -/

/-- At the end of a line the held token is the last. -/
theorem Kind.resume_nil (fits : kind.fits held = true) (other : held ≠ " ") :
    kind.resume held [] = [held] := by
  have ended : scan (.code (kind.run held)) [] = (kind.run held).tokens ++ [] :=
    (List.append_nil _).symm
  exact Kind.resume_of_ended fits other ended

/-- A blank ends the held token. -/
theorem Kind.resume_blank (fits : kind.fits held = true) (other : held ≠ " ")
    (blank : isBlank c = true) : kind.resume held (c :: rest) = held :: read rest := by
  have notQuote : c ≠ quoteChar := by
    rintro rfl
    exact absurd blank (by decide)
  have ended : scan (.code (kind.run held)) (c :: rest) =
      (kind.run held).tokens ++ " " :: scan (.code .none) rest := by
    rw [scan_code _ notQuote, if_pos blank, Run.extend_space, List.append_assoc]
    rfl
  rw [Kind.resume_of_ended fits other ended, dropBlanksFrom_space]
  rfl

/-- A token behind the held one that is not a run of the same kind. -/
theorem Kind.resume_other (fitsHeld : kind.fits held = true) (visible : held ≠ " ")
    (plain : next ≠ .quote) (fits : next.fits token = true) (other : token ≠ " ")
    (apart : kind = next → kind.isRun = false) :
    kind.resume held (token.toList ++ rest) = held :: next.resume token rest := by
  rw [Kind.resume_of_ended fitsHeld visible (Kind.scan_other plain fits other apart), Kind.resume]
  cases isRun : next.isRun with
  | true => simp [Kind.finished, isRun]
  | false => simp [Kind.finished, isRun, Kind.dropBlanksFrom_fits plain fits other]

/-- A run of the same kind directly behind the held one. -/
theorem Kind.resume_same (isRun : kind.isRun = true) (fits : kind.fits token = true) :
    kind.resume held (token.toList ++ rest) = kind.resume (held ++ token) rest := by
  have ofKind := Kind.chars_of_fits (Kind.ne_quote_of_isRun isRun) fits
    (Kind.ne_space_of_isRun isRun fits)
  rw [Kind.resume, Kind.resume, Kind.scan_run isRun ofKind, String.ofList_toList]
  simp [Kind.finished, isRun]

/-- A quote ends the held token and starts a literal. -/
theorem Kind.resume_quote (fits : kind.fits held = true) (other : held ≠ " ") :
    kind.resume held (quoteChar :: rest) =
      held :: Token.quote :: dropBlanksFrom true (scan (.literal []) rest) := by
  have ended : scan (.code (kind.run held)) (quoteChar :: rest) =
      (kind.run held).tokens ++ Token.quote :: scan (.literal []) rest :=
    (scan.eq_2 _ _ _).trans (if_pos rfl)
  rw [Kind.resume_of_ended fits other ended, dropBlanksFrom_quote]
  rfl

/-- A line that starts with a token goes on with that token held. -/
theorem read_token (plain : kind ≠ .quote) (fits : kind.fits token = true) (other : token ≠ " ") :
    read (token.toList ++ rest) = kind.resume token rest := by
  -- A finished grouping symbol leaves no run open, and so does the start of a line.
  have behind := @Kind.resume_other .grouping kind "(" token rest (by decide) (by decide) plain
    fits other (fun _ => rfl)
  exact (List.cons.inj behind).2

/-- A blank in front is passed over. -/
theorem read_blank (blank : isBlank c = true) : read (c :: rest) = read rest := by
  have behind := @Kind.resume_blank .grouping "(" c rest (by decide) (by decide) blank
  exact (List.cons.inj behind).2

/-- A quote in front starts a literal. -/
theorem read_quote :
    read (quoteChar :: rest) = quote :: dropBlanksFrom true (scan (.literal []) rest) := by
  have behind := @Kind.resume_quote .grouping "(" rest (by decide) (by decide)
  exact (List.cons.inj behind).2

/-- Blanks in front are passed over. -/
theorem read_blanks {blanks : List Char} (blank : AllBlank blanks) :
    read (blanks ++ rest) = read rest := by
  induction blanks with
  | nil => rfl
  | cons c blanks inductionHypothesis =>
    obtain ⟨here, later⟩ := List.forall_mem_cons.mp blank
    rw [List.cons_append, read_blank here, inductionHypothesis later]

/-- A line that starts with a run goes on with that run held. -/
theorem read_run (isRun : kind.isRun = true) (fits : kind.fits token = true) :
    read (token.toList ++ rest) = kind.resume token rest :=
  read_token (Kind.ne_quote_of_isRun isRun) fits (Kind.ne_space_of_isRun isRun fits)

section Runs

variable (isHeldRun : kind.isRun = true) (fitsHeld : kind.fits held = true)
  (isRun : next.isRun = true) (fits : next.fits token = true)

include isHeldRun fitsHeld isRun fits in
/-- A run of another kind directly behind the held one. -/
theorem Kind.resume_touching (apart : kind ≠ next) :
    kind.resume held (token.toList ++ rest) = held :: next.resume token rest :=
  Kind.resume_other fitsHeld (Kind.ne_space_of_isRun isHeldRun fitsHeld)
    (Kind.ne_quote_of_isRun isRun) fits (Kind.ne_space_of_isRun isRun fits)
    fun same => absurd same apart

include isHeldRun fitsHeld isRun fits in
/-- A run behind the held one, apart from it by blanks or by its kind. -/
theorem Kind.resume_run {blanks : List Char} (blank : AllBlank blanks)
    (apart : blanks = [] → kind ≠ next) :
    kind.resume held (blanks ++ (token.toList ++ rest)) = held :: next.resume token rest := by
  cases blanks with
  | nil => exact Kind.resume_touching isHeldRun fitsHeld isRun fits (apart rfl)
  | cons c blanks =>
    obtain ⟨here, later⟩ := List.forall_mem_cons.mp blank
    have visible := Kind.ne_space_of_isRun isHeldRun fitsHeld
    rw [List.cons_append, Kind.resume_blank fitsHeld visible here, read_blanks later,
      read_run isRun fits]

end Runs

end Pieces

/-! ## Literals -/

section Literals

variable {text rest : List Char}

/-- A literal is scanned up to its closing quote. -/
theorem Escaped.scan_closed (escaped : Escaped text) (reversed : List Char)
    (alone : ∀ tail, rest = quoteChar :: tail → False) :
    scan (.literal reversed) (text ++ quoteChar :: rest) =
      literalTokens (text.reverse ++ reversed) ++ quote :: scan (.code .none) rest := by
  induction escaped generalizing reversed with
  | nil => rw [List.nil_append, List.reverse_nil, List.nil_append, quoteChar, scan.eq_4 _ _ alone]
  | doubled later inductionHypothesis =>
    refine (inductionHypothesis (quoteChar :: quoteChar :: reversed)).trans ?_
    simp
  | @char c later other escaped inductionHypothesis =>
    rw [List.cons_append, scan.eq_5 _ _ _ (fun _ isQuote => absurd isQuote other) other,
      inductionHypothesis]
    simp

/-- A literal that is not closed is scanned to the end. -/
theorem Escaped.scan_unclosed (escaped : Escaped text) (reversed : List Char) :
    scan (.literal reversed) text = literalTokens (text.reverse ++ reversed) := by
  induction escaped generalizing reversed with
  | nil => rw [List.reverse_nil, List.nil_append, scan]
  | doubled later inductionHypothesis =>
    refine (inductionHypothesis (quoteChar :: quoteChar :: reversed)).trans ?_
    simp
  | @char c later other escaped inductionHypothesis =>
    rw [scan.eq_5 _ _ _ (fun _ isQuote => absurd isQuote other) other, inductionHypothesis]
    simp

/-- Blanks inside a literal are kept. -/
theorem Escaped.dropBlanksFrom_spanTokens (escaped : Escaped text) (more : List Token) :
    dropBlanksFrom true (spanTokens text ++ more) =
      spanTokens text ++ dropBlanksFrom true more := by
  rw [dropBlanksFrom_append true escaped.spanTokens_ne_quote]
  unfold spanTokens
  split
  · rfl
  · next nonempty =>
    have plain : String.ofList text ≠ quote := by
      have each := escaped.spanTokens_ne_quote
      rw [spanTokens, if_neg nonempty] at each
      exact each _ List.mem_cons_self
    simp [dropBlanksFrom, markFrom, plain, Marked.kept]

/-- A literal is read up to the quote that closes it, if no second quote follows that one. -/
theorem Escaped.read_closed (escaped : Escaped text)
    (alone : ∀ tail, rest = quoteChar :: tail → False) :
    dropBlanksFrom true (scan (.literal []) (text ++ quoteChar :: rest)) =
      spanTokens text ++ Kind.quote.resume quote rest := by
  rw [escaped.scan_closed [] alone, literalTokens_eq, List.append_nil, List.reverse_reverse,
    escaped.dropBlanksFrom_spanTokens, dropBlanksFrom_quote]
  rfl

/-- The tokens of a literal that is not closed are its text. -/
theorem Escaped.read_unclosed (escaped : Escaped text) :
    dropBlanksFrom true (scan (.literal []) text) = spanTokens text := by
  have alone := escaped.dropBlanksFrom_spanTokens []
  rw [List.append_nil] at alone
  rw [escaped.scan_unclosed [], literalTokens_eq, List.append_nil, List.reverse_reverse, alone]
  exact List.append_nil _

end Literals

end Token
end BasicToSharp
