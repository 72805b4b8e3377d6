import BasicToSharp.Proofs.FirstToken
import BasicToSharp.Proofs.LineStart
import Mathlib.Data.List.Chain

/-!
# The shape of a line's tokens

Splitting a line loses nothing but characters of no class: set side by side, its tokens are
the trimmed line again, with every blank outside literals written as a space. Outside
literals a token is of one of four kinds, and two runs of one kind never stand side by side,
since the scan would have gathered them into one.

All that is said about the tokens of a line follows from one description of what a scan
leaves: tokens of code, each with its kind, and literals, each with its two quotes around at
most one token. A scan in the middle of a run or of a literal leaves the rest of such a list,
and that is the statement that the induction over its characters carries.
-/

namespace BasicToSharp

open Text (isBlank EndsVisible)

namespace Token

/-! ## Kinds of tokens -/

/-- What a token outside literals can be. -/
inductive Kind
  | quote
  | grouping
  | operators
  | word
  deriving DecidableEq, Repr

/-- True of the tokens of a kind: the quote, one grouping symbol, a run of operator characters
without a quote, or a run of word characters. -/
def Kind.fits : Kind → Token → Bool
  | .quote, token => token == Token.quote
  | .grouping, token => isGrouping token
  | .operators, token =>
    !token.toList.isEmpty && token.toList.all fun c => isOperatorChar c && c != quoteChar
  | .word, token => !token.toList.isEmpty && token.toList.all isWordChar

/-- True of the kinds whose tokens are gathered character by character. -/
def Kind.isRun : Kind → Bool
  | .operators | .word => true
  | .quote | .grouping => false

/-- The kind of the tokens that start with a character. -/
def Kind.ofChar (c : Char) : Option Kind :=
  if c = quoteChar then some .quote
  else match CharClass.of c with
    | .operator => some .operators
    | .word => some .word
    | .grouping => some .grouping
    | .stray => none

/-- The class of operators has the operator characters. -/
theorem CharClass.of_eq_operator {c : Char} :
    CharClass.of c = .operator ↔ isOperatorChar c = true := by
  unfold CharClass.of
  cases isOperatorChar c <;> cases isWordChar c <;> cases isGroupingChar c <;> simp

/-- The class of words has the word characters. -/
theorem CharClass.of_eq_word {c : Char} : CharClass.of c = .word ↔ isWordChar c = true := by
  cases isOperator : isOperatorChar c with
  | true =>
    have classes := List.all_eq_true.mp operatorChars_classes c
      (List.contains_iff_mem.mp isOperator)
    simp only [Bool.and_eq_true, Bool.not_eq_true'] at classes
    simp [CharClass.of, isOperator, classes.2]
  | false =>
    unfold CharClass.of
    cases isWordChar c <;> cases isGroupingChar c <;> simp [isOperator]

/-- The class of groupings has the grouping characters. -/
theorem CharClass.of_eq_grouping {c : Char} :
    CharClass.of c = .grouping ↔ isGroupingChar c = true := by
  constructor
  · unfold CharClass.of
    cases isOperatorChar c <;> cases isWordChar c <;> cases isGroupingChar c <;> simp
  · intro isSymbol
    simpa using List.all_eq_true.mp groupingChars_classes c (List.contains_iff_mem.mp isSymbol)

/-- A grouping token is one grouping character. -/
theorem isGrouping_eq_true {token : Token} (single : isGrouping token = true) :
    ∃ c, token = String.singleton c ∧ isGroupingChar c = true := by
  unfold isGrouping at single
  split at single
  · next c chars =>
    refine ⟨c, ?_, single⟩
    rw [← String.toList_inj, chars, String.toList_singleton]
  · cases single

/-- The first character of a token tells its kind. -/
theorem Kind.ofChar_of_fits {kind : Kind} {token : Token} (fits : kind.fits token = true) :
    ∃ c rest, token.toList = c :: rest ∧ Kind.ofChar c = some kind := by
  cases kind with
  | quote =>
    obtain rfl : token = Token.quote := by simpa [Kind.fits] using fits
    exact ⟨quoteChar, [], by decide, by decide⟩
  | grouping =>
    obtain ⟨c, rfl, isSymbol⟩ := isGrouping_eq_true fits
    have other : c ≠ quoteChar := by
      rintro rfl
      exact absurd isSymbol (by decide)
    refine ⟨c, [], String.toList_singleton c, ?_⟩
    rw [Kind.ofChar, if_neg other, CharClass.of_eq_grouping.mpr isSymbol]
  | operators =>
    cases chars : token.toList with
    | nil => simp [Kind.fits, chars] at fits
    | cons c rest =>
      simp only [Kind.fits, chars, List.all_cons, Bool.and_eq_true, bne_iff_ne] at fits
      refine ⟨c, rest, rfl, ?_⟩
      rw [Kind.ofChar, if_neg fits.2.1.2, CharClass.of_eq_operator.mpr fits.2.1.1]
  | word =>
    cases chars : token.toList with
    | nil => simp [Kind.fits, chars] at fits
    | cons c rest =>
      simp only [Kind.fits, chars, List.all_cons, Bool.and_eq_true] at fits
      have other : c ≠ quoteChar := by
        rintro rfl
        exact absurd fits.2.1 (by decide)
      refine ⟨c, rest, rfl, ?_⟩
      rw [Kind.ofChar, if_neg other, CharClass.of_eq_word.mpr fits.2.1]

/-- A token is of one kind at most. -/
theorem Kind.fits_unique {kind other : Kind} {token : Token} (fits : kind.fits token = true)
    (fitsOther : other.fits token = true) : kind = other := by
  obtain ⟨c, rest, chars, isKind⟩ := Kind.ofChar_of_fits fits
  obtain ⟨c', rest', chars', isOther⟩ := Kind.ofChar_of_fits fitsOther
  obtain ⟨rfl, -⟩ := List.cons.inj (chars.symm.trans chars')
  exact Option.some.inj (isKind.symm.trans isOther)

/-- A token of another kind is no quote. -/
theorem Kind.ne_quote {kind : Kind} {token : Token} (plain : kind ≠ .quote)
    (fits : kind.fits token = true) : token ≠ Token.quote := by
  rintro rfl
  exact plain (Kind.fits_unique fits (by decide : Kind.quote.fits Token.quote = true))

/-- No word character is a blank: letters by a table, digits and the underscore by their code
points. -/
theorem isWordChar_visible {c : Char} (isWord : isWordChar c = true) : isBlank c = false := by
  cases blank : isBlank c with
  | false => rfl
  | true =>
    have others : Text.blankPoints.all
        (fun n => !((Char.ofNat n).isDigit || Char.ofNat n == '_')) = true := by decide
    have here := List.all_eq_true.mp others c.toNat (Text.toNat_mem_blankPoints blank)
    rw [isWordChar, (Text.blank_forms blank).1, Bool.false_or] at isWord
    rw [Char.ofNat_toNat, isWord] at here
    cases here

/-- Outside literals the space is the only blank that a token can hold, and it stands alone. -/
theorem Kind.visible_of_fits {kind : Kind} {token : Token} (fits : kind.fits token = true)
    (other : token ≠ " ") : ∀ c ∈ token.toList, isBlank c = false := by
  have operatorsVisible : operatorChars.all (!isBlank ·) = true := by decide
  have groupingVisible : groupingChars.all (fun c => c == ' ' || !isBlank c) = true := by decide
  intro c member
  cases kind with
  | quote =>
    obtain rfl : token = Token.quote := by simpa [Kind.fits] using fits
    have quoteVisible : Token.quote.toList.all (!isBlank ·) = true := by decide
    simpa using List.all_eq_true.mp quoteVisible c member
  | grouping =>
    obtain ⟨symbol, rfl, isSymbol⟩ := isGrouping_eq_true fits
    obtain rfl : c = symbol := by simpa [String.toList_singleton] using member
    have notSpace : c ≠ ' ' := by
      rintro rfl
      exact other rfl
    simpa [notSpace] using List.all_eq_true.mp groupingVisible c
      (List.contains_iff_mem.mp isSymbol)
  | operators =>
    simp only [Kind.fits, Bool.and_eq_true, List.all_eq_true] at fits
    simpa using List.all_eq_true.mp operatorsVisible c
      (List.contains_iff_mem.mp (fits.2 c member).1)
  | word =>
    simp only [Kind.fits, Bool.and_eq_true, List.all_eq_true] at fits
    exact isWordChar_visible (fits.2 c member)

/-! ## What a scan leaves -/

/-- The text of a literal: every quote in it is doubled. -/
inductive Escaped : List Char → Prop
  | nil : Escaped []
  | doubled {rest : List Char} : Escaped rest → Escaped (quoteChar :: quoteChar :: rest)
  | char {c : Char} {rest : List Char} : c ≠ quoteChar → Escaped rest → Escaped (c :: rest)

/-- Texts without lone quotes make one together. -/
theorem Escaped.append {first second : List Char} (escaped : Escaped first)
    (more : Escaped second) : Escaped (first ++ second) := by
  induction escaped with
  | nil => exact more
  | doubled rest inductionHypothesis => exact .doubled inductionHypothesis
  | char other rest inductionHypothesis => exact .char other inductionHypothesis

/-- The token of a literal with this text; an empty literal has none. -/
def spanTokens (text : List Char) : List Token :=
  if text = [] then [] else [String.ofList text]

/-- The tokens of a literal are those of its text. -/
theorem literalTokens_eq (reversed : List Char) :
    literalTokens reversed = spanTokens reversed.reverse := by
  cases reversed <;> simp [literalTokens, spanTokens]

/-- The text of a literal is no lone quote. -/
theorem Escaped.spanTokens_ne_quote {text : List Char} (escaped : Escaped text) :
    ∀ token ∈ spanTokens text, token ≠ quote := by
  have several : text.reverse ≠ [quoteChar] := by
    intro single
    obtain rfl : text = [quoteChar] := by simpa using congrArg List.reverse single
    cases escaped with
    | char other => exact other rfl
  have same := literalTokens_eq text.reverse
  rw [List.reverse_reverse] at same
  rw [← same]
  exact literalTokens_ne_quote several

/-- True of a kind whose token can stand directly behind one of the given kind: a run ends
only where its characters do. -/
def Kind.MayFollow (before : Option Kind) (kind : Kind) : Prop :=
  kind.isRun = true → before ≠ some kind

/-- The tokens of a line behind a token of the given kind: code, and literals with at most one
token between their quotes. The last literal may lack its closing quote; it then ends where
the line does, and so without a blank. -/
inductive Shaped : Option Kind → List Token → Prop
  | nil {before : Option Kind} : Shaped before []
  | code {before : Option Kind} {kind : Kind} {token : Token} {rest : List Token} :
      kind ≠ .quote → kind.fits token = true → kind.MayFollow before →
        Shaped (some kind) rest → Shaped before (token :: rest)
  | literal {before : Option Kind} {text : List Char} {rest : List Token} :
      Escaped text → Shaped (some .quote) rest →
        Shaped before (quote :: (spanTokens text ++ quote :: rest))
  | unclosed {before : Option Kind} {text : List Char} :
      Escaped text → EndsVisible text → Shaped before (quote :: spanTokens text)

/-- True of an open run whose characters are of one kind and that can become a token behind
one of the given kind. No run is open behind a grouping symbol or a quote. -/
def Run.Follows (before : Option Kind) : Run → Prop
  | .none => Kind.operators.MayFollow before ∧ Kind.word.MayFollow before
  | .operator reversed =>
    Kind.operators.fits (String.ofList reversed.reverse) = true ∧ Kind.operators.MayFollow before
  | .word reversed =>
    Kind.word.fits (String.ofList reversed.reverse) = true ∧ Kind.word.MayFollow before

/-- The kind of token that stands last once a run has ended. -/
def Run.endKind (before : Option Kind) : Run → Option Kind
  | .none => before
  | .operator _ => some .operators
  | .word _ => some .word

/-- The tokens of a run fit between what stands before and behind it. -/
theorem Run.Follows.shaped {run : Run} {before : Option Kind} (follows : run.Follows before)
    {rest : List Token} (later : Shaped (run.endKind before) rest) :
    Shaped before (run.tokens ++ rest) := by
  cases run with
  | none => exact later
  | operator reversed => exact .code (by decide) follows.1 follows.2 later
  | word reversed => exact .code (by decide) follows.1 follows.2 later

/-- One character of code ends the run and starts another, or is gathered by it. -/
theorem Run.Follows.extend {run : Run} {before : Option Kind} (follows : run.Follows before)
    {c : Char} (other : c ≠ quoteChar) {rest : List Token}
    (later : ∀ before, (run.extend c).2.Follows before → Shaped before rest) :
    Shaped before ((run.extend c).1 ++ rest) := by
  cases kind : CharClass.of c with
  | operator =>
    have single : Kind.operators.fits (String.ofList [c]) = true := by
      simpa [Kind.fits, other] using CharClass.of_eq_operator.mp kind
    cases run with
    | none =>
      simp only [Run.extend, kind] at later ⊢
      exact later before ⟨single, follows.1⟩
    | operator reversed =>
      simp only [Run.extend, kind] at later ⊢
      refine later before ⟨?_, follows.2⟩
      have chars := follows.1
      simp_all [Kind.fits]
    | word reversed =>
      simp only [Run.extend, kind] at later ⊢
      exact follows.shaped (later _ ⟨single, fun _ => by rintro ⟨⟩⟩)
  | word =>
    have single : Kind.word.fits (String.ofList [c]) = true := by
      simpa [Kind.fits] using CharClass.of_eq_word.mp kind
    cases run with
    | none =>
      simp only [Run.extend, kind] at later ⊢
      exact later before ⟨single, follows.2⟩
    | operator reversed =>
      simp only [Run.extend, kind] at later ⊢
      exact follows.shaped (later _ ⟨single, fun _ => by rintro ⟨⟩⟩)
    | word reversed =>
      simp only [Run.extend, kind] at later ⊢
      refine later before ⟨?_, follows.2⟩
      have chars := follows.1
      simp_all [Kind.fits]
  | grouping =>
    have single : Kind.grouping.fits (String.singleton c) = true := by
      simpa [Kind.fits, isGrouping, String.toList_singleton] using CharClass.of_eq_grouping.mp kind
    simp only [Run.extend, kind] at later ⊢
    rw [List.append_assoc]
    exact follows.shaped (.code (by decide) single (by rintro ⟨⟩) (later _ ⟨fun _ => by rintro ⟨⟩, fun _ => by rintro ⟨⟩⟩))
  | stray =>
    simp only [Run.extend, kind] at later ⊢
    exact later before follows

/-- What the tokens of a scan are, by the mode that it starts from: what an open run or an open
literal needs to go on with. -/
def Mode.Shapes (chars : List Char) (tokens : List Token) : Mode → Prop
  | .code run => ∀ before, run.Follows before → EndsVisible chars → Shaped before tokens
  | .literal reversed => ∀ before, Escaped reversed.reverse →
      EndsVisible (reversed.reverse ++ chars) → Shaped before (quote :: tokens)

/-- Whatever mode a scan starts in, its tokens have the right shape. -/
theorem scan_shapes (mode : Mode) (chars : List Char) : mode.Shapes chars (scan mode chars) := by
  fun_induction scan mode chars with
  | case1 run =>
    intro before follows visible
    simpa using follows.shaped .nil
  | case2 run rest inductionHypothesis =>
    intro before follows visible
    exact follows.shaped (inductionHypothesis _ .nil visible.of_cons)
  | case3 run c rest other finished next extended inductionHypothesis =>
    intro before follows visible
    have finish : Shaped before ((run.extend (if isBlank c then ' ' else c)).1 ++
        scan (.code next) rest) := by
      refine follows.extend (read_ne_of_ne other (by decide)) fun before stillFollows => ?_
      rw [extended] at stillFollows
      exact inductionHypothesis before stillFollows visible.of_cons
    rwa [extended] at finish
  | case4 reversed rest inductionHypothesis =>
    intro before escaped visible
    apply inductionHypothesis before
    · simpa [quoteChar] using escaped.append (.doubled .nil)
    · simpa using visible
  | case5 reversed rest alone inductionHypothesis =>
    intro before escaped visible
    rw [literalTokens_eq]
    refine .literal escaped (inductionHypothesis _ ⟨fun _ => by rintro ⟨⟩, fun _ => by rintro ⟨⟩⟩ ?_)
    exact visible.of_append.of_cons
  | case6 reversed c rest alone other inductionHypothesis =>
    intro before escaped visible
    apply inductionHypothesis before
    · simpa using escaped.append (.char other .nil)
    · simpa using visible
  | case7 reversed =>
    intro before escaped visible
    rw [literalTokens_eq]
    exact .unclosed escaped (by simpa using visible)

/-- The tokens of a line have the right shape. -/
theorem split_shaped (line : String) : Shaped none (split line) := by
  have visible := Text.dropTrailingBlanks_eq_self.mp (Text.trimmed_trim line).2
  rw [Text.trim, String.toList_ofList] at visible
  exact scan_shapes (.code .none) _ none ⟨fun _ => by rintro ⟨⟩, fun _ => by rintro ⟨⟩⟩ visible

/-! ## The tokens of a line one by one -/

section Marks

variable {text : List Char} {before : Option Kind} {tokens : List Token}

/-- Tokens without quotes are all marked alike. -/
theorem markFrom_append (inside : Bool) (plain : ∀ token ∈ tokens, token ≠ quote)
    (more : List Token) :
    markFrom inside (tokens ++ more) = tokens.map (⟨·, inside⟩) ++ markFrom inside more := by
  induction tokens with
  | nil => rfl
  | cons token rest inductionHypothesis =>
    obtain ⟨here, later⟩ := List.forall_mem_cons.mp plain
    simp [markFrom, here, inductionHypothesis later]

/-- The marks of a literal up to its closing quote. -/
def literalMarks (text : List Char) : List Marked := (quote :: spanTokens text).map (⟨·, true⟩)

/-- Everything in a literal is marked as quoted. -/
theorem quoted_of_mem_literalMarks : ∀ marked ∈ literalMarks text, marked.quoted = true := by
  intro marked member
  obtain ⟨token, -, rfl⟩ := List.mem_map.mp member
  rfl

/-- The closing quote is marked as quoted too. -/
theorem quoted_of_mem_closedMarks :
    ∀ marked ∈ literalMarks text ++ [⟨quote, true⟩], marked.quoted = true :=
  List.forall_mem_append.mpr ⟨quoted_of_mem_literalMarks, by simp⟩

/-- A literal is marked as quoted, and what follows it from outside on. -/
theorem Escaped.mark_literal (escaped : Escaped text) (rest : List Token) :
    mark (quote :: (spanTokens text ++ quote :: rest)) =
      literalMarks text ++ [⟨quote, true⟩] ++ mark rest := by
  simp [mark, markFrom, literalMarks, markFrom_append true escaped.spanTokens_ne_quote]

/-- A literal that is not closed is marked as quoted. -/
theorem Escaped.mark_unclosed (escaped : Escaped text) :
    mark (quote :: spanTokens text) = literalMarks text := by
  have marked := markFrom_append true escaped.spanTokens_ne_quote []
  rw [List.append_nil] at marked
  simp [mark, markFrom, literalMarks, marked]

/-- A token outside literals is marked as such. -/
theorem mark_code {token : Token} (plain : token ≠ quote) (rest : List Token) :
    mark (token :: rest) = ⟨token, false⟩ :: mark rest := by
  simp [mark, markFrom, plain]

/-- Every token outside literals, the quotes among them, is of a kind. -/
theorem Shaped.kinds (shaped : Shaped before tokens) :
    ∀ marked ∈ mark tokens, marked.token = quote ∨ marked.quoted = false →
      ∃ kind : Kind, kind.fits marked.token = true := by
  have ofQuoted : ∀ marked : Marked, marked.quoted = true →
      marked.token = quote ∨ marked.quoted = false →
        ∃ kind : Kind, kind.fits marked.token = true := by
    intro marked quoted standing
    have isQuote : marked.token = quote := by simpa [quoted] using standing
    exact ⟨.quote, by rw [isQuote]; decide⟩
  induction shaped with
  | nil => nofun
  | code plain fits apart later inductionHypothesis =>
    rw [mark_code (Kind.ne_quote plain fits)]
    exact List.forall_mem_cons.mpr ⟨fun _ => ⟨_, fits⟩, inductionHypothesis⟩
  | literal escaped later inductionHypothesis =>
    rw [escaped.mark_literal, List.forall_mem_append]
    refine ⟨?_, inductionHypothesis⟩
    exact fun marked member => ofQuoted marked (quoted_of_mem_closedMarks marked member)
  | unclosed escaped visible =>
    rw [escaped.mark_unclosed]
    exact fun marked member => ofQuoted marked (quoted_of_mem_literalMarks marked member)

/-- Outside literals every token but a space is kept. -/
theorem Marked.kept_code {kind : Kind} {token : Token} (fits : kind.fits token = true) :
    Marked.kept ⟨token, false⟩ = if token = " " then none else some token := by
  by_cases space : token = " "
  · subst space
    decide
  · have visible := Kind.visible_of_fits fits space
    have whole : token.toList.filter (!isBlank ·) = token.toList :=
      List.filter_eq_self.mpr fun c member => by simp [visible c member]
    obtain ⟨c, rest, chars, -⟩ := Kind.ofChar_of_fits fits
    have nonempty : token.toList.isEmpty = false := by rw [chars]; rfl
    simp only [Marked.kept, whole, nonempty, String.ofList_toList, Bool.false_eq_true, if_false,
      if_neg space]

/-- The space is the one token that goes when blanks are dropped. -/
theorem Shaped.dropBlanks_eq (shaped : Shaped before tokens) :
    dropBlanks tokens =
      ((mark tokens).filter fun marked => marked.quoted || marked.token != " ").map
        Marked.token := by
  rw [← List.filterMap_eq_filter, List.map_filterMap]
  refine List.filterMap_congr fun marked member => ?_
  cases marked with
  | mk token quoted =>
    cases quoted with
    | true => simp
    | false =>
      obtain ⟨kind, fits⟩ := shaped.kinds _ member (.inr rfl)
      refine (Marked.kept_code fits).trans ?_
      by_cases space : token = " " <;> simp [space, Option.guard]

/-- Two tokens outside literals that are not runs of one kind. -/
def Marked.Apart (left right : Marked) : Prop :=
  left.quoted = false → right.quoted = false →
    ∀ kind : Kind, kind.isRun = true →
      ¬ (kind.fits left.token = true ∧ kind.fits right.token = true)

/-- Tokens in literals are apart from all others. -/
theorem isChain_apart_append {quoted more : List Marked}
    (inLiteral : ∀ marked ∈ quoted, marked.quoted = true) (apart : more.IsChain Marked.Apart) :
    (quoted ++ more).IsChain Marked.Apart := by
  induction quoted with
  | nil => exact apart
  | cons marked rest inductionHypothesis =>
    obtain ⟨here, later⟩ := List.forall_mem_cons.mp inLiteral
    rw [List.cons_append, List.isChain_cons]
    refine ⟨?_, inductionHypothesis later⟩
    intro next first outside
    rw [here] at outside
    cases outside

/-- The first token of a line that is read behind another. -/
theorem Shaped.head (shaped : Shaped before tokens) :
    ∀ marked, (mark tokens).head? = some marked → marked.quoted = false →
      ∃ kind : Kind, kind.fits marked.token = true ∧ kind.MayFollow before := by
  intro marked first outside
  cases shaped with
  | nil => cases first
  | code plain fits apart later =>
    rw [mark_code (Kind.ne_quote plain fits)] at first
    obtain rfl := Option.some.inj first
    exact ⟨_, fits, apart⟩
  | literal escaped later =>
    rw [escaped.mark_literal] at first
    obtain rfl := Option.some.inj first
    cases outside
  | unclosed escaped visible =>
    rw [escaped.mark_unclosed] at first
    obtain rfl := Option.some.inj first
    cases outside

/-- Runs that stand side by side are of different kinds. -/
theorem Shaped.apart (shaped : Shaped before tokens) : (mark tokens).IsChain Marked.Apart := by
  induction shaped with
  | nil => exact .nil
  | code plain fits apart later inductionHypothesis =>
    rw [mark_code (Kind.ne_quote plain fits), List.isChain_cons]
    refine ⟨?_, inductionHypothesis⟩
    intro next first _ outside run isRun both
    obtain ⟨kind, fitsNext, mayFollow⟩ := later.head next first outside
    obtain rfl := Kind.fits_unique both.2 fitsNext
    obtain rfl := Kind.fits_unique both.1 fits
    exact mayFollow isRun rfl
  | literal escaped later inductionHypothesis =>
    rw [escaped.mark_literal]
    exact isChain_apart_append quoted_of_mem_closedMarks inductionHypothesis
  | unclosed escaped visible =>
    rw [escaped.mark_unclosed, ← List.append_nil (literalMarks _)]
    exact isChain_apart_append quoted_of_mem_literalMarks .nil

end Marks

/-! ## What is kept of a line -/

/-- The characters of a line that its tokens hold, read from inside a literal or outside one.
Every quote turns from one to the other, a doubled one twice. A literal is kept as it is;
outside, a blank is written as a space, and what is neither operator, word character nor
grouping symbol is left out. -/
def keptFrom (inside : Bool) : List Char → List Char
  | [] => []
  | c :: rest =>
    if c = quoteChar then c :: keptFrom (!inside) rest
    else if inside then c :: keptFrom true rest
    else if isBlank c then ' ' :: keptFrom false rest
    else if isOperatorChar c || isWordChar c || isGroupingChar c then c :: keptFrom false rest
    else keptFrom false rest

/-- A stray character is of none of the other classes. -/
theorem CharClass.of_eq_stray {c : Char} :
    CharClass.of c = .stray ↔ (isOperatorChar c || isWordChar c || isGroupingChar c) = false := by
  unfold CharClass.of
  cases isOperatorChar c <;> cases isWordChar c <;> cases isGroupingChar c <;> simp

/-- The characters that a scan holds back, first one first. -/
def Mode.held : Mode → List Char
  | .code run => run.chars
  | .literal reversed => reversed.reverse

/-- True of a scan inside a literal. -/
def Mode.inside : Mode → Bool
  | .code _ => false
  | .literal _ => true

/-- The tokens of a run have its characters. -/
theorem Run.tokens_chars (run : Run) : run.tokens.flatMap String.toList = run.chars := by
  cases run <;> simp [Run.tokens, Run.chars]

/-- A character that is read as code is kept, unless it has no class. -/
theorem Run.extend_chars (run : Run) (c : Char) :
    (run.extend c).1.flatMap String.toList ++ (run.extend c).2.chars =
      run.chars ++ if CharClass.of c = .stray then [] else [c] := by
  cases kind : CharClass.of c <;> cases run <;>
    simp [Run.extend, kind, Run.tokens, Run.chars, String.toList_singleton]

/-- Outside literals a stray character is lost, and a blank is a space. -/
theorem keptFrom_code {c : Char} (other : c ≠ quoteChar) (rest : List Char) :
    keptFrom false (c :: rest) =
      (if CharClass.of (if isBlank c then ' ' else c) = .stray then []
        else [if isBlank c then ' ' else c]) ++ keptFrom false rest := by
  have space : CharClass.of ' ' ≠ .stray := by decide
  cases blank : isBlank c with
  | true => simp [keptFrom, other, blank, space]
  | false =>
    cases known : isOperatorChar c || isWordChar c || isGroupingChar c with
    | true =>
      have kept : CharClass.of c ≠ .stray := fun isStray =>
        absurd (CharClass.of_eq_stray.mp isStray) (by simp [known])
      simp [keptFrom, other, blank, known, kept]
    | false => simp [keptFrom, other, blank, known, CharClass.of_eq_stray.mpr known]

/-- The quote is one character. -/
theorem toList_quote : quote.toList = [quoteChar] := by decide

/-- The tokens of a text have its characters. -/
theorem flatMap_spanTokens (text : List Char) :
    (spanTokens text).flatMap String.toList = text := by
  unfold spanTokens
  split
  · next empty => simp [empty]
  · simp

/-- The tokens of a scan hold what is held back and what is kept of the characters. -/
theorem scan_chars (mode : Mode) (chars : List Char) :
    (scan mode chars).flatMap String.toList = mode.held ++ keptFrom mode.inside chars := by
  fun_induction scan mode chars with
  | case1 run => simp [Mode.held, keptFrom, Run.tokens_chars]
  | case2 run rest inductionHypothesis =>
    rw [List.flatMap_append, List.flatMap_cons, inductionHypothesis, Run.tokens_chars,
      toList_quote]
    rfl
  | case3 run c rest other finished next extended inductionHypothesis =>
    have step := run.extend_chars (if isBlank c then ' ' else c)
    rw [extended] at step
    rw [List.flatMap_append, inductionHypothesis, Mode.inside, Mode.inside, keptFrom_code other,
      ← List.append_assoc, ← List.append_assoc]
    exact congrArg (· ++ _) step
  | case4 reversed rest inductionHypothesis =>
    rw [inductionHypothesis]
    simp [Mode.held, Mode.inside, keptFrom, quoteChar]
  | case5 reversed rest alone inductionHypothesis =>
    rw [List.flatMap_append, List.flatMap_cons, inductionHypothesis, literalTokens_eq,
      flatMap_spanTokens, toList_quote]
    rfl
  | case6 reversed c rest alone other inductionHypothesis =>
    have plain : c ≠ quoteChar := other
    rw [inductionHypothesis]
    simp [Mode.held, Mode.inside, keptFrom, plain]
  | case7 reversed =>
    rw [literalTokens_eq, flatMap_spanTokens]
    simp [Mode.held, keptFrom]

/-! ## Quoted spans -/

/-- What stands between a quote that opens a literal and the one that closes it, or the end of
the line where there is none. -/
structure Span (α : Type) where
  content : List α
  closed : Bool
  deriving DecidableEq, Repr

/-- The literals of a line's characters, read outside a literal or behind the given part of
one. A doubled quote is part of a literal. -/
def literalsFrom : Option (List Char) → List Char → List (Span Char)
  | none, [] => []
  | none, c :: rest =>
    if c = '\x22' then literalsFrom (some []) rest else literalsFrom none rest
  | some text, [] => [⟨text, false⟩]
  | some text, '\x22' :: '\x22' :: rest => literalsFrom (some (text ++ ['\x22', '\x22'])) rest
  | some text, '\x22' :: rest => ⟨text, true⟩ :: literalsFrom none rest
  | some text, c :: rest => literalsFrom (some (text ++ [c])) rest

/-- The quoted spans of a token list, read outside a span or behind the given part of one. -/
def spansFrom : Option (List Token) → List Token → List (Span Token)
  | none, [] => []
  | some content, [] => [⟨content, false⟩]
  | none, token :: rest =>
    if token = quote then spansFrom (some []) rest else spansFrom none rest
  | some content, token :: rest =>
    if token = quote then ⟨content, true⟩ :: spansFrom none rest
    else spansFrom (some (content ++ [token])) rest

/-- The quoted spans of a token list. -/
def spans (tokens : List Token) : List (Span Token) := spansFrom none tokens

/-- The span of tokens that a literal becomes. -/
def Span.tokens (literal : Span Char) : Span Token := ⟨spanTokens literal.content, literal.closed⟩

/-- Tokens without quotes belong to the span that is open, if any. -/
theorem spansFrom_append (content : Option (List Token)) {tokens : List Token}
    (plain : ∀ token ∈ tokens, token ≠ quote) (more : List Token) :
    spansFrom content (tokens ++ more) = spansFrom (content.map (· ++ tokens)) more := by
  induction tokens generalizing content with
  | nil => cases content <;> simp
  | cons token rest inductionHypothesis =>
    obtain ⟨here, later⟩ := List.forall_mem_cons.mp plain
    cases content with
    | none => simpa [spansFrom, here] using inductionHypothesis none later
    | some content =>
      simpa [spansFrom, here] using inductionHypothesis (some (content ++ [token])) later

/-- The part of a literal that a scan holds back. -/
def Mode.literal? : Mode → Option (List Char)
  | .code _ => none
  | .literal reversed => some reversed.reverse

/-- The spans of a scan's tokens are the literals of its characters. -/
theorem spansFrom_scan {mode : Mode} (reached : mode.Reached mode.inside false)
    (chars : List Char) :
    spansFrom (if mode.inside then some [] else none) (scan mode chars) =
      (literalsFrom mode.literal? chars).map Span.tokens := by
  fun_induction scan mode chars with
  | case1 run =>
    have alone := spansFrom_append none reached.2.1.ne_quote []
    rw [List.append_nil] at alone
    exact alone
  | case2 run rest inductionHypothesis =>
    have opened := inductionHypothesis ⟨rfl, by simp⟩
    refine (spansFrom_append none reached.2.1.ne_quote _).trans ?_
    exact opened
  | case3 run c rest other finished next extended inductionHypothesis =>
    obtain ⟨finishedPlain, nextPlain⟩ :=
      Run.extend_plain reached.2.1 (read_ne_of_ne other (by decide))
    rw [extended] at finishedPlain nextPlain
    have later := inductionHypothesis ⟨rfl, nextPlain, by rintro ⟨⟩⟩
    refine (spansFrom_append none finishedPlain.ne_quote _).trans ?_
    simpa [Mode.inside, Mode.literal?, literalsFrom, other] using later
  | case4 reversed rest inductionHypothesis =>
    have later := inductionHypothesis ⟨rfl, by simp⟩
    simpa [Mode.inside, Mode.literal?, literalsFrom] using later
  | case5 reversed rest alone inductionHypothesis =>
    have later : spansFrom none (scan (.code .none) rest) =
        (literalsFrom none rest).map Span.tokens :=
      inductionHypothesis ⟨rfl, by simp [Plain, Run.tokens], by rintro ⟨⟩⟩
    have plain := literalTokens_ne_quote reached.2
    refine (spansFrom_append (some []) plain _).trans ?_
    rw [Mode.literal?, literalsFrom.eq_5 _ _ alone, List.map_cons, ← later, literalTokens_eq]
    rfl
  | case6 reversed c rest alone other inductionHypothesis =>
    have plain : c ≠ quoteChar := other
    have later := inductionHypothesis ⟨rfl, by simp [plain]⟩
    rw [Mode.literal?, literalsFrom.eq_6 _ _ _ (fun _ isQuote => absurd isQuote plain) other]
    simpa [Mode.inside, Mode.literal?] using later
  | case7 reversed =>
    have alone := spansFrom_append (some []) (literalTokens_ne_quote reached.2) []
    rw [List.append_nil] at alone
    refine alone.trans ?_
    rw [literalTokens_eq]
    rfl

/-- The spans of the tokens are the literals of the line. -/
theorem spans_split (line : String) :
    spans (split line) = (literalsFrom none (Text.trim line).toList).map Span.tokens := by
  have reached : (Mode.code .none).Reached false false := ⟨rfl, by simp [Plain, Run.tokens], nofun⟩
  rw [Text.trim, String.toList_ofList]
  exact @spansFrom_scan (.code .none) reached _

/-- Splitting a line keeps all of it but characters of no class and the choice of blanks, and
leaves tokens that are as long as they can be; every literal with a text is one token behind
its opening quote. Dropping blanks takes away the spaces between tokens and nothing else. -/
theorem split_is_lossless_and_well_shaped (line : String) :
    String.join (split line) = String.ofList (keptFrom false (Text.trim line).toList) ∧
    (∀ marked ∈ mark (split line), marked.token = quote ∨ marked.quoted = false →
      ∃! kind : Kind, kind.fits marked.token = true) ∧
    (mark (split line)).IsChain Marked.Apart ∧
    spans (split line) = (literalsFrom none (Text.trim line).toList).map Span.tokens ∧
    tokenize line =
      ((mark (split line)).filter fun marked => marked.quoted || marked.token != " ").map
        Marked.token := by
  have shaped := split_shaped line
  refine ⟨?_, ?_, shaped.apart, spans_split line, shaped.dropBlanks_eq⟩
  · rw [← String.toList_inj, String.toList_join, String.toList_ofList, split, scan_chars,
      Text.trim, String.toList_ofList]
    rfl
  · intro marked member standing
    obtain ⟨kind, fits⟩ := shaped.kinds marked member standing
    exact ⟨kind, fits, fun other fitsOther => Kind.fits_unique fitsOther fits⟩

end Token
end BasicToSharp
