import BasicToSharp.Proofs.BalancedTokens
import BasicToSharp.Proofs.PiecewiseReading

/-!
# One character after another

A scan takes one character at a time, or two when a quote is doubled inside a literal. What a
character does to it is said here once: which tokens it ends and which run or literal is open
behind it. Every statement about all that is read from some mode on then follows the same
cases, which `Mode.scanInduction` collects.

Two such statements are about literals. One is open behind the tokens exactly when it is open
behind the characters, where every quote opens or closes. And where none is open, a blank ends
what has been read, so that what follows is read on its own.
-/

namespace BasicToSharp

open Token (quoteChar quote)
open Text (isBlank)

namespace Token

/-! ## What one character does to a scan -/

/-- A run has gathered characters of one kind. -/
def Run.Gathers : Run → Prop
  | .none => True
  | .operator reversed => Kind.operators.fits (String.ofList reversed.reverse) = true
  | .word reversed => Kind.word.fits (String.ofList reversed.reverse) = true

/-- The mode of a scan that has come this far: a run has gathered characters of one kind, and
a literal has not stopped between the two quotes of a pair. -/
def Mode.Sound : Mode → Prop
  | .code run => run.Gathers
  | .literal reversed => reversed ≠ [quoteChar]

/-- The tokens that are read from a mode on. -/
def Mode.resume (mode : Mode) (chars : List Char) : List Token :=
  dropBlanksFrom mode.inside (scan mode chars)

/-- The tokens that a character of code ends, itself included if it is a symbol. -/
def Run.ended (run : Run) (c : Char) : List Token :=
  dropBlanksFrom false (run.extend (if isBlank c then ' ' else c)).1

/-- The run that is open behind a character of code. -/
def Run.behind (run : Run) (c : Char) : Run := (run.extend (if isBlank c then ' ' else c)).2

/-- The brackets and the comma. -/
def separatorChars : List Char := ['(', '[', '\x7b', ')', ']', '\x7d', ',']

section Step

variable {run : Run} {c : Char} {reversed rest : List Char}

/-- A run gives tokens without brackets and commas. -/
theorem Run.Gathers.tokens_inert (gathers : run.Gathers) :
    ∀ token ∈ run.tokens, isInert token = true ∧ token ≠ "," := by
  have inert : ∀ {kind : Kind} {token : Token}, kind.isRun = true → kind.fits token = true →
      isInert token = true ∧ token ≠ "," := by
    intro kind token isRun fits
    exact inert_of_test kind.fits fits (by cases kind <;> revert isRun <;> decide)
  cases run with
  | none => nofun
  | operator reversed => simpa [Run.tokens] using inert rfl gathers
  | word reversed => simpa [Run.tokens] using inert rfl gathers

/-- A run gives no blanks. -/
theorem Run.Gathers.dropBlanksFrom_tokens (gathers : run.Gathers) :
    dropBlanksFrom false run.tokens = run.tokens := by
  cases run with
  | none => rfl
  | operator reversed =>
    exact Kind.dropBlanksFrom_fits (by decide) gathers (Kind.ne_space_of_isRun rfl gathers) []
  | word reversed =>
    exact Kind.dropBlanksFrom_fits (by decide) gathers (Kind.ne_space_of_isRun rfl gathers) []

/-- A run gives plain tokens. -/
theorem Run.Gathers.plain (gathers : run.Gathers) : Plain run.tokens := by
  have bare : ∀ token ∈ run.tokens, Bare token := by
    cases run with
    | none => nofun
    | operator reversed => simpa [Run.tokens] using Kind.bare_of_isRun rfl gathers
    | word reversed => simpa [Run.tokens] using Kind.bare_of_isRun rfl gathers
  intro token member isQuote
  exact ((bare token member).2 quoteChar isQuote).2 rfl

/-- The separators are the grouping symbols that are no blank. -/
theorem mem_separatorChars :
    c ∈ separatorChars ↔ CharClass.of c = .grouping ∧ isBlank c = false := by
  constructor
  · intro isSeparator
    have separators : separatorChars.all
        (fun c => CharClass.of c == .grouping && !isBlank c) = true := by decide
    simpa using List.all_eq_true.mp separators c isSeparator
  · rintro ⟨grouping, visible⟩
    have isSymbol := CharClass.of_eq_grouping.mp grouping
    have symbols : groupingChars.all (fun c => isBlank c || separatorChars.contains c) = true := by
      decide
    have here := List.all_eq_true.mp symbols c (List.contains_iff_mem.mp isSymbol)
    simpa [visible] using here

/-- A run that is extended by anything but a quote gathers on. -/
theorem Run.Gathers.extend (gathers : run.Gathers) (other : c ≠ quoteChar) :
    (run.extend c).2.Gathers := by
  cases kind : CharClass.of c with
  | operator =>
    have isOperator := CharClass.of_eq_operator.mp kind
    cases run <;> simp_all [Run.extend, Run.Gathers, Kind.fits]
  | word =>
    have isWord := CharClass.of_eq_word.mp kind
    cases run <;> simp_all [Run.extend, Run.Gathers, Kind.fits]
  | grouping => simp [Run.extend, kind, Run.Gathers]
  | stray => simpa [Run.extend, kind] using gathers

/-- A character that is no grouping symbol ends the run as a whole or not at all. -/
theorem Run.extend_ended (run : Run) (notGrouping : CharClass.of c ≠ .grouping) :
    (run.extend c).1 = [] ∨ (run.extend c).1 = run.tokens := by
  cases kind : CharClass.of c <;> cases run <;> simp_all [Run.extend, Run.tokens]

/-- No run is open behind a blank. -/
theorem Run.behind_blank (blank : isBlank c = true) : run.behind c = .none := by
  rw [Run.behind, if_pos blank, Run.extend_space]

/-- A blank ends a run and gives nothing else. -/
theorem Run.Gathers.ended_blank (gathers : run.Gathers) (blank : isBlank c = true) :
    run.ended c = run.tokens := by
  have space : dropBlanksFrom false [" "] = [] := by decide
  rw [Run.ended, if_pos blank, Run.extend_space, dropBlanksFrom_append false gathers.plain.ne_quote,
    gathers.dropBlanksFrom_tokens, space, List.append_nil]

/-- A separator ends the run and stands alone. -/
theorem Run.Gathers.separator (gathers : run.Gathers) (isSeparator : c ∈ separatorChars) :
    run.behind c = .none ∧ run.ended c = run.tokens ++ [String.singleton c] := by
  obtain ⟨grouping, visible⟩ := mem_separatorChars.mp isSeparator
  have symbol : dropBlanksFrom false [String.singleton c] = [String.singleton c] := by
    have fits : Kind.grouping.fits (String.singleton c) = true := by
      simpa [Kind.fits, isGrouping, String.toList_singleton] using
        CharClass.of_eq_grouping.mp grouping
    refine Kind.dropBlanksFrom_fits (by decide) fits (fun isSpace => ?_) []
    obtain rfl : c = ' ' := by simpa [← String.toList_inj] using isSpace
    exact absurd visible (by decide)
  simp [Run.behind, Run.ended, visible, Run.extend, grouping,
    dropBlanksFrom_append false gathers.plain.ne_quote, gathers.dropBlanksFrom_tokens, symbol]

/-- Any other character of code ends the run as a whole or not at all. -/
theorem Run.Gathers.ended_other (gathers : run.Gathers) (other : c ∉ separatorChars) :
    run.ended c = [] ∨ run.ended c = run.tokens := by
  cases blank : isBlank c with
  | true => exact .inr (gathers.ended_blank blank)
  | false =>
    have notGrouping : CharClass.of c ≠ .grouping :=
      fun grouping => other (mem_separatorChars.mpr ⟨grouping, blank⟩)
    rw [Run.ended, blank, if_neg Bool.false_ne_true]
    rcases run.extend_ended notGrouping with nothing | whole
    · left
      rw [nothing]
      rfl
    · right
      rw [whole, gathers.dropBlanksFrom_tokens]

/-- The run behind a character that is no quote gathers. -/
theorem Run.Gathers.behind (gathers : run.Gathers) (other : c ≠ quoteChar) :
    (run.behind c).Gathers := by
  unfold Run.behind
  split
  · exact gathers.extend (by decide)
  · exact gathers.extend other

/-- What a character ends is no quote. -/
theorem Run.Gathers.ended_ne_quote (gathers : run.Gathers) (other : c ≠ quoteChar) :
    ∀ token ∈ run.ended c, token ≠ quote := by
  by_cases isSeparator : c ∈ separatorChars
  · rw [(gathers.separator isSeparator).2]
    refine List.forall_mem_append.mpr ⟨gathers.plain.ne_quote, List.forall_mem_singleton.mpr ?_⟩
    intro same
    exact other (by simpa [← String.toList_inj, toList_quote] using same)
  · rcases gathers.ended_other isSeparator with nothing | whole
    · rw [nothing]
      nofun
    · rw [whole]
      exact gathers.plain.ne_quote

/-! ### The tokens behind a mode -/

/-- At the end of a line the open run is given. -/
theorem Mode.resume_end (gathers : run.Gathers) : (Mode.code run).resume [] = run.tokens := by
  rw [Mode.resume, scan]
  exact gathers.dropBlanksFrom_tokens

/-- A quote ends the open run and opens a literal. -/
theorem Mode.resume_opening (gathers : run.Gathers) (rest : List Char) :
    (Mode.code run).resume (quoteChar :: rest) =
      run.tokens ++ quote :: (Mode.literal []).resume rest := by
  have opened : scan (.code run) (quoteChar :: rest) =
      run.tokens ++ quote :: scan (.literal []) rest := (scan.eq_2 _ _ _).trans (if_pos rfl)
  rw [Mode.resume, opened]
  refine (dropBlanksFrom_append false gathers.plain.ne_quote _).trans ?_
  rw [gathers.dropBlanksFrom_tokens, dropBlanksFrom_quote]
  rfl

/-- Outside literals a character ends or extends the open run. -/
theorem Mode.resume_code (gathers : run.Gathers) (other : c ≠ quoteChar) (rest : List Char) :
    (Mode.code run).resume (c :: rest) = run.ended c ++ (Mode.code (run.behind c)).resume rest := by
  rw [Mode.resume, scan_code run other]
  have plain := (Run.extend_plain gathers.plain (read_ne_of_ne other (by decide))).1
  exact dropBlanksFrom_append false plain.ne_quote _

/-- A pair of quotes inside a literal is text. -/
theorem Mode.resume_pair (reversed rest : List Char) :
    (Mode.literal reversed).resume (quoteChar :: quoteChar :: rest) =
      (Mode.literal (quoteChar :: quoteChar :: reversed)).resume rest := by
  rw [Mode.resume, quoteChar, scan]
  rfl

/-- The text of a literal is kept with its blanks. -/
theorem dropBlanksFrom_literalTokens (sound : (Mode.literal reversed).Sound) :
    dropBlanksFrom true (literalTokens reversed) = literalTokens reversed := by
  have plain := literalTokens_ne_quote sound
  unfold literalTokens at plain ⊢
  split
  · rfl
  · next filled =>
    have other := plain (String.ofList reversed.reverse) (by simp [filled])
    simp [dropBlanksFrom, markFrom, other, Marked.kept]

/-- A lone quote closes the literal. -/
theorem Mode.resume_closing (sound : (Mode.literal reversed).Sound)
    (alone : ∀ more, rest = quoteChar :: more → False) :
    (Mode.literal reversed).resume (quoteChar :: rest) =
      literalTokens reversed ++ quote :: (Mode.code .none).resume rest := by
  rw [Mode.resume, quoteChar, scan.eq_4 _ _ alone]
  refine (dropBlanksFrom_append true (literalTokens_ne_quote sound) _).trans ?_
  rw [dropBlanksFrom_quote, dropBlanksFrom_literalTokens sound]
  rfl

/-- Any other character inside a literal is text. -/
theorem Mode.resume_literal (other : c ≠ quoteChar) (reversed rest : List Char) :
    (Mode.literal reversed).resume (c :: rest) = (Mode.literal (c :: reversed)).resume rest := by
  rw [Mode.resume, scan.eq_5 _ _ _ (fun _ isQuote => absurd isQuote other) other]
  rfl

/-- At the end of a line the text of an open literal is given. -/
theorem Mode.resume_unclosed (sound : (Mode.literal reversed).Sound) :
    (Mode.literal reversed).resume [] = literalTokens reversed := by
  rw [Mode.resume, scan]
  exact dropBlanksFrom_literalTokens sound

end Step

/-- What holds of every way a scan can go on holds of every sound mode and all characters. -/
theorem Mode.scanInduction {motive : Mode → List Char → Prop}
    (finished : ∀ {run : Run}, run.Gathers → motive (.code run) [])
    (opening : ∀ {run : Run} {rest : List Char}, run.Gathers → motive (.literal []) rest →
      motive (.code run) (quoteChar :: rest))
    (code : ∀ {run : Run} {c : Char} {rest : List Char}, run.Gathers → c ≠ quoteChar →
      motive (.code (run.behind c)) rest → motive (.code run) (c :: rest))
    (pair : ∀ {reversed rest : List Char},
      motive (.literal (quoteChar :: quoteChar :: reversed)) rest →
        motive (.literal reversed) (quoteChar :: quoteChar :: rest))
    (closing : ∀ {reversed rest : List Char}, (Mode.literal reversed).Sound →
      (∀ more, rest = quoteChar :: more → False) → motive (.code .none) rest →
        motive (.literal reversed) (quoteChar :: rest))
    (literal : ∀ {reversed : List Char} {c : Char} {rest : List Char}, c ≠ quoteChar →
      motive (.literal (c :: reversed)) rest → motive (.literal reversed) (c :: rest))
    (unclosed : ∀ {reversed : List Char}, (Mode.literal reversed).Sound →
      motive (.literal reversed) [])
    {mode : Mode} (sound : mode.Sound) (chars : List Char) : motive mode chars := by
  fun_induction scan mode chars with
  | case1 run => exact finished sound
  | case2 run rest inductionHypothesis =>
    exact opening sound (inductionHypothesis (by simp [Mode.Sound]))
  | case3 run c rest other finished next extended inductionHypothesis =>
    have behind : run.behind c = next := congrArg Prod.snd extended
    have gathers := Run.Gathers.behind sound other
    rw [behind] at gathers
    refine code sound other ?_
    rw [behind]
    exact inductionHypothesis gathers
  | case4 reversed rest inductionHypothesis =>
    exact pair (inductionHypothesis (by simp [Mode.Sound]))
  | case5 reversed rest alone inductionHypothesis =>
    exact closing sound alone (inductionHypothesis trivial)
  | case6 reversed c rest alone other inductionHypothesis =>
    have plain : c ≠ quoteChar := other
    exact literal plain (inductionHypothesis (by simp [Mode.Sound, plain]))
  | case7 reversed => exact unclosed sound

/-! ## Open literals -/

/-- Whether a literal is open behind characters. -/
def openAfter (inside : Bool) (chars : List Char) : Bool :=
  chars.foldl (fun inside c => if c = quoteChar then !inside else inside) inside

/-- A quote changes sides, and any other character stays on its side. -/
theorem openAfter_cons (inside : Bool) (c : Char) (rest : List Char) :
    openAfter inside (c :: rest) =
      openAfter (if c = quoteChar then !inside else inside) rest := rfl

/-- Two stretches of characters are passed one after the other. -/
theorem openAfter_append (inside : Bool) (first second : List Char) :
    openAfter inside (first ++ second) = openAfter (openAfter inside first) second :=
  List.foldl_append

/-- Characters without quotes stay on their side. -/
theorem openAfter_plain {chars : List Char} (plain : quoteChar ∉ chars) (inside : Bool) :
    openAfter inside chars = inside := by
  induction chars with
  | nil => rfl
  | cons c rest inductionHypothesis =>
    obtain ⟨other, later⟩ := List.ne_and_not_mem_of_not_mem_cons plain
    rw [openAfter_cons, if_neg other.symm, inductionHypothesis later]

/-- Tokens without quotes stay on their side. -/
theorem insideAfter_plain {tokens : List Token} (plain : ∀ token ∈ tokens, token ≠ quote)
    (inside : Bool) (more : List Token) :
    insideAfter inside (tokens ++ more) = insideAfter inside more := by
  induction tokens with
  | nil => rfl
  | cons token rest inductionHypothesis =>
    obtain ⟨here, later⟩ := List.forall_mem_cons.mp plain
    rw [List.cons_append, insideAfter_cons, if_neg here, inductionHypothesis later]

/-- A literal is open behind the tokens that are read exactly when it is behind their
characters. -/
theorem insideAfter_resume {mode : Mode} (sound : mode.Sound) (chars : List Char) :
    insideAfter mode.inside (mode.resume chars) = openAfter mode.inside chars := by
  refine Mode.scanInduction
    (motive := fun mode chars =>
      insideAfter mode.inside (mode.resume chars) = openAfter mode.inside chars)
    ?finished ?opening ?code ?pair ?closing ?literal ?unclosed sound chars
  case finished =>
    intro run gathers
    rw [Mode.resume_end gathers, ← List.append_nil run.tokens,
      insideAfter_plain gathers.plain.ne_quote]
    rfl
  case opening =>
    intro run rest gathers later
    rw [Mode.resume_opening gathers, insideAfter_plain gathers.plain.ne_quote, openAfter_cons,
      if_pos rfl]
    exact later
  case code =>
    intro run c rest gathers other later
    rw [Mode.resume_code gathers other, insideAfter_plain (gathers.ended_ne_quote other),
      openAfter_cons, if_neg other]
    exact later
  case pair =>
    intro reversed rest later
    rw [Mode.resume_pair, openAfter_cons, openAfter_cons, if_pos rfl, if_pos rfl, Bool.not_not]
    exact later
  case closing =>
    intro reversed rest sound alone later
    rw [Mode.resume_closing sound alone, insideAfter_plain (literalTokens_ne_quote sound),
      openAfter_cons, if_pos rfl]
    exact later
  case literal =>
    intro reversed c rest other later
    rw [Mode.resume_literal other, openAfter_cons, if_neg other]
    exact later
  case unclosed =>
    intro reversed sound
    rw [Mode.resume_unclosed sound, ← List.append_nil (literalTokens reversed),
      insideAfter_plain (literalTokens_ne_quote sound)]
    rfl

/-- Behind closed literals a blank ends what is read, and what follows is read on its own. -/
theorem Mode.resume_blank {mode : Mode} (sound : mode.Sound) {chars : List Char}
    (closed : openAfter mode.inside chars = false) {blank : Char} (isBlank : isBlank blank = true)
    (rest : List Char) :
    mode.resume (chars ++ blank :: rest) = mode.resume chars ++ read rest := by
  have notQuote : blank ≠ quoteChar := Text.ne_of_isBlank isBlank (by decide)
  revert closed
  refine Mode.scanInduction
    (motive := fun mode chars => openAfter mode.inside chars = false →
      mode.resume (chars ++ blank :: rest) = mode.resume chars ++ read rest)
    ?finished ?opening ?code ?pair ?closing ?literal ?unclosed sound chars
  case finished =>
    intro run gathers _
    rw [List.nil_append, Mode.resume_code gathers notQuote, Mode.resume_end gathers,
      gathers.ended_blank isBlank, Run.behind_blank isBlank]
    rfl
  case opening =>
    intro run chars gathers later closed
    rw [List.cons_append, Mode.resume_opening gathers, Mode.resume_opening gathers, later closed]
    simp
  case code =>
    intro run c chars gathers other later closed
    rw [openAfter_cons, if_neg other] at closed
    rw [List.cons_append, Mode.resume_code gathers other, Mode.resume_code gathers other,
      later closed, List.append_assoc]
  case pair =>
    intro reversed chars later closed
    rw [openAfter_cons, openAfter_cons, if_pos rfl, if_pos rfl, Bool.not_not] at closed
    rw [List.cons_append, List.cons_append, Mode.resume_pair, Mode.resume_pair, later closed]
  case closing =>
    intro reversed chars sound alone later closed
    have stillAlone : ∀ more, chars ++ blank :: rest = quoteChar :: more → False := by
      intro more starts
      cases chars with
      | nil => exact notQuote (List.cons.inj starts).1
      | cons c chars => exact alone chars (by rw [(List.cons.inj starts).1])
    rw [List.cons_append, Mode.resume_closing sound stillAlone, Mode.resume_closing sound alone,
      later closed]
    simp
  case literal =>
    intro reversed c chars other later closed
    rw [openAfter_cons, if_neg other] at closed
    rw [List.cons_append, Mode.resume_literal other, Mode.resume_literal other, later closed]
  case unclosed =>
    intro reversed _ closed
    cases closed

end Token

end BasicToSharp
