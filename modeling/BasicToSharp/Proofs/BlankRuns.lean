import BasicToSharp.Proofs.CommentLine
import Mathlib.Data.List.DropRight

/-!
# Runs of blanks

Outside literals it makes no difference how many blanks stand in one place or which blanks
they are. The squeezed form of a text has one space for every such run and is otherwise the
text itself. Three walks over the characters of a line are compared with the same walk over
its squeezed form: trimming, splitting into tokens, and splitting a declaration at its commas.

Each walk keeps a state, and the comparison goes through because squeezing keeps the same one:
whether a literal is open, and whether a blank stands directly before. A blank ends every run
of a scan, so a second one finds nothing to end.
-/

namespace BasicToSharp

open Token (quoteChar apostrophe)

namespace Text

/-- Write every run of blanks outside literals as one space. Reading starts inside a literal
or outside one; `gap` says that a blank stands directly before the characters. -/
def squeezeFrom (inside gap : Bool) : List Char → List Char
  | [] => []
  | c :: rest =>
    if c = quoteChar then c :: squeezeFrom (!inside) false rest
    else if inside then c :: squeezeFrom true false rest
    else if isBlank c then
      if gap then squeezeFrom false true rest else ' ' :: squeezeFrom false true rest
    else c :: squeezeFrom false false rest

/-- A text in which every run of blanks outside literals is one space. -/
def squeeze (text : String) : String := String.ofList (squeezeFrom false false text.toList)

/-- The characters of a text with its runs of blanks squeezed. -/
theorem toList_squeeze (text : String) :
    (squeeze text).toList = squeezeFrom false false text.toList := String.toList_ofList

section Characters

variable {inside gap : Bool} {c : Char}

/-- A character is kept unless it is a blank outside literals. -/
theorem squeezeFrom_kept (kept : ¬ (inside = false ∧ isBlank c = true)) (rest : List Char) :
    squeezeFrom inside gap (c :: rest) =
      c :: squeezeFrom (if c = quoteChar then !inside else inside) false rest := by
  by_cases isQuote : c = quoteChar
  · simp [squeezeFrom, isQuote]
  · cases inside with
    | true => simp [squeezeFrom, isQuote]
    | false => simp [squeezeFrom, isQuote, show isBlank c = false by simpa using kept]

/-- A blank is no visible character. -/
theorem ne_of_isBlank {other : Char} (blank : isBlank c = true) (visible : isBlank other = false) :
    c ≠ other := by
  rintro rfl
  simp [blank] at visible

/-- A blank outside literals is written as one space, if it is the first of its run. -/
theorem squeezeFrom_blank (blank : isBlank c = true) (rest : List Char) :
    squeezeFrom false gap (c :: rest) =
      (if gap then [] else [' ']) ++ squeezeFrom false true rest := by
  have plain : c ≠ quoteChar := ne_of_isBlank blank (by decide)
  cases gap <;> simp [squeezeFrom, plain, blank]

/-- A first part may be squeezed on its own before the whole is. -/
theorem squeezeFrom_append_squeezeFrom {first : Bool} (inside : Bool)
    (wider : first = true → gap = true) (chars more : List Char) :
    squeezeFrom inside gap (squeezeFrom inside first chars ++ more) =
      squeezeFrom inside gap (chars ++ more) := by
  induction chars generalizing inside gap first with
  | nil => rfl
  | cons c rest inductionHypothesis =>
    by_cases outer : inside = false ∧ isBlank c = true
    · obtain ⟨rfl, blank⟩ := outer
      have later := @inductionHypothesis true true false (fun _ => rfl)
      rw [squeezeFrom_blank blank, List.cons_append, squeezeFrom_blank blank, ← later]
      cases first with
      | true => simp [wider rfl]
      | false => exact squeezeFrom_blank (by decide) _
    · rw [squeezeFrom_kept outer, List.cons_append, squeezeFrom_kept outer, List.cons_append,
        squeezeFrom_kept outer, inductionHypothesis _ (by simp)]

/-- A text that is squeezed already stays as it is. -/
theorem squeeze_squeeze (text : String) : squeeze (squeeze text) = squeeze text := by
  have twice := @squeezeFrom_append_squeezeFrom false false false id text.toList []
  simp only [List.append_nil] at twice
  rw [squeeze, toList_squeeze, twice, squeeze]

/-- What starts with a visible character is squeezed alike behind a blank and elsewhere. -/
theorem squeezeFrom_dropWhile (gap : Bool) (chars : List Char) :
    (squeezeFrom false gap chars).dropWhile isBlank =
      squeezeFrom false false (chars.dropWhile isBlank) := by
  induction chars generalizing gap with
  | nil => rfl
  | cons c rest inductionHypothesis =>
    cases blank : isBlank c with
    | true =>
      rw [squeezeFrom_blank blank, List.dropWhile_cons_of_pos blank, ← inductionHypothesis true]
      cases gap with
      | true => rfl
      | false => exact List.dropWhile_cons_of_pos (by decide)
    | false =>
      have kept : ¬ (false = false ∧ isBlank c = true) := by simp [blank]
      rw [squeezeFrom_kept kept, List.dropWhile_cons_of_neg (by simp [blank]),
        List.dropWhile_cons_of_neg (by simp [blank]), squeezeFrom_kept kept]

/-- A character stays at the end unless it and all that follows are blanks. -/
theorem dropTrailingBlanks_cons_eq (c : Char) (chars : List Char) :
    dropTrailingBlanks (c :: chars) =
      if isBlank c = true ∧ dropTrailingBlanks chars = [] then []
      else c :: dropTrailingBlanks chars := by
  unfold dropTrailingBlanks
  rw [List.reverse_cons, List.dropWhile_append]
  by_cases empty : chars.reverse.dropWhile isBlank = []
  · by_cases blank : isBlank c = true <;> simp [empty, blank]
  · simp [empty]

/-- Only blanks are lost: squeezing leaves nothing of a text only if there was nothing else. -/
theorem dropTrailingBlanks_eq_nil_of_squeezeFrom {chars : List Char}
    (empty : squeezeFrom inside gap chars = []) : dropTrailingBlanks chars = [] := by
  induction chars generalizing inside gap with
  | nil => rfl
  | cons c rest inductionHypothesis =>
    by_cases outer : inside = false ∧ isBlank c = true
    · obtain ⟨rfl, blank⟩ := outer
      rw [squeezeFrom_blank blank, List.append_eq_nil_iff] at empty
      rw [dropTrailingBlanks_cons_eq, if_pos ⟨blank, inductionHypothesis empty.2⟩]
    · rw [squeezeFrom_kept outer] at empty
      cases empty

/-- Squeezing makes nothing empty that does not end in a blank. -/
theorem squeezeFrom_dropTrailingBlanks_eq_nil {chars : List Char} :
    squeezeFrom inside gap (dropTrailingBlanks chars) = [] ↔ dropTrailingBlanks chars = [] := by
  constructor
  · intro squeezed
    exact (List.rdropWhile_idempotent isBlank chars).symm.trans
      (dropTrailingBlanks_eq_nil_of_squeezeFrom squeezed)
  · intro none
    rw [none, squeezeFrom]

/-- Blanks at the end can be dropped before or after squeezing. -/
theorem dropTrailingBlanks_squeezeFrom (inside gap : Bool) (chars : List Char) :
    dropTrailingBlanks (squeezeFrom inside gap chars) =
      squeezeFrom inside gap (dropTrailingBlanks chars) := by
  induction chars generalizing inside gap with
  | nil => rfl
  | cons c rest inductionHypothesis =>
    rw [dropTrailingBlanks_cons_eq c rest]
    by_cases outer : inside = false ∧ isBlank c = true
    · obtain ⟨rfl, blank⟩ := outer
      have space : isBlank ' ' = true := by decide
      rw [squeezeFrom_blank blank]
      cases gap with
      | true =>
        by_cases none : dropTrailingBlanks rest = []
        · simp [inductionHypothesis, blank, none, squeezeFrom]
        · simp [inductionHypothesis, none, squeezeFrom_blank blank]
      | false =>
        by_cases none : dropTrailingBlanks rest = []
        · simp [dropTrailingBlanks_cons_eq, inductionHypothesis, blank, space, none, squeezeFrom]
        · simp [dropTrailingBlanks_cons_eq, inductionHypothesis, none, squeezeFrom_blank blank,
            squeezeFrom_dropTrailingBlanks_eq_nil]
    · rw [squeezeFrom_kept outer, dropTrailingBlanks_cons_eq]
      simp only [inductionHypothesis, squeezeFrom_dropTrailingBlanks_eq_nil]
      split
      · rfl
      · rw [squeezeFrom_kept outer]

/-- Blanks at both ends can be dropped before or after squeezing. -/
theorem trimBlanks_squeezeFrom (gap : Bool) (chars : List Char) :
    trimBlanks (squeezeFrom false gap chars) = squeezeFrom false false (trimBlanks chars) := by
  rw [trimBlanks, squeezeFrom_dropWhile, dropTrailingBlanks_squeezeFrom, trimBlanks]

/-- The first word of a text is kept. -/
theorem takeWhile_squeezeFrom (inside : Bool) (chars : List Char) :
    (squeezeFrom inside false chars).takeWhile (!isBlank ·) = chars.takeWhile (!isBlank ·) := by
  induction chars generalizing inside with
  | nil => rfl
  | cons c rest inductionHypothesis =>
    by_cases outer : inside = false ∧ isBlank c = true
    · obtain ⟨rfl, blank⟩ := outer
      have space : isBlank ' ' = true := by decide
      simp [squeezeFrom_blank blank, blank, space]
    · rw [squeezeFrom_kept outer, List.takeWhile_cons, List.takeWhile_cons, inductionHypothesis]

/-- Squeezing keeps the first word. -/
theorem firstWord_squeeze (text : String) : firstWord (squeeze text) = firstWord text := by
  unfold firstWord
  rw [toList_squeeze, squeezeFrom_dropWhile, takeWhile_squeezeFrom]

/-- A word without blanks and quotes is not changed, and nor is the space behind it. -/
theorem squeezeFrom_word {word : List Char} (visible : ∀ c ∈ word, isBlank c = false)
    (plain : quoteChar ∉ word) (rest : List Char) :
    squeezeFrom false false (word ++ ' ' :: rest) = word ++ ' ' :: squeezeFrom false true rest := by
  induction word with
  | nil => exact squeezeFrom_blank (by decide) rest
  | cons c word inductionHypothesis =>
    obtain ⟨here, later⟩ := List.forall_mem_cons.mp visible
    obtain ⟨other, plainLater⟩ := List.ne_and_not_mem_of_not_mem_cons plain
    rw [List.cons_append, squeezeFrom_kept (by simp [here]), if_neg other.symm,
      inductionHypothesis later plainLater, List.cons_append]

/-- The cut at the first blank is the same, if the word before it holds no quote. -/
theorem cutAtBlank_squeezeFrom {chars : List Char}
    (plain : quoteChar ∉ chars.takeWhile (!isBlank ·)) :
    cutAtBlank (squeezeFrom false false chars) =
      (cutAtBlank chars).map fun (word, after) => (word, squeezeFrom false true after) := by
  induction chars with
  | nil => rfl
  | cons c rest inductionHypothesis =>
    cases blank : isBlank c with
    | true =>
      have space : isBlank ' ' = true := by decide
      simp [squeezeFrom_blank blank, cutAtBlank, blank, space]
    | false =>
      rw [List.takeWhile_cons_of_pos (by simp [blank])] at plain
      obtain ⟨other, plainLater⟩ := List.ne_and_not_mem_of_not_mem_cons plain
      rw [squeezeFrom_kept (by simp [blank]), if_neg other.symm, cutAtBlank, cutAtBlank,
        inductionHypothesis plainLater]
      simp [blank, Function.comp_def]

/-- A text is cut behind its first word. -/
theorem cutAtBlank_word {chars word after : List Char}
    (cut : cutAtBlank chars = some (word, after)) : word = chars.takeWhile (!isBlank ·) := by
  induction chars generalizing word with
  | nil => cases cut
  | cons c rest inductionHypothesis =>
    cases blank : isBlank c with
    | true =>
      simp only [cutAtBlank, blank, if_true, Option.some.injEq, Prod.mk.injEq] at cut
      simp [blank, cut.1]
    | false =>
      simp only [cutAtBlank, blank, Bool.false_eq_true, if_false, Option.map_eq_some_iff,
        Prod.mk.injEq, Prod.exists] at cut
      obtain ⟨inner, tail, found, rfl, rfl⟩ := cut
      simp [blank, ← inductionHypothesis found]

end Characters
end Text

namespace Token

/-- What is left of a marked token when blanks are dropped. -/
def Marked.kept (marked : Marked) : Option Token :=
  if marked.quoted then some marked.token
  else
    let kept := marked.token.toList.filter (!Text.isBlank ·)
    if kept.isEmpty then none else some (String.ofList kept)

/-- Drop blanks outside literals, from inside a literal or outside one. -/
def dropBlanksFrom (inside : Bool) (tokens : List Token) : List Token :=
  (markFrom inside tokens).filterMap Marked.kept

/-- Blank tokens are dropped from outside literals on. -/
theorem dropBlanks_eq (tokens : List Token) : dropBlanks tokens = dropBlanksFrom false tokens := rfl

/-- A quote is kept and changes sides. -/
theorem dropBlanksFrom_quote (inside : Bool) (rest : List Token) :
    dropBlanksFrom inside (quote :: rest) = quote :: dropBlanksFrom (!inside) rest := by
  simp [dropBlanksFrom, markFrom, Marked.kept]

/-- Behind tokens without quotes, one is on the side one was on. -/
theorem dropBlanksFrom_append (inside : Bool) {tokens : List Token}
    (plain : ∀ token ∈ tokens, token ≠ quote) (more : List Token) :
    dropBlanksFrom inside (tokens ++ more) =
      dropBlanksFrom inside tokens ++ dropBlanksFrom inside more := by
  have marked : markFrom inside (tokens ++ more) =
      markFrom inside tokens ++ markFrom inside more := by
    induction tokens with
    | nil => rfl
    | cons token rest inductionHypothesis =>
      obtain ⟨here, later⟩ := List.forall_mem_cons.mp plain
      simp [markFrom, here, inductionHypothesis later]
  rw [dropBlanksFrom, marked, List.filterMap_append]
  rfl

/-- A space outside literals is dropped. -/
theorem dropBlanksFrom_space (rest : List Token) :
    dropBlanksFrom false (" " :: rest) = dropBlanksFrom false rest := by
  have space : Marked.kept ⟨" ", false⟩ = none := by decide
  simp [dropBlanksFrom, markFrom, quote, space]

/-- No token holds a quote character. What a scan gathers outside literals is plain. -/
def Plain (tokens : List Token) : Prop := ∀ token ∈ tokens, quoteChar ∉ token.toList

/-- Plain tokens are no quotes. -/
theorem Plain.ne_quote {tokens : List Token} (plain : Plain tokens) :
    ∀ token ∈ tokens, token ≠ quote := by
  rintro token member rfl
  exact plain quote member (by decide)

/-- A space ends a run and is a token of its own. -/
theorem Run.extend_space (run : Run) : run.extend ' ' = (run.tokens ++ [" "], .none) := by
  cases run <;> rfl

/-- A run that is extended by anything but a quote stays plain, and so does what it gives off. -/
theorem Run.extend_plain {run : Run} {c : Char} (plain : Plain run.tokens) (other : c ≠ quoteChar) :
    Plain (run.extend c).1 ∧ Plain (run.extend c).2.tokens := by
  have chars : quoteChar ∉ [c] := by simpa using other.symm
  cases kind : CharClass.of c <;> cases run <;>
    simp_all [Run.extend, Plain, Run.tokens, String.toList_singleton]

/-- The mode of a scan that has come to a character: a quote has turned it into a literal or
out of one, its unfinished token is no quote, and a blank has ended every run. -/
def Mode.Reached (inside gap : Bool) : Mode → Prop
  | .code run => inside = false ∧ Plain run.tokens ∧ (gap = true → run = .none)
  | .literal reversed => inside = true ∧ reversed ≠ [quoteChar]

/-- The text of a literal is no quote by itself, unless it is one. -/
theorem literalTokens_ne_quote {reversed : List Char} (other : reversed ≠ [quoteChar]) :
    ∀ token ∈ literalTokens reversed, token ≠ quote := by
  rintro token member rfl
  unfold literalTokens at member
  split at member
  · cases member
  · have chars : quote.toList = reversed.reverse := by
      simp [List.mem_singleton.mp member]
    rw [← List.reverse_reverse reversed, ← chars] at other
    exact other (by decide)

/-- Squeezing puts no quote in front. -/
theorem head_squeezeFrom_ne_quote {rest : List Char}
    (other : ∀ more, rest = quoteChar :: more → False) :
    ∀ more, Text.squeezeFrom false false rest = quoteChar :: more → False := by
  intro more starts
  cases rest with
  | nil => cases starts
  | cons c rest =>
    cases blank : Text.isBlank c with
    | true =>
      rw [Text.squeezeFrom_blank blank] at starts
      cases starts
    | false =>
      rw [Text.squeezeFrom_kept (by simp [blank])] at starts
      obtain ⟨rfl, -⟩ := List.cons.inj starts
      exact other rest rfl

/-- A blank is read as a space, and any other character of code as itself. -/
theorem read_ne_of_ne {c symbol : Char} (other : c ≠ symbol) (notSpace : ' ' ≠ symbol) :
    (if Text.isBlank c then ' ' else c) ≠ symbol := by
  split
  · exact notSpace
  · exact other

/-- Outside literals a character extends the current run, blanks being spaces. -/
theorem scan_code (run : Run) {c : Char} (other : c ≠ quoteChar) (rest : List Char) :
    scan (.code run) (c :: rest) =
      (run.extend (if Text.isBlank c then ' ' else c)).1 ++
        scan (.code (run.extend (if Text.isBlank c then ' ' else c)).2) rest :=
  (scan.eq_2 run c rest).trans (if_neg other)

/-- A scan of squeezed characters differs only in blanks between tokens. -/
theorem dropBlanksFrom_scan_squeezeFrom {mode : Mode} {inside gap : Bool}
    (reached : mode.Reached inside gap) (chars : List Char) :
    dropBlanksFrom inside (scan mode (Text.squeezeFrom inside gap chars)) =
      dropBlanksFrom inside (scan mode chars) := by
  fun_induction scan mode chars generalizing inside gap with
  | case1 run => rfl
  | case2 run rest inductionHypothesis =>
    obtain ⟨rfl, plain, -⟩ := reached
    have opens : Text.squeezeFrom false gap ('\x22' :: rest) =
        '\x22' :: Text.squeezeFrom true false rest := rfl
    rw [opens, scan, if_pos rfl, dropBlanksFrom_append _ plain.ne_quote,
      dropBlanksFrom_append _ plain.ne_quote, dropBlanksFrom_quote, dropBlanksFrom_quote,
      Bool.not_false, inductionHypothesis ⟨rfl, by simp⟩]
  | case3 run c rest other finished next extended inductionHypothesis =>
    obtain ⟨rfl, plain, ended⟩ := reached
    have other : c ≠ quoteChar := other
    obtain ⟨finishedPlain, nextPlain⟩ := Run.extend_plain plain (read_ne_of_ne other (by decide))
    rw [extended] at finishedPlain nextPlain
    cases blank : Text.isBlank c with
    | true =>
      rw [blank, if_pos rfl, Run.extend_space, Prod.mk.injEq] at extended
      obtain ⟨rfl, rfl⟩ := extended
      rw [Text.squeezeFrom_blank blank, dropBlanksFrom_append _ finishedPlain.ne_quote,
        ← @inductionHypothesis false true ⟨rfl, nextPlain, fun _ => rfl⟩]
      cases gap with
      | true =>
        -- The run has ended at the blank before, and this one adds nothing.
        obtain rfl := ended rfl
        rfl
      | false =>
        rw [← dropBlanksFrom_append _ finishedPlain.ne_quote, ← Run.extend_space]
        rfl
    | false =>
      have kept : ¬ (false = false ∧ Text.isBlank c = true) := by simp [blank]
      rw [Text.squeezeFrom_kept kept, if_neg other, scan_code run other, extended,
        dropBlanksFrom_append _ finishedPlain.ne_quote,
        dropBlanksFrom_append _ finishedPlain.ne_quote,
        inductionHypothesis ⟨rfl, nextPlain, by simp⟩]
  | case4 reversed rest inductionHypothesis =>
    obtain ⟨rfl, -⟩ := reached
    exact inductionHypothesis ⟨rfl, by simp⟩
  | case5 reversed rest alone inductionHypothesis =>
    obtain ⟨rfl, other⟩ := reached
    have closes : Text.squeezeFrom true gap ('\x22' :: rest) =
        '\x22' :: Text.squeezeFrom false false rest := rfl
    have plain := literalTokens_ne_quote other
    rw [closes, scan.eq_4 _ _ (head_squeezeFrom_ne_quote alone), dropBlanksFrom_append _ plain,
      dropBlanksFrom_append _ plain, dropBlanksFrom_quote, dropBlanksFrom_quote, Bool.not_true,
      inductionHypothesis ⟨rfl, by simp [Plain, Run.tokens], by simp⟩]
  | case6 reversed c rest alone other inductionHypothesis =>
    obtain ⟨rfl, -⟩ := reached
    have plain : c ≠ quoteChar := other
    have kept : ¬ (true = false ∧ Text.isBlank c = true) := by simp
    rw [Text.squeezeFrom_kept kept, if_neg plain,
      scan.eq_5 _ _ _ (fun _ isQuote => absurd isQuote plain) other]
    exact inductionHypothesis ⟨rfl, by simp [plain]⟩
  | case7 reversed => rfl

/-- A squeezed text has the same tokens. -/
theorem tokenize_squeeze (text : String) : tokenize (Text.squeeze text) = tokenize text := by
  have reached : (Mode.code .none).Reached false false :=
    ⟨rfl, by simp [Plain, Run.tokens], by simp⟩
  unfold tokenize split
  rw [dropBlanks_eq, dropBlanks_eq, Text.toList_squeeze, Text.trimBlanks_squeezeFrom,
    dropBlanksFrom_scan_squeezeFrom reached]

end Token

namespace SourceLine

open Text (squeezeFrom squeeze isBlank)

/-- The bracket depth behind a character. -/
def depthAfter (depth : Nat) (inside : Bool) (c : Char) : Nat :=
  if c = quoteChar ∨ inside = true then depth
  else if c = '(' ∨ c = '[' ∨ c = '\x7b' then depth + 1
  else if c = ')' ∨ c = ']' ∨ c = '\x7d' then depth - 1
  else depth

/-- A comma outside everything ends a segment. -/
theorem splitSegments_comma (current rest : List Char) :
    splitSegments 0 false current (',' :: rest) =
      current.reverse :: splitSegments 0 false [] rest := by
  simp [splitSegments, quoteChar]

/-- Any other character joins the current segment. -/
theorem splitSegments_cons {depth : Nat} {inside : Bool} {c : Char}
    (goesOn : ¬ (c = ',' ∧ inside = false ∧ depth = 0)) (current rest : List Char) :
    splitSegments depth inside current (c :: rest) =
      splitSegments (depthAfter depth inside c) (if c = quoteChar then !inside else inside)
        (c :: current) rest := by
  by_cases isQuote : c = quoteChar
  · simp [splitSegments, depthAfter, isQuote]
  · cases inside with
    | true => simp [splitSegments, depthAfter, isQuote]
    | false =>
      have noCut : ¬ (c = ',' ∧ depth = 0) := by simpa using goesOn
      simp only [splitSegments, depthAfter, isQuote, noCut, Bool.false_eq_true, or_self, if_false]
      split
      · rfl
      · split <;> rfl

/-- What has been read of a segment stands in front of the first one. -/
theorem splitSegments_current (depth : Nat) (inside : Bool) (current chars : List Char) :
    splitSegments depth inside current chars =
      (splitSegments depth inside [] chars).modifyHead (current.reverse ++ ·) := by
  induction chars generalizing depth inside current with
  | nil => simp [splitSegments]
  | cons c rest inductionHypothesis =>
    by_cases cuts : c = ',' ∧ inside = false ∧ depth = 0
    · obtain ⟨rfl, rfl, rfl⟩ := cuts
      rw [splitSegments_comma, splitSegments_comma]
      simp
    · rw [splitSegments_cons cuts, splitSegments_cons cuts, inductionHypothesis,
        inductionHypothesis _ _ [c], List.modifyHead_modifyHead]
      simp [Function.comp_def]

/-- Pieces squeezed one by one, the first of them from where the text starts. -/
def squeezePieces (inside gap : Bool) : List (List Char) → List (List Char)
  | [] => []
  | first :: rest => squeezeFrom inside gap first :: rest.map (squeezeFrom false false)

/-- Squeezing the pieces from inside the first one on puts what was read in front. -/
theorem squeezePieces_modifyHead {inside inside' gap gap' : Bool} {added added' : List Char}
    (same : ∀ chars, squeezeFrom inside gap (added ++ chars) =
      added' ++ squeezeFrom inside' gap' chars) (pieces : List (List Char)) :
    squeezePieces inside gap (pieces.modifyHead (added ++ ·)) =
      (squeezePieces inside' gap' pieces).modifyHead (added' ++ ·) := by
  cases pieces with
  | nil => rfl
  | cons first rest => simp [squeezePieces, same]

/-- From outside literals on, the pieces are squeezed one by one. -/
theorem squeezePieces_eq_map (pieces : List (List Char)) :
    squeezePieces false false pieces = pieces.map (squeezeFrom false false) := by
  cases pieces <;> rfl

/-- A blank is no comma, bracket or quote: it goes on in its piece. -/
theorem splitSegments_blank {c : Char} (blank : isBlank c = true) (depth : Nat) (rest : List Char) :
    splitSegments depth false [] (c :: rest) =
      (splitSegments depth false [] rest).modifyHead ([c] ++ ·) := by
  have differs : ∀ other, isBlank other = false → c ≠ other :=
    fun other visible => Text.ne_of_isBlank blank visible
  have same : depthAfter depth false c = depth := by
    simp [depthAfter, differs '(' (by decide), differs '[' (by decide),
      differs '\x7b' (by decide), differs ')' (by decide), differs ']' (by decide),
      differs '\x7d' (by decide)]
  rw [splitSegments_cons (fun cut => differs ',' (by decide) cut.1), same,
    if_neg (differs quoteChar (by decide)), splitSegments_current]
  rfl

/-- Squeezing neither moves nor hides a comma at which a text is split. -/
theorem splitSegments_squeezeFrom (depth : Nat) (inside gap : Bool) (chars : List Char) :
    splitSegments depth inside [] (squeezeFrom inside gap chars) =
      squeezePieces inside gap (splitSegments depth inside [] chars) := by
  induction chars generalizing depth inside gap with
  | nil => rfl
  | cons c rest inductionHypothesis =>
    by_cases outer : inside = false ∧ isBlank c = true
    · obtain ⟨rfl, blank⟩ := outer
      rw [splitSegments_blank blank,
        squeezePieces_modifyHead (fun chars => Text.squeezeFrom_blank blank chars),
        Text.squeezeFrom_blank blank, ← inductionHypothesis]
      cases gap with
      | true => exact (congrFun List.modifyHead_id _).symm
      | false => exact splitSegments_blank (by decide) depth _
    · rw [Text.squeezeFrom_kept outer]
      by_cases cuts : c = ',' ∧ inside = false ∧ depth = 0
      · obtain ⟨rfl, rfl, rfl⟩ := cuts
        rw [splitSegments_comma, splitSegments_comma, if_neg (by decide), inductionHypothesis,
          squeezePieces_eq_map]
        rfl
      · rw [splitSegments_cons cuts, splitSegments_cons cuts, splitSegments_current,
          inductionHypothesis, splitSegments_current _ _ [c]]
        exact (squeezePieces_modifyHead (fun chars => Text.squeezeFrom_kept outer chars) _).symm

/-- Pieces can be trimmed before or after they are squeezed. -/
theorem map_trimBlanks_squeezePieces (gap : Bool) (pieces : List (List Char)) :
    (squeezePieces false gap pieces).map Text.trimBlanks =
      (pieces.map Text.trimBlanks).map (squeezeFrom false false) := by
  cases pieces with
  | nil => rfl
  | cons first rest =>
    simp [squeezePieces, Text.trimBlanks_squeezeFrom]

/-- The segments of a squeezed text are the squeezed segments. -/
theorem segments_squeezeFrom (gap : Bool) (chars : List Char) :
    segments (squeezeFrom false gap chars) = (segments chars).map squeeze := by
  have filled : ∀ piece ∈ (splitSegments 0 false [] chars).map Text.trimBlanks,
      ((fun piece => !piece.isEmpty) ∘ squeezeFrom false false) piece = !piece.isEmpty := by
    intro piece member
    obtain ⟨untrimmed, -, rfl⟩ := List.mem_map.mp member
    refine congrArg _ (Bool.eq_iff_iff.mpr ?_)
    rw [List.isEmpty_iff, List.isEmpty_iff]
    exact Text.squeezeFrom_dropTrailingBlanks_eq_nil
  unfold segments
  rw [splitSegments_squeezeFrom, map_trimBlanks_squeezePieces, List.filter_map,
    List.filter_congr filled]
  simp [squeeze, Function.comp_def]

/-- Squeezing keeps the type clause of a segment. -/
theorem typeClause_squeeze (segment : String) :
    typeClause (squeeze segment) = typeClause segment := by
  unfold typeClause
  rw [Token.tokenize_squeeze]

/-- Squeezing keeps whether a segment has an initial value. -/
theorem hasInitializer_squeeze (segment : String) :
    hasInitializer (squeeze segment) = hasInitializer segment := by
  unfold hasInitializer
  rw [Token.tokenize_squeeze]

/-- In a declaration made of a segment, the segment may be squeezed first. -/
theorem squeeze_declaration {keyword : String}
    (visible : ∀ c ∈ keyword.toList, isBlank c = false) (plain : quoteChar ∉ keyword.toList)
    (segment ending : String) :
    squeeze (keyword ++ " " ++ squeeze segment ++ ending) =
      squeeze (keyword ++ " " ++ segment ++ ending) := by
  have whole : ∀ segment : String, (keyword ++ " " ++ segment ++ ending).toList =
      keyword.toList ++ ' ' :: (segment.toList ++ ending.toList) := by
    intro segment
    simp
  have inner := @Text.squeezeFrom_append_squeezeFrom true false false (by simp)
    segment.toList ending.toList
  rw [← String.toList_inj, Text.toList_squeeze, Text.toList_squeeze, whole, whole,
    Text.squeezeFrom_word visible plain, Text.squeezeFrom_word visible plain, Text.toList_squeeze,
    inner]

/-- Squeezing the names of a declaration changes its lines only in blanks. -/
theorem shareTypes_squeeze {keyword : String} (visible : ∀ c ∈ keyword.toList, isBlank c = false)
    (plain : quoteChar ∉ keyword.toList) (pieces : List String) :
    (shareTypes keyword ((pieces.map squeeze).map fun piece => (piece, typeClause piece))).map
        squeeze =
      (shareTypes keyword (pieces.map fun piece => (piece, typeClause piece))).map squeeze := by
  induction pieces with
  | nil => rfl
  | cons piece later inductionHypothesis =>
    have types : ((later.map squeeze).map fun piece => (piece, typeClause piece)).findSome?
          Prod.snd =
        (later.map fun piece => (piece, typeClause piece)).findSome? Prod.snd := by
      simp [List.findSome?_map, Function.comp_def, typeClause_squeeze]
    simp only [List.map_cons, shareTypes, typeClause_squeeze, hasInitializer_squeeze, types,
      squeeze_declaration visible plain, inductionHypothesis]

/-- A declaration is split alike whether it is squeezed before or after. -/
theorem splitDeclaration_squeeze {text : String}
    (plain : quoteChar ∉ text.toList.takeWhile (!isBlank ·)) :
    (splitDeclaration (squeeze text)).map squeeze = (splitDeclaration text).map squeeze := by
  have cut := Text.cutAtBlank_squeezeFrom plain
  unfold splitDeclaration
  rw [Text.toList_squeeze, cut]
  cases found : Text.cutAtBlank text.toList with
  | none => simp [Text.squeeze_squeeze]
  | some parts =>
    obtain ⟨keyword, rest⟩ := parts
    obtain rfl := Text.cutAtBlank_word found
    simp only [Option.map_some, segments_squeezeFrom, List.length_map]
    split
    · simp [Text.squeeze_squeeze]
    · apply shareTypes_squeeze
      · intro c member
        rw [String.toList_ofList] at member
        have visible := List.all_eq_true.mp List.all_takeWhile c member
        simpa using visible
      · simpa using plain

end SourceLine

end BasicToSharp
