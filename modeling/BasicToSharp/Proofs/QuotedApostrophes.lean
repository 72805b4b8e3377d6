import BasicToSharp.Proofs.ScanSteps
import BasicToSharp.Proofs.SourcePositions

/-!
# Apostrophes inside and outside literals

A trailing comment is cut off before the line is split into tokens. The cut looks for the first
apostrophe outside literals and turns in or out at every double quote, while the scan takes a
doubled quote for a part of the literal it is in. The two are in step wherever an apostrophe can
stand, since none stands between the two quotes of a pair.

What the scan makes of an apostrophe is read off its tokens. It drops none, so the apostrophes of
the tokens are those of the line in their order, and each has the mark of its token
(`apostropheMarks_split`). The cut falls at the first one with the mark of code.
-/

namespace BasicToSharp

open Token (quoteChar quote apostrophe)

namespace Token

/-- For each apostrophe of marked tokens, in order, whether it is quoted. -/
def apostropheMarks (marked : List Marked) : List Bool :=
  marked.flatMap fun marked => List.replicate (marked.token.toList.count apostrophe) marked.quoted

/-- For each apostrophe of characters, in order, whether a literal is open before it when every
double quote opens or closes one. -/
def apostropheStanding (inside : Bool) : List Char → List Bool
  | [] => []
  | c :: rest =>
    (if c = apostrophe then [inside] else []) ++
      apostropheStanding (if c = quoteChar then !inside else inside) rest

/-- The apostrophe behind these characters is the first one of the line that splitting it puts
outside literals. -/
def FirstOuter (line : String) (before : List Char) : Prop :=
  ∃ after later, line.toList = before ++ apostrophe :: after ∧
    apostropheMarks (mark (split line)) =
      List.replicate (before.count apostrophe) true ++ false :: later

/-! ## Where apostrophes stand -/

section Standing

variable {inside : Bool} {chars : List Char}

/-- The apostrophes of a whole stand as they do in its parts. -/
theorem apostropheStanding_append (inside : Bool) (first second : List Char) :
    apostropheStanding inside (first ++ second) =
      apostropheStanding inside first ++ apostropheStanding (openAfter inside first) second := by
  induction first generalizing inside with
  | nil => rfl
  | cons c rest inductionHypothesis =>
    rw [List.cons_append, apostropheStanding, inductionHypothesis, ← List.append_assoc]
    rfl

/-- Every apostrophe stands somewhere. -/
theorem length_apostropheStanding (inside : Bool) (chars : List Char) :
    (apostropheStanding inside chars).length = chars.count apostrophe := by
  induction chars generalizing inside with
  | nil => rfl
  | cons c rest inductionHypothesis =>
    rw [apostropheStanding, List.length_append, inductionHypothesis, List.count_cons]
    by_cases isApostrophe : c = apostrophe <;> simp [isApostrophe, Nat.add_comm]

/-- Every apostrophe is in a literal exactly when none has evenly many quotes before it. -/
theorem apostropheStanding_all_iff (inside : Bool) (chars : List Char) :
    (∀ quoted ∈ apostropheStanding inside chars, quoted = true) ↔
      ¬ OuterApostropheFrom inside chars := by
  induction chars generalizing inside with
  | nil => simpa [apostropheStanding] using not_outerApostropheFrom_nil inside
  | cons c rest inductionHypothesis =>
    rw [apostropheStanding, List.forall_mem_append, inductionHypothesis, outerApostropheFrom_cons,
      not_or]
    by_cases isApostrophe : c = apostrophe <;> simp [isApostrophe]

/-- A literal is open behind an odd number of quotes. -/
theorem openAfter_eq (inside : Bool) (chars : List Char) :
    openAfter inside chars = decide ((inside.toNat + chars.count quoteChar) % 2 = 1) := by
  induction chars generalizing inside with
  | nil => cases inside <;> rfl
  | cons c rest inductionHypothesis =>
    rw [openAfter_cons, inductionHypothesis, quoteParity_cons]

/-- A quote turns in or out, and any other character stands where it is. -/
theorem apostropheStanding_quote (inside : Bool) (rest : List Char) :
    apostropheStanding inside (quoteChar :: rest) = apostropheStanding (!inside) rest := by
  have plain : quoteChar ≠ apostrophe := by decide
  rw [apostropheStanding, if_neg plain, if_pos rfl]
  rfl

/-- A character other than a quote changes no side. -/
theorem apostropheStanding_char {c : Char} (other : c ≠ quoteChar) (inside : Bool)
    (rest : List Char) :
    apostropheStanding inside (c :: rest) =
      List.replicate ([c].count apostrophe) inside ++ apostropheStanding inside rest := by
  rw [apostropheStanding, if_neg other]
  by_cases isApostrophe : c = apostrophe <;> simp [isApostrophe]

end Standing

/-! ## What the scan makes of apostrophes -/

section Scan

/-- Tokens without a quote among them have the marks of the place they stand at. -/
theorem apostropheMarks_plain (inside : Bool) {tokens : List Token}
    (plain : ∀ token ∈ tokens, token ≠ quote) (more : List Token) :
    apostropheMarks (markFrom inside (tokens ++ more)) =
      List.replicate ((tokens.flatMap String.toList).count apostrophe) inside ++
        apostropheMarks (markFrom inside more) := by
  induction tokens with
  | nil => rfl
  | cons token rest inductionHypothesis =>
    obtain ⟨here, later⟩ := List.forall_mem_cons.mp plain
    rw [List.cons_append, markFrom, if_neg here, apostropheMarks, List.flatMap_cons,
      ← apostropheMarks, inductionHypothesis later, ← List.append_assoc,
      List.replicate_append_replicate, List.flatMap_cons, List.count_append]

/-- A quote has no apostrophe and changes sides. -/
theorem apostropheMarks_quote (inside : Bool) (more : List Token) :
    apostropheMarks (markFrom inside (quote :: more)) =
      apostropheMarks (markFrom (!inside) more) := by
  rw [markFrom, if_pos rfl, apostropheMarks, List.flatMap_cons, ← apostropheMarks]
  rfl

/-- A character of code is read as an apostrophe exactly when it is one. -/
theorem count_apostrophe_read (c : Char) :
    (if CharClass.of (if Text.isBlank c then ' ' else c) = .stray then []
      else [if Text.isBlank c then ' ' else c]).count apostrophe = [c].count apostrophe := by
  by_cases isApostrophe : c = apostrophe
  · rw [isApostrophe]
    decide
  · have other := read_ne_of_ne isApostrophe (by decide)
    generalize (if Text.isBlank c then ' ' else c) = read at other
    split <;> simp [isApostrophe, other]

/-- The apostrophes of a scan are those it holds back and those still to come. -/
theorem apostropheMarks_scan {mode : Mode} (sound : mode.Sound) (chars : List Char) :
    apostropheMarks (markFrom mode.inside (scan mode chars)) =
      List.replicate (mode.held.count apostrophe) mode.inside ++
        apostropheStanding mode.inside chars := by
  refine Mode.scanInduction
    (motive := fun mode chars => apostropheMarks (markFrom mode.inside (scan mode chars)) =
      List.replicate (mode.held.count apostrophe) mode.inside ++
        apostropheStanding mode.inside chars)
    ?finished ?opening ?code ?pair ?closing ?literal ?unclosed sound chars
  case finished =>
    intro run gathers
    have held := apostropheMarks_plain false gathers.plain.ne_quote []
    rw [List.append_nil, Run.tokens_chars] at held
    exact held
  case opening =>
    intro run rest gathers later
    have opened : scan (.code run) (quoteChar :: rest) =
        run.tokens ++ quote :: scan (.literal []) rest := (scan.eq_2 _ _ _).trans (if_pos rfl)
    rw [opened, Mode.inside, apostropheMarks_plain false gathers.plain.ne_quote,
      apostropheMarks_quote, Run.tokens_chars]
    exact congrArg _ later
  case code =>
    -- The character may end the run before it, so what is held and what is given out are
    -- counted together.
    intro run c rest gathers other later
    have chars := congrArg (List.count apostrophe)
      (run.extend_chars (if Text.isBlank c then ' ' else c))
    rw [List.count_append, List.count_append, count_apostrophe_read] at chars
    rw [scan_code run other, Mode.inside,
      apostropheMarks_plain false
        (Run.extend_plain gathers.plain (read_ne_of_ne other (by decide))).1.ne_quote]
    refine (congrArg _ later).trans ?_
    rw [Mode.inside, apostropheStanding_char other, ← List.append_assoc, ← List.append_assoc,
      List.replicate_append_replicate, List.replicate_append_replicate]
    exact congrArg (List.replicate · false ++ _) chars
  case pair =>
    -- The cut turns out and in again where the scan stays in the literal.
    intro reversed rest later
    have step : scan (.literal reversed) (quoteChar :: quoteChar :: rest) =
        scan (.literal (quoteChar :: quoteChar :: reversed)) rest := by
      rw [quoteChar, scan]
    have held : (Mode.literal (quoteChar :: quoteChar :: reversed)).held.count apostrophe =
        (Mode.literal reversed).held.count apostrophe := by
      simp [Mode.held, quoteChar, apostrophe]
    rw [held] at later
    rw [step, apostropheStanding_quote, apostropheStanding_quote, Bool.not_not]
    exact later
  case closing =>
    intro reversed rest sound alone later
    rw [quoteChar, scan.eq_4 _ _ alone, Mode.inside,
      apostropheMarks_plain true (literalTokens_ne_quote sound), apostropheMarks_quote,
      literalTokens_eq, flatMap_spanTokens]
    exact congrArg _ later
  case literal =>
    intro reversed c rest other later
    rw [scan.eq_5 _ _ _ (fun _ isQuote => absurd isQuote other) other]
    refine later.trans ?_
    rw [Mode.inside, Mode.inside, apostropheStanding_char other, ← List.append_assoc,
      List.replicate_append_replicate, Mode.held, List.reverse_cons, List.count_append]
    rfl
  case unclosed =>
    intro reversed sound
    have held := apostropheMarks_plain true (literalTokens_ne_quote sound) []
    rw [List.append_nil, literalTokens_eq, flatMap_spanTokens] at held
    rw [scan, literalTokens_eq]
    exact held

/-- The apostrophes of a line's tokens are those of the line, each where it stands in it. -/
theorem apostropheMarks_split {line : String} (trimmed : Text.Trimmed line.toList) :
    apostropheMarks (mark (split line)) = apostropheStanding false line.toList := by
  rw [split, trimmed.trimBlanks_eq]
  exact @apostropheMarks_scan (.code .none) trivial line.toList

/-- If all apostrophes are quoted, tokens outside literals have none. -/
theorem apostrophe_not_mem_of_all {marked : List Marked}
    (quoted : ∀ standing ∈ apostropheMarks marked, standing = true) :
    ∀ token ∈ marked, token.quoted = false → apostrophe ∉ token.token.toList := by
  intro token member outside isApostrophe
  have listed : token.quoted ∈ apostropheMarks marked := by
    refine List.mem_flatMap.mpr ⟨token, member, List.mem_replicate.mpr ⟨?_, rfl⟩⟩
    exact (List.count_pos_iff.mpr isApostrophe).ne'
  rw [quoted _ listed] at outside
  cases outside

/-- Tokens outside literals may be left out without a change to the marks of the others. -/
theorem markFrom_filter {keep : Marked → Bool} (quotes : ∀ marked, marked.quoted = true →
    keep marked = true) (inside : Bool) (tokens : List Token) :
    markFrom inside (((markFrom inside tokens).filter keep).map Marked.token) =
      (markFrom inside tokens).filter keep := by
  induction tokens generalizing inside with
  | nil => rfl
  | cons token rest inductionHypothesis =>
    by_cases isQuote : token = quote
    · rw [markFrom, if_pos isQuote, List.filter_cons_of_pos (quotes _ rfl), List.map_cons, markFrom,
        if_pos isQuote, inductionHypothesis]
    · rw [markFrom, if_neg isQuote, List.filter_cons]
      split
      · rw [List.map_cons, markFrom, if_neg isQuote, inductionHypothesis]
      · exact inductionHypothesis inside

/-- The tokens that are kept are marked as they are before blanks are dropped. -/
theorem mem_mark_split {line : String} {marked : Marked} (member : marked ∈ mark (tokenize line)) :
    marked ∈ mark (split line) := by
  have quotes : ∀ marked : Marked, marked.quoted = true →
      (marked.quoted || marked.token != " ") = true := by
    intro marked quoted
    rw [quoted, Bool.true_or]
  rw [tokenize, (split_shaped line).dropBlanks_eq, mark, mark, markFrom_filter quotes] at member
  exact List.mem_of_mem_filter member

end Scan

end Token

/-! ## The cut -/

namespace SourceLine

open Token

variable {line : String}

/-- A line that does not start with an apostrophe is cut at the first outer one. -/
theorem stripComment_eq_beforeComment (code : line.toList.head? ≠ some apostrophe) :
    stripComment line = match beforeComment false line.toList with
      | none => line
      | some kept => String.ofList (Text.dropTrailingBlanks kept) := by
  unfold stripComment
  cases chars : line.toList with
  | nil => rfl
  | cons first rest =>
    have goesOn : ¬ (first = apostrophe ∧ false = false) := by
      rintro ⟨rfl, -⟩
      exact code (by rw [chars]; rfl)
    have behind : (first == quoteChar) = if first = quoteChar then !false else false := by
      by_cases isQuote : first = quoteChar <;> simp [isQuote]
    rw [beforeComment_cons rest goesOn, ← behind]
    simp only
    cases beforeComment (first == quoteChar) rest <;> rfl

/-- The two ways to strip a line: all its apostrophes are in literals and it is left as it is,
or it is cut at the first that is not. -/
theorem stripComment_standing (code : line.toList.head? ≠ some apostrophe) :
    (∀ quoted ∈ apostropheStanding false line.toList, quoted = true) ∧ stripComment line = line ∨
      ∃ before after, line.toList = before ++ apostrophe :: after ∧
        (∀ quoted ∈ apostropheStanding false before, quoted = true) ∧
        openAfter false before = false ∧
        stripComment line = String.ofList (Text.dropTrailingBlanks before) := by
  have spec := beforeComment_spec false line.toList
  have strips := stripComment_eq_beforeComment code
  cases cut : beforeComment false line.toList with
  | none =>
    rw [cut] at spec strips
    exact .inl ⟨(apostropheStanding_all_iff false _).mpr spec, strips⟩
  | some before =>
    rw [cut] at spec strips
    obtain ⟨first, after, whole, even⟩ := spec
    refine .inr ⟨before, after, whole, (apostropheStanding_all_iff false _).mpr first, ?_, strips⟩
    rw [openAfter_eq, even]
    rfl

/-- What is left of a line has all its apostrophes in literals. -/
theorem standing_stripComment (code : line.toList.head? ≠ some apostrophe) :
    ∀ quoted ∈ apostropheStanding false (stripComment line).toList, quoted = true := by
  rcases stripComment_standing code with ⟨all, same⟩ | ⟨before, after, -, all, -, strips⟩
  · rwa [same]
  · rw [← Text.dropTrailingBlanks_append before, apostropheStanding_append,
      List.forall_mem_append] at all
    rw [strips, String.toList_ofList]
    exact all.1

/-- A line whose apostrophes are all in literals is left as it is. -/
theorem stripComment_of_standing (code : line.toList.head? ≠ some apostrophe)
    (all : ∀ quoted ∈ apostropheStanding false line.toList, quoted = true) :
    stripComment line = line := by
  rcases stripComment_standing code with ⟨-, same⟩ | ⟨before, after, whole, -, closed, -⟩
  · exact same
  · rw [whole, apostropheStanding_append, closed, List.forall_mem_append] at all
    exact absurd (all.2 false List.mem_cons_self) Bool.false_ne_true

end SourceLine

open SourceLine Token

/-- Stripping a comment and splitting into tokens agree on what is quoted. Let a trimmed line not
start with an apostrophe. Its tokens hold as many apostrophes as the line. If they are all in
literals, stripping leaves the line as it is, and otherwise what stands before the first that is
not, without blanks at the end. Stripping again changes nothing, only an empty line leaves
nothing, and the tokens of what is left have no apostrophe outside literals. -/
theorem cut_agrees_with_tokens {line : String} (trimmed : Text.Trimmed line.toList)
    (code : line.toList.head? ≠ some apostrophe) :
    (apostropheMarks (mark (split line))).length = line.toList.count apostrophe ∧
      ((∀ quoted ∈ apostropheMarks (mark (split line)), quoted = true) ∧
          stripComment line = line ∨
        ∃ before, FirstOuter line before ∧
          stripComment line = String.ofList (Text.dropTrailingBlanks before)) ∧
      stripComment (stripComment line) = stripComment line ∧
      (stripComment line = "" → line = "") ∧
      ∀ marked ∈ mark (tokenize (stripComment line)),
        marked.quoted = false → apostrophe ∉ marked.token.toList := by
  have marks := apostropheMarks_split trimmed
  have all := standing_stripComment code
  have codeLeft : (stripComment line).toList.head? ≠ some apostrophe := by
    rw [(stripComment_ending trimmed).1]
    exact code
  refine ⟨?_, ?_, stripComment_of_standing codeLeft all, ?_, ?_⟩
  · rw [marks, length_apostropheStanding]
  · rw [marks]
    refine (stripComment_standing code).imp_right ?_
    rintro ⟨before, after, whole, quoted, closed, strips⟩
    refine ⟨before, ⟨after, apostropheStanding false after, whole, ?_⟩, strips⟩
    have same : apostropheStanding false before =
        List.replicate (before.count apostrophe) true :=
      List.eq_replicate_iff.mpr ⟨length_apostropheStanding false before, quoted⟩
    rw [marks, whole, apostropheStanding_append, closed, same,
      apostropheStanding_char (by decide)]
    rfl
  · exact (stripComment_eq_empty_iff trimmed.1).mp
  · rw [← apostropheMarks_split (trimmed_stripComment trimmed)] at all
    exact fun marked member => apostrophe_not_mem_of_all all marked (mem_mark_split member)

/-- The doubled quote stays in the literal with the first apostrophe, and a literal that is never
closed holds the last. -/
theorem cut_agrees_with_tokens_doubled :
    let line := "s = \"a\"\"'b\" 'c \"d'"
    Text.Trimmed line.toList ∧ line.toList.head? ≠ some apostrophe ∧
      apostropheMarks (mark (split line)) = [true, false, true] ∧
      stripComment line = "s = \"a\"\"'b\"" ∧
      stripComment (stripComment line) = stripComment line := by
  intro line
  have trimmed : Text.Trimmed line.toList := by decide +kernel
  have code : line.toList.head? ≠ some apostrophe := by decide +kernel
  exact ⟨trimmed, code, by decide +kernel, by decide +kernel,
    (cut_agrees_with_tokens trimmed code).2.2.1⟩

end BasicToSharp
