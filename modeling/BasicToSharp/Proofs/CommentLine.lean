import BasicToSharp.Proofs.RuleAgreement

/-!
# Comment lines

A source line that starts with an apostrophe, once trimmed, is a comment as a whole. It is
prepared like every other line, and so loses what follows a later apostrophe that is
outside literals, where a double quote counts as opening or closing a literal even in a
comment. What is left is written behind two slashes as one line.

A comment survives exactly when its text holds no such apostrophe. The main statement says
for every comment line of a source what becomes of it, and when that is the whole of it.
-/

namespace BasicToSharp

open Token (quoteChar apostrophe)

/-- The characters hold an apostrophe with evenly many double quotes before it, counted
from inside a literal or outside one. -/
def OuterApostropheFrom (inside : Bool) (chars : List Char) : Prop :=
  ∃ before after, chars = before ++ apostrophe :: after ∧
    (inside.toNat + before.count quoteChar) % 2 = 0

/-- The characters hold an apostrophe with evenly many double quotes before it. -/
def OuterApostrophe (chars : List Char) : Prop :=
  ∃ before after, chars = before ++ apostrophe :: after ∧ before.count quoteChar % 2 = 0

section Cut

/-- No text has no apostrophe. -/
theorem not_outerApostropheFrom_nil (inside : Bool) : ¬ OuterApostropheFrom inside [] := by
  rintro ⟨before, after, split, -⟩
  simp at split

/-- A quote turns the count of quotes around, and every other character keeps it. -/
theorem quoteParity_cons (inside : Bool) (c : Char) (before : List Char) :
    (inside.toNat + (c :: before).count quoteChar) % 2 =
      ((if c = quoteChar then !inside else inside).toNat + before.count quoteChar) % 2 := by
  by_cases isQuote : c = quoteChar
  · cases inside <;> simp [isQuote] <;> omega
  · simp [isQuote]

/-- An outer apostrophe is looked for one character at a time. -/
theorem outerApostropheFrom_cons (inside : Bool) (c : Char) (rest : List Char) :
    OuterApostropheFrom inside (c :: rest) ↔
      (c = apostrophe ∧ inside = false) ∨
        OuterApostropheFrom (if c = quoteChar then !inside else inside) rest := by
  constructor
  · rintro ⟨before, after, split, even⟩
    cases before with
    | nil =>
      obtain ⟨rfl, rfl⟩ := List.cons.inj split
      exact .inl ⟨rfl, by cases inside <;> simp_all⟩
    | cons first before =>
      obtain ⟨rfl, rfl⟩ := List.cons.inj split
      rw [quoteParity_cons] at even
      exact .inr ⟨before, after, rfl, even⟩
  · rintro (⟨rfl, rfl⟩ | ⟨before, after, rfl, even⟩)
    · exact ⟨[], rest, rfl, rfl⟩
    · rw [← quoteParity_cons] at even
      exact ⟨c :: before, after, rfl, even⟩

namespace SourceLine

/-- A character that starts no comment stands before it. -/
theorem beforeComment_cons {inside : Bool} {c : Char} (rest : List Char)
    (goesOn : ¬ (c = apostrophe ∧ inside = false)) :
    beforeComment inside (c :: rest) =
      (beforeComment (if c = quoteChar then !inside else inside) rest).map (c :: ·) := by
  by_cases isQuote : c = quoteChar
  · simp [beforeComment, isQuote]
  · simp [beforeComment, isQuote, goesOn]

/-- The cut falls at the first outer apostrophe; without one there is no cut. -/
theorem beforeComment_spec (inside : Bool) (chars : List Char) :
    match beforeComment inside chars with
    | some kept => ¬ OuterApostropheFrom inside kept ∧ ∃ after,
        chars = kept ++ apostrophe :: after ∧ (inside.toNat + kept.count quoteChar) % 2 = 0
    | none => ¬ OuterApostropheFrom inside chars := by
  induction chars generalizing inside with
  | nil => exact not_outerApostropheFrom_nil inside
  | cons c rest inductionHypothesis =>
    by_cases stops : c = apostrophe ∧ inside = false
    · obtain ⟨rfl, rfl⟩ := stops
      exact ⟨not_outerApostropheFrom_nil false, rest, rfl, rfl⟩
    · have later := inductionHypothesis (if c = quoteChar then !inside else inside)
      rw [beforeComment_cons rest stops]
      cases cut : beforeComment (if c = quoteChar then !inside else inside) rest with
      | none =>
        simp only [cut] at later
        simp only [Option.map_none, outerApostropheFrom_cons, stops, false_or]
        exact later
      | some kept =>
        simp only [cut] at later
        obtain ⟨first, after, rfl, even⟩ := later
        simp only [Option.map_some, outerApostropheFrom_cons, stops, false_or, quoteParity_cons]
        exact ⟨first, after, rfl, even⟩

end SourceLine

/-- What is kept of the text of a comment: the whole of it, or what stands before its first
outer apostrophe, without blanks at the end. -/
def CommentKept (comment kept : List Char) : Prop :=
  ¬ OuterApostrophe comment ∧ kept = comment ∨
    ∃ before after, comment = before ++ apostrophe :: after ∧ before.count quoteChar % 2 = 0 ∧
      ¬ OuterApostrophe before ∧ kept = Text.dropTrailingBlanks before

/-- From the start on, an apostrophe is outer if an even number of quotes precedes it. -/
theorem outerApostropheFrom_false (chars : List Char) :
    OuterApostropheFrom false chars ↔ OuterApostrophe chars := by
  simp [OuterApostropheFrom, OuterApostrophe]

/-- An outer apostrophe is there exactly when the line is cut. -/
theorem outerApostrophe_iff (chars : List Char) :
    OuterApostrophe chars ↔ (SourceLine.beforeComment false chars).isSome = true := by
  have spec := SourceLine.beforeComment_spec false chars
  cases cut : SourceLine.beforeComment false chars with
  | none =>
    simp only [cut, outerApostropheFrom_false] at spec
    simp [spec]
  | some kept =>
    simp only [cut] at spec
    obtain ⟨-, after, split, even⟩ := spec
    have outer : OuterApostrophe chars := ⟨kept, after, split, by simpa using even⟩
    simp [outer]

instance (chars : List Char) : Decidable (OuterApostrophe chars) :=
  decidable_of_iff _ (outerApostrophe_iff chars).symm

/-- Dropping blanks makes a text no longer. -/
theorem length_dropTrailingBlanks_le (chars : List Char) :
    (Text.dropTrailingBlanks chars).length ≤ chars.length := by
  unfold Text.dropTrailingBlanks
  simpa using (List.dropWhile_sublist Text.isBlank (l := chars.reverse)).length_le

/-- A visible character in front is never dropped. -/
theorem dropTrailingBlanks_cons {c : Char} (chars : List Char) (visible : Text.isBlank c = false) :
    Text.dropTrailingBlanks (c :: chars) = c :: Text.dropTrailingBlanks chars := by
  unfold Text.dropTrailingBlanks
  rw [List.reverse_cons, List.dropWhile_append]
  split
  · next empty => simp [visible, List.isEmpty_iff.mp empty]
  · simp

/-- A comment is kept whole exactly when it holds no outer apostrophe. -/
theorem CommentKept.eq_iff {comment kept : List Char} (keeps : CommentKept comment kept) :
    kept = comment ↔ ¬ OuterApostrophe comment := by
  rcases keeps with ⟨whole, rfl⟩ | ⟨before, after, rfl, even, -, rfl⟩
  · simp [whole]
  · constructor
    · intro same
      have short := length_dropTrailingBlanks_le before
      rw [same] at short
      simp only [List.length_append, List.length_cons] at short
      omega
    · intro none
      exact absurd ⟨before, after, rfl, even⟩ none

namespace SourceLine

variable {text : String} {comment : List Char}

/-- Stripping keeps the apostrophe of a comment line and what is kept of its text. -/
theorem stripComment_comment (isComment : text.toList = apostrophe :: comment) :
    ∃ kept, CommentKept comment kept ∧ stripComment text = String.ofList (apostrophe :: kept) := by
  have spec := beforeComment_spec false comment
  have start : (apostrophe == quoteChar) = false := by decide
  unfold stripComment
  rw [isComment]
  simp only [start]
  cases cut : beforeComment false comment with
  | none =>
    simp only [cut, outerApostropheFrom_false] at spec
    refine ⟨comment, .inl ⟨spec, rfl⟩, ?_⟩
    rw [← isComment, String.ofList_toList]
  | some before =>
    simp only [cut, outerApostropheFrom_false] at spec
    obtain ⟨first, after, rfl, even⟩ := spec
    refine ⟨_, .inr ⟨before, after, rfl, by simpa using even, first, rfl⟩, ?_⟩
    simp only [dropTrailingBlanks_cons before (by decide : Text.isBlank apostrophe = false)]

/-- A line that starts with an apostrophe declares nothing. -/
theorem startsWithDim_comment (isComment : text.toList = apostrophe :: comment) :
    startsWithDim text = false := by
  have visible : Text.isBlank apostrophe = false := by decide
  have differs : apostrophe.toLower ≠ 'd' := by decide
  simp [startsWithDim, Text.firstWord, isComment, visible, Token.isKeyword,
    Text.sameIgnoringCase, differs]

/-- A comment line is prepared as one line, with its own comments stripped. -/
theorem prepareLine_comment (split : Bool) {line : String}
    (isComment : (Text.trim line).toList = apostrophe :: comment) :
    prepareLine split line = [stripComment (Text.trim line)] := by
  obtain ⟨kept, -, stripped⟩ := stripComment_comment isComment
  have noDim : startsWithDim (stripComment (Text.trim line)) = false :=
    startsWithDim_comment (by rw [stripped, String.toList_ofList])
  simp [prepareLine, noDim]

/-- The prepared texts of a source line stand together, under its number. -/
theorem prepareFrom_split {lines : List String} {index : Nat} {line : String} (split : Bool)
    (number : Nat) (present : lines[index]? = some line) :
    ∃ before after, prepareFrom split number lines =
      before ++ (prepareLine split line).map (fun text => ⟨number + index, text⟩) ++ after := by
  induction lines generalizing number index with
  | nil => simp at present
  | cons first rest inductionHypothesis =>
    cases index with
    | zero =>
      obtain rfl : first = line := by simpa using present
      exact ⟨[], prepareFrom split (number + 1) rest, rfl⟩
    | succ index =>
      obtain ⟨before, after, same⟩ := inductionHypothesis (number + 1) (by simpa using present)
      refine ⟨(prepareLine split first).map (fun text => ⟨number, text⟩) ++ before, after, ?_⟩
      have next : number + 1 + index = number + (index + 1) := by omega
      simp [prepareFrom, same, next, List.append_assoc]

end SourceLine

end Cut

section Statement

variable {text : String} {rest : List Char}

namespace Token

/-- The characters of a run, first one first. -/
def Run.chars : Run → List Char
  | .none => []
  | .operator reversed => reversed.reverse
  | .word reversed => reversed.reverse

/-- A character ends an open run, or the run stays open and keeps its characters. -/
theorem Run.extend_of_ne_none {run : Run} (isOpen : run ≠ .none) (c : Char) :
    (∃ more, (run.extend c).1 = String.ofList run.chars :: more) ∨
      (run.extend c).1 = [] ∧ (run.extend c).2 ≠ .none ∧ run.chars <+: (run.extend c).2.chars := by
  cases kind : CharClass.of c <;> cases run <;>
    simp_all [Run.extend, Run.tokens, Run.chars]

/-- A run that is open gives one token, its characters. -/
theorem Run.tokens_of_ne_none {run : Run} (isOpen : run ≠ .none) :
    run.tokens = [String.ofList run.chars] := by
  cases run with
  | none => exact absurd rfl isOpen
  | operator reversed => rfl
  | word reversed => rfl

/-- A scan with an open run gives a token that starts with the run. -/
theorem scan_of_ne_none {run : Run} (isOpen : run ≠ .none) (chars : List Char) :
    ∃ token more, scan (.code run) chars = token :: more ∧ run.chars <+: token.toList := by
  induction chars generalizing run with
  | nil => exact ⟨_, [], Run.tokens_of_ne_none isOpen, by simp⟩
  | cons c rest inductionHypothesis =>
    unfold scan
    split
    · rw [Run.tokens_of_ne_none isOpen]
      exact ⟨_, _, rfl, by simp⟩
    · simp only
      rcases Run.extend_of_ne_none isOpen (if Text.isBlank c then ' ' else c) with
        ⟨more, finished⟩ | ⟨finished, stillOpen, starts⟩
      · rw [finished]
        exact ⟨_, _, rfl, by simp⟩
      · obtain ⟨token, more, same, startsToken⟩ := inductionHypothesis stillOpen
        rw [finished, List.nil_append]
        exact ⟨token, more, same, starts.trans startsToken⟩

end Token

/-- A line that starts with an apostrophe has a token. -/
theorem Token.tokenize_comment (isComment : text.toList = apostrophe :: rest) :
    tokenize text ≠ [] := by
  have visible : Text.isBlank apostrophe = false := by decide
  obtain ⟨token, more, scanned, starts⟩ :=
    @scan_of_ne_none (.operator [apostrophe]) nofun (Text.dropTrailingBlanks rest)
  have member : apostrophe ∈ token.toList := starts.subset (by simp [Run.chars])
  have whole : split text = token :: more := by
    have trimmed : Text.trimBlanks text.toList = apostrophe :: Text.dropTrailingBlanks rest := by
      simp [Text.trimBlanks, isComment, visible, dropTrailingBlanks_cons]
    have opens : (Run.none).extend apostrophe = ([], .operator [apostrophe]) := by decide
    have plain : apostrophe ≠ '\x22' := by decide
    simpa [split, trimmed, scan, visible, opens, plain] using scanned
  have plain : token ≠ quote := by
    rintro rfl
    exact absurd member (by decide)
  have kept : ¬ ∀ c ∈ token.toList, Text.isBlank c = true := by
    intro blank
    exact absurd (blank apostrophe member) (by simp [visible])
  simp [tokenize, dropBlanks, whole, mark, markFrom, plain, kept]

/-- A comment line is not blank. -/
theorem lineTokens_comment (isComment : text.toList = apostrophe :: rest) :
    lineTokens text ≠ [] := by
  unfold lineTokens Token.concatenations Token.mark
  obtain ⟨token, more, filled⟩ := List.exists_cons_of_ne_nil (Token.tokenize_comment isComment)
  rw [filled]
  unfold Token.markFrom
  split <;> simp [Token.joinAmpersands]

/-- A line that starts with an apostrophe is a comment. -/
theorem lineStatement_comment (isComment : text.toList = apostrophe :: rest) :
    lineStatement text = .comment := by
  have filled := lineTokens_comment isComment
  simp [lineStatement, Statement.classify, Statement.isComment, filled, isComment]

/-- A comment line adds one line and nothing else. -/
theorem Draft.convertLine_comment (draft : Draft) (isComment : text.toList = apostrophe :: rest) :
    draft.convertLine text = .ok (draft.emit ("//" ++ String.ofList rest)) := by
  apply convertLine_accepted
  rw [lineStatement_comment isComment]
  simp [Statement.rule, commentLine, isComment]

end Statement

/-- What becomes of a comment line. Let a line of a source, once trimmed, be an apostrophe
and a text. It is prepared as one line, which is the apostrophe and what is kept of the
text; when the conversion comes to it, it writes two slashes and what is kept, as one line,
and changes nothing else. The prepared line is the trimmed line, and what is kept is the
whole text, exactly when the text holds no apostrophe with evenly many double quotes
before it. -/
theorem comment_line_ends_at_outer_apostrophe (source : String) (options : Options)
    {index : Nat} {line : String} {comment : List Char}
    (present : (Text.lines source)[index]? = some line)
    (isComment : (Text.trim line).toList = apostrophe :: comment) :
    ∃ (kept : List Char) (before after : List SourceLine) (reached : Draft),
      CommentKept comment kept ∧ (kept = comment ↔ ¬ OuterApostrophe comment) ∧
      SourceLine.stripComment (Text.trim line) = String.ofList (apostrophe :: kept) ∧
      (SourceLine.stripComment (Text.trim line) = Text.trim line ↔ ¬ OuterApostrophe comment) ∧
      SourceLine.prepare source options.splitDeclarations =
        before ++ ⟨index + 1, SourceLine.stripComment (Text.trim line)⟩ :: after ∧
      (Draft.start options (SourceLine.prepare source options.splitDeclarations)).convertFrom 0
        before = .ok reached ∧
      (Draft.start options (SourceLine.prepare source options.splitDeclarations)).convertFrom 0
          (SourceLine.prepare source options.splitDeclarations) =
        ((reached.moveTo before.length
          ⟨index + 1, SourceLine.stripComment (Text.trim line)⟩).emit
            ("//" ++ String.ofList kept)).convertFrom (before.length + 1) after := by
  obtain ⟨kept, keeps, stripped⟩ := SourceLine.stripComment_comment isComment
  obtain ⟨before, after, prepared⟩ :=
    SourceLine.prepareFrom_split options.splitDeclarations 1 present
  rw [SourceLine.prepareLine_comment _ isComment, Nat.add_comm 1 index] at prepared
  simp only [List.map_cons, List.map_nil, List.append_assoc, List.singleton_append] at prepared
  have prepared : SourceLine.prepare source options.splitDeclarations =
      before ++ ⟨index + 1, SourceLine.stripComment (Text.trim line)⟩ :: after := prepared
  obtain ⟨reached, converted⟩ := Draft.convertFrom_ok
    (Draft.start options (SourceLine.prepare source options.splitDeclarations)) 0 before
  have unchanged : SourceLine.stripComment (Text.trim line) = Text.trim line ↔ kept = comment := by
    rw [stripped, ← String.ofList_toList (s := Text.trim line), isComment, String.ofList_inj]
    simp
  refine ⟨kept, before, after, reached, keeps, keeps.eq_iff, stripped,
    unchanged.trans keeps.eq_iff, prepared, converted, ?_⟩
  have emitted := (reached.moveTo before.length
    ⟨index + 1, SourceLine.stripComment (Text.trim line)⟩).convertLine_comment
    (show (SourceLine.stripComment (Text.trim line)).toList = apostrophe :: kept by
      rw [stripped, String.toList_ofList])
  have run := Draft.convertFrom_append
    (⟨index + 1, SourceLine.stripComment (Text.trim line)⟩ :: after) converted
  rw [← prepared, Nat.zero_add] at run
  rw [run]
  simp only [Draft.convertFrom, emitted]

/-- An apostrophe between two double quotes does not end a comment. -/
theorem comment_line_keeps_quoted_apostrophe :
    (Text.lines "x = 1\n' say \"it's\"")[1]? = some "' say \"it's\"" ∧
      ¬ OuterApostrophe " say \"it's\"".toList ∧
      SourceLine.stripComment "' say \"it's\"" = "' say \"it's\"" ∧
      ∃ (before after : List SourceLine) (reached : Draft),
        (Draft.start {} (SourceLine.prepare "x = 1\n' say \"it's\"" true)).convertFrom 0
            (SourceLine.prepare "x = 1\n' say \"it's\"" true) =
          ((reached.moveTo before.length ⟨2, "' say \"it's\""⟩).emit
            "// say \"it's\"").convertFrom (before.length + 1) after := by
  have present : (Text.lines "x = 1\n' say \"it's\"")[1]? = some "' say \"it's\"" := by
    decide +kernel
  have whole : ¬ OuterApostrophe " say \"it's\"".toList := by decide +kernel
  have isComment : (Text.trim "' say \"it's\"").toList =
      Token.apostrophe :: " say \"it's\"".toList := by decide +kernel
  obtain ⟨kept, before, after, reached, -, keeps, -, strips, -, -, run⟩ :=
    comment_line_ends_at_outer_apostrophe "x = 1\n' say \"it's\"" {} present isComment
  have trimmed : Text.trim "' say \"it's\"" = "' say \"it's\"" := by decide +kernel
  rw [keeps.mpr whole, strips.mpr whole, trimmed] at run
  rw [trimmed] at strips
  exact ⟨present, whole, strips.mpr whole, before, after, reached, run⟩

/-- An apostrophe that no double quote stands before ends a comment: the rest is lost. -/
theorem comment_line_loses_text_behind_apostrophe :
    SourceLine.stripComment "' it's" = "' it" ∧
      (convert "' it's" {}).toOption = some ⟨["// it"], []⟩ ∧ OuterApostrophe " it's".toList := by
  decide +kernel

end BasicToSharp
