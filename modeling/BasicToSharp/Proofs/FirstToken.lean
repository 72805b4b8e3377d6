import BasicToSharp.Proofs.BlankRuns

/-!
# Where a line starts

Whether a line is a comment is seen at its start: at its first character or at its first
token. Characters that belong to no token are dropped, so the first token need not start with
the first character; but it starts with the first character that is kept, and if it is a word
it does not depend on what ends it.

A line and what is left of it without its trailing comment therefore agree on being a comment.
The cut falls at an apostrophe, and blanks before that go too; either of them ends a word.
-/

namespace BasicToSharp

open Token (quoteChar apostrophe)
open Text (isBlank)

section FirstToken

namespace Token

variable {c : Char} {rest : List Char}

/-- A basic letter is a visible word character. -/
theorem CharClass.of_letter (lower : c.toLower.isLower = true) :
    CharClass.of c = .word ∧ isBlank c = false := by
  have basic : c.toNat < 128 := by
    by_cases capital : c.val ≥ 'A'.val ∧ c.val ≤ 'Z'.val
    · have high : c.toNat ≤ 90 := UInt32.le_iff_toNat_le.mp capital.2
      omega
    · have unchanged : c.toLower = c := dif_neg capital
      have bounds : (decide (c.val ≥ 'a'.val) && decide (c.val ≤ 'z'.val)) = true :=
        unchanged ▸ lower
      rw [Bool.and_eq_true, decide_eq_true_eq, decide_eq_true_eq] at bounds
      have high : c.toNat ≤ 122 := UInt32.le_iff_toNat_le.mp bounds.2
      omega
  have letters : ∀ n < 128, (Char.ofNat n).toLower.isLower = true →
      CharClass.of (Char.ofNat n) = .word ∧ isBlank (Char.ofNat n) = false := by decide +kernel
  have here := letters c.toNat basic
  rw [Char.ofNat_toNat] at here
  exact here lower

/-- A token that starts visibly outside literals is kept, without its blanks. -/
theorem dropBlanksFrom_visible {token : Token} {chars : List Char}
    (starts : token.toList = c :: chars) (visible : isBlank c = false) (other : c ≠ quoteChar)
    (more : List Token) :
    dropBlanksFrom false (token :: more) =
      String.ofList (c :: chars.filter (!isBlank ·)) :: dropBlanksFrom false more := by
  have plain : token ≠ quote := by
    rintro rfl
    exact other (List.cons.inj starts).1.symm
  simp [dropBlanksFrom, markFrom, plain, Marked.kept, starts, visible]

/-- The first token of a line. -/
def firstToken (chars : List Char) : Token :=
  tokenAt (dropBlanksFrom false (scan (.code .none) chars)) 0

/-- A run that is started by a visible character gives the first token. -/
theorem firstToken_of_extend {run : Run} (visible : isBlank c = false) (other : c ≠ quoteChar)
    (extended : (Run.none).extend c = ([], run)) (isOpen : run ≠ .none) (same : run.chars = [c]) :
    ∃ more, (firstToken (c :: rest)).toList = c :: more := by
  obtain ⟨token, more, scanned, starts⟩ := scan_of_ne_none isOpen rest
  rw [same] at starts
  obtain ⟨tail, starts⟩ := starts
  rw [firstToken, scan_code _ other, visible, if_neg (by simp), extended, List.nil_append, scanned,
    dropBlanksFrom_visible starts.symm visible other]
  exact ⟨_, String.toList_ofList⟩

/-- The first token of a line starts with its first character, unless that is dropped. -/
theorem firstToken_starts (visible : isBlank c = false) (kept : CharClass.of c ≠ .stray)
    (rest : List Char) : ∃ more, (firstToken (c :: rest)).toList = c :: more := by
  by_cases isQuote : c = quoteChar
  · subst isQuote
    have opens : scan (.code .none) (quoteChar :: rest) = quote :: scan (.literal []) rest := rfl
    rw [firstToken, opens, dropBlanksFrom_quote]
    exact ⟨[], show quote.toList = _ by decide⟩
  · cases kind : CharClass.of c with
    | operator =>
      exact firstToken_of_extend visible isQuote
        (show (Run.none).extend c = ([], .operator [c]) by simp [Run.extend, kind, Run.tokens])
        (by rintro ⟨⟩) rfl
    | word =>
      exact firstToken_of_extend visible isQuote
        (show (Run.none).extend c = ([], .word [c]) by simp [Run.extend, kind, Run.tokens])
        (by rintro ⟨⟩) rfl
    | grouping =>
      have extended : (Run.none).extend c = ([String.singleton c], .none) := by
        simp [Run.extend, kind, Run.tokens]
      rw [firstToken, scan_code _ isQuote, visible, if_neg (by simp), extended,
        List.singleton_append,
        dropBlanksFrom_visible (String.toList_singleton c) visible isQuote]
      exact ⟨_, String.toList_ofList⟩
    | stray => exact absurd kind kept

/-- Characters that end a word, if there are any: they start with a blank or an apostrophe. -/
def EndsWord (ending : List Char) : Prop :=
  ∀ c, ending.head? = some c → isBlank c = true ∨ c = apostrophe

variable {ending : List Char}

/-- What ends a word leaves it as the next token. -/
theorem scan_word_ending (ends : EndsWord ending) (reversed : List Char) :
    (scan (.code (.word reversed)) ending).head? = some (String.ofList reversed.reverse) := by
  cases ending with
  | nil => rfl
  | cons c rest =>
    rcases ends c rfl with blank | rfl
    · rw [scan_code _ (Text.ne_of_isBlank blank (by decide)), blank, if_pos rfl, Run.extend_space]
      rfl
    · have kind : CharClass.of apostrophe = .operator := by decide
      have visible : isBlank apostrophe = false := by decide
      rw [scan_code _ (by decide), visible, if_neg (by simp)]
      simp [Run.extend, kind, Run.tokens]

/-- An open word is completed within the characters, whatever ends it. -/
theorem scan_word_append (ends : EndsWord ending) (reversed chars : List Char) :
    (scan (.code (.word reversed)) (chars ++ ending)).head? =
      (scan (.code (.word reversed)) chars).head? := by
  induction chars generalizing reversed with
  | nil => exact scan_word_ending ends reversed
  | cons c rest inductionHypothesis =>
    by_cases isQuote : c = quoteChar
    · subst isQuote
      rfl
    · rw [List.cons_append, scan_code _ isQuote, scan_code _ isQuote]
      generalize (if isBlank c then ' ' else c) = read
      cases kind : CharClass.of read with
      | operator => simp [Run.extend, kind, Run.tokens]
      | word => simpa [Run.extend, kind] using inductionHypothesis (read :: reversed)
      | grouping => simp [Run.extend, kind, Run.tokens]
      | stray => simpa [Run.extend, kind] using inductionHypothesis reversed

/-- What starts a keyword is the keyword's first letter. -/
theorem toLower_of_isKeyword {token : Token} {keyword : String} {letter : Char}
    {chars letters : List Char} (starts : token.toList = c :: chars)
    (spelled : keyword.toList.map Char.toLower = letter :: letters)
    (isKeyword : isKeyword token keyword = true) : c.toLower = letter := by
  rw [Token.isKeyword, Text.sameIgnoringCase, starts, spelled, beq_iff_eq] at isKeyword
  exact (List.cons.inj isKeyword).1

/-- The first word does not depend on what ends it. -/
theorem firstToken_word_append (ends : EndsWord ending) (visible : isBlank c = false)
    (kind : CharClass.of c = .word) (rest : List Char) :
    firstToken (c :: rest ++ ending) = firstToken (c :: rest) := by
  have other : c ≠ quoteChar := by
    rintro rfl
    exact absurd kind (by decide)
  have opens : ∀ rest, scan (.code .none) (c :: rest) = scan (.code (.word [c])) rest := by
    intro rest
    rw [scan_code _ other, visible, if_neg (by simp)]
    simp [Run.extend, kind, Run.tokens]
  have same := scan_word_append ends [c] rest
  obtain ⟨token, more, scanned, tail, starts⟩ := @scan_of_ne_none (.word [c]) (by rintro ⟨⟩) rest
  rw [scanned, List.head?_cons, List.head?_eq_some_iff] at same
  obtain ⟨more', scanned'⟩ := same
  rw [firstToken, firstToken, List.cons_append, opens, opens, scanned, scanned',
    dropBlanksFrom_visible starts.symm visible other,
    dropBlanksFrom_visible starts.symm visible other]
  rfl

/-- Blanks and stray characters in front are no part of the first token. -/
theorem firstToken_dropped (dropped : isBlank c = true ∨ CharClass.of c = .stray)
    (rest : List Char) : firstToken (c :: rest) = firstToken rest := by
  have other : c ≠ quoteChar := by
    rintro rfl
    exact absurd dropped (by decide)
  rw [firstToken, scan_code _ other, firstToken]
  cases blank : isBlank c with
  | true =>
    rw [if_pos rfl, Run.extend_space]
    exact congrArg (tokenAt · 0) (dropBlanksFrom_space _)
  | false =>
    have kind : CharClass.of c = .stray := by simpa [blank] using dropped
    simp [Run.extend, kind]

/-- A line that starts with the word `Rem` does so with an ending put behind it. -/
theorem firstToken_append (ends : EndsWord ending) {chars : List Char}
    (isRem : isKeyword (firstToken chars) "rem" = true) :
    firstToken (chars ++ ending) = firstToken chars := by
  induction chars with
  | nil => cases isRem
  | cons c rest inductionHypothesis =>
    by_cases dropped : isBlank c = true ∨ CharClass.of c = .stray
    · rw [firstToken_dropped dropped] at isRem
      rw [List.cons_append, firstToken_dropped dropped, firstToken_dropped dropped,
        inductionHypothesis isRem]
    · rw [not_or, Bool.not_eq_true] at dropped
      obtain ⟨more, starts⟩ := firstToken_starts dropped.1 dropped.2 rest
      have letter : c.toLower = 'r' := toLower_of_isKeyword starts rfl isRem
      have kind := (CharClass.of_letter (by rw [letter]; decide)).1
      exact firstToken_word_append ends dropped.1 kind rest

end Token

end FirstToken

section Trimmed

namespace Text

/-- True of characters that do not start with a blank. -/
def StartsVisible (chars : List Char) : Prop :=
  ∀ c, chars.head? = some c → isBlank c = false

/-- The first word of a text that starts visibly reaches to its first blank. -/
theorem firstWord_of_startsVisible {text : String} (visible : StartsVisible text.toList) :
    firstWord text = String.ofList (text.toList.takeWhile (!isBlank ·)) := by
  unfold firstWord
  cases chars : text.toList with
  | nil => rfl
  | cons c rest =>
    have seen : isBlank c = false := visible c (by rw [chars]; rfl)
    rw [List.dropWhile_cons_of_neg (by simp [seen])]

/-- Squeezing keeps the first character of a text, unless that is a blank. -/
theorem head?_squeeze {text : String} (visible : StartsVisible text.toList) :
    (squeeze text).toList.head? = text.toList.head? := by
  rw [toList_squeeze]
  cases chars : text.toList with
  | nil => rfl
  | cons c rest =>
    rw [squeezeFrom_kept (by simp [visible c (by rw [chars]; rfl)])]
    rfl

/-- True of characters with no blank at either end. -/
def Trimmed (chars : List Char) : Prop :=
  StartsVisible chars ∧ dropTrailingBlanks chars = chars

variable {chars : List Char}

/-- A trimmed text is not changed by trimming. -/
theorem Trimmed.trimBlanks_eq (trimmed : Trimmed chars) : trimBlanks chars = chars := by
  cases chars with
  | nil => rfl
  | cons c rest =>
    have visible := trimmed.1 c rfl
    rw [trimBlanks, List.dropWhile_cons_of_neg (by simp [visible]), trimmed.2]

/-- A text that starts visibly is trimmed by dropping the blanks at its end. -/
theorem trimmed_dropTrailingBlanks (visible : StartsVisible chars) :
    Trimmed (dropTrailingBlanks chars) := by
  refine ⟨?_, List.rdropWhile_idempotent isBlank chars⟩
  cases chars with
  | nil => exact visible
  | cons c rest =>
    rw [dropTrailingBlanks_cons rest (visible c rfl)]
    exact visible

/-- True of characters that do not end with a blank. -/
def EndsVisible (chars : List Char) : Prop :=
  ∀ c, chars.getLast? = some c → isBlank c = false

/-- There are no blanks to drop exactly if the end is visible. -/
theorem dropTrailingBlanks_eq_self : dropTrailingBlanks chars = chars ↔ EndsVisible chars := by
  constructor
  · intro same c last
    obtain ⟨nonempty, rfl⟩ := List.mem_getLast?_eq_getLast last
    simpa using List.rdropWhile_eq_self_iff.mp same nonempty
  · intro visible
    refine List.rdropWhile_eq_self_iff.mpr fun nonempty => ?_
    simp [visible _ (List.getLast?_eq_some_getLast nonempty)]

/-- The end of a whole is that of its last part. -/
theorem EndsVisible.of_append {first second : List Char} (visible : EndsVisible (first ++ second)) :
    EndsVisible second := by
  intro c last
  exact visible c (by rw [List.getLast?_append, last, Option.some_or])

/-- Two parts that end visibly make a whole that does. -/
theorem EndsVisible.append {first second : List Char} (visible : EndsVisible first)
    (more : EndsVisible second) : EndsVisible (first ++ second) := by
  intro c last
  rw [List.getLast?_append, Option.or_eq_some_iff] at last
  rcases last with inSecond | ⟨-, inFirst⟩
  · exact more c inSecond
  · exact visible c inFirst

/-- A last part that is not empty decides about the end. -/
theorem EndsVisible.append_of_ne_nil {second : List Char} (visible : EndsVisible second)
    (nonempty : second ≠ []) (first : List Char) : EndsVisible (first ++ second) := by
  intro c last
  rw [List.getLast?_append_of_ne_nil _ nonempty] at last
  exact visible c last

/-- What stands behind the first character ends as the whole does. -/
theorem EndsVisible.of_cons {c : Char} {rest : List Char} (visible : EndsVisible (c :: rest)) :
    EndsVisible rest :=
  EndsVisible.of_append (show EndsVisible ([c] ++ rest) from visible)

/-- A first part that is not empty decides about the start. -/
theorem StartsVisible.append {first : List Char} (visible : StartsVisible first)
    (nonempty : first ≠ []) (second : List Char) : StartsVisible (first ++ second) := by
  intro c isFirst
  rw [List.head?_append_of_ne_nil _ nonempty] at isFirst
  exact visible c isFirst

/-- A text is trimmed if both its ends are visible. -/
theorem trimmed_iff : Trimmed chars ↔ StartsVisible chars ∧ EndsVisible chars :=
  and_congr_right fun _ => dropTrailingBlanks_eq_self

instance (chars : List Char) : Decidable (StartsVisible chars) :=
  decidable_of_iff (chars.head?.all (!isBlank ·) = true)
    (by simp [Option.all_eq_true, StartsVisible])

instance (chars : List Char) : Decidable (EndsVisible chars) :=
  decidable_of_iff (chars.getLast?.all (!isBlank ·) = true)
    (by simp [Option.all_eq_true, EndsVisible])

instance (chars : List Char) : Decidable (Trimmed chars) :=
  decidable_of_iff _ trimmed_iff.symm

/-- A text is what is left of it and the blanks that are dropped. -/
theorem dropTrailingBlanks_append (chars : List Char) :
    dropTrailingBlanks chars ++ chars.rtakeWhile isBlank = chars := by
  rw [dropTrailingBlanks, List.rtakeWhile, ← List.reverse_append, List.takeWhile_append_dropWhile,
    List.reverse_reverse]

/-- Trimming makes a text trimmed. -/
theorem trimmed_trim (text : String) : Trimmed (trim text).toList := by
  rw [trim, String.toList_ofList]
  apply trimmed_dropTrailingBlanks
  intro c first
  have stops := List.head?_dropWhile_not isBlank text.toList
  simpa [first] using stops

end Text

namespace SourceLine

variable {line : String}

/-- The two ways to strip a line: nothing is cut, or the cut falls behind the first
character at an apostrophe, and blanks before it go too. -/
theorem stripComment_cases (line : String) :
    stripComment line = line ∨ ∃ first kept after,
      line.toList = first :: kept ++ apostrophe :: after ∧
        (stripComment line).toList = Text.dropTrailingBlanks (first :: kept) := by
  cases chars : line.toList with
  | nil => exact .inl (by simp only [stripComment, chars])
  | cons first rest =>
    have spec := beforeComment_spec (first == quoteChar) rest
    cases cut : beforeComment (first == quoteChar) rest with
    | none => exact .inl (by simp only [stripComment, chars, cut])
    | some kept =>
      rw [cut] at spec
      obtain ⟨-, after, split, -⟩ := spec
      refine .inr ⟨first, kept, after, by rw [split]; rfl, ?_⟩
      simp only [stripComment, chars, cut, String.toList_ofList]

/-- A trimmed line without its comment is trimmed. -/
theorem trimmed_stripComment (trimmed : Text.Trimmed line.toList) :
    Text.Trimmed (stripComment line).toList := by
  rcases stripComment_cases line with same | ⟨first, kept, after, chars, stripped⟩
  · rwa [same]
  · rw [stripped]
    apply Text.trimmed_dropTrailingBlanks
    intro c isFirst
    exact trimmed.1 c (by rw [chars]; exact isFirst)

/-- Stripping a comment keeps the start of a line, and what is cut off ends a word. -/
theorem stripComment_ending (trimmed : Text.Trimmed line.toList) :
    (stripComment line).toList.head? = line.toList.head? ∧
      ∃ ending, Token.EndsWord ending ∧ line.toList = (stripComment line).toList ++ ending := by
  rcases stripComment_cases line with same | ⟨first, kept, after, chars, stripped⟩
  · exact ⟨by rw [same], [], by simp [Token.EndsWord], by simp [same]⟩
  · have visible : isBlank first = false := trimmed.1 first (by rw [chars]; rfl)
    constructor
    · rw [stripped, chars, dropTrailingBlanks_cons kept visible]
      rfl
    · refine ⟨(first :: kept).rtakeWhile isBlank ++ apostrophe :: after, ?_, ?_⟩
      · intro c isFirst
        cases blanks : (first :: kept).rtakeWhile isBlank with
        | nil =>
          rw [blanks] at isFirst
          exact .inr (Option.some.inj isFirst).symm
        | cons blank more =>
          rw [blanks] at isFirst
          obtain rfl := Option.some.inj isFirst
          exact .inl (List.mem_rtakeWhile_imp (blanks ▸ List.mem_cons_self))
      · rw [stripped, ← List.append_assoc, Text.dropTrailingBlanks_append, chars]

end SourceLine

/-- The first of the tokens of a text is its first token. -/
theorem Token.tokenAt_tokenize (text : String) :
    tokenAt (tokenize text) 0 = firstToken (Text.trimBlanks text.toList) := rfl

/-- What is left of a line without its trailing comment is a comment only if the line is. -/
theorem Statement.isComment_of_stripComment {line : String} (trimmed : Text.Trimmed line.toList)
    (comment : isComment (SourceLine.stripComment line)
      (Token.tokenize (SourceLine.stripComment line)) = true) :
    isComment line (Token.tokenize line) = true := by
  obtain ⟨first, ending, ends, whole⟩ := SourceLine.stripComment_ending trimmed
  have stripped := SourceLine.trimmed_stripComment trimmed
  rw [isComment, Bool.or_eq_true, Token.tokenAt_tokenize, stripped.trimBlanks_eq, first]
    at comment
  rw [isComment, Bool.or_eq_true, Token.tokenAt_tokenize, trimmed.trimBlanks_eq]
  refine comment.imp_right fun isRem => ?_
  rw [whole, Token.firstToken_append ends isRem]
  exact isRem

/-- Replacing ampersands makes no word and removes none. -/
theorem Token.isKeyword_concatenations (tokens : List Token) :
    isKeyword (tokenAt (concatenations tokens) 0) "rem" = isKeyword (tokenAt tokens 0) "rem" := by
  cases tokens with
  | nil => rfl
  | cons token rest =>
    obtain ⟨quoted, marked, marks⟩ :
        ∃ quoted marked, mark (token :: rest) = ⟨token, quoted⟩ :: marked := by
      unfold mark markFrom
      split <;> exact ⟨_, _, rfl⟩
    have isHead : ∀ token rest, tokenAt (token :: rest) 0 = token := fun _ _ => rfl
    rw [concatenations, marks, joinAmpersands, isHead, isHead]
    split
    · next joins =>
      simp only [Bool.and_eq_true, beq_iff_eq] at joins
      rw [joins.1.1.1.1.1.2]
      decide
    · rfl

/-- A line that is a comment statement has passed the test for comments. -/
theorem isComment_of_lineStatement {text : String} (comment : lineStatement text = .comment) :
    Statement.isComment text (Token.tokenize text) = true := by
  have form := Statement.classify_form text (lineTokens text)
  rw [show Statement.classify text (lineTokens text) = .comment from comment] at form
  have form : Statement.isComment text (lineTokens text) = true := form
  rwa [Statement.isComment, lineTokens, Token.isKeyword_concatenations] at form

end Trimmed

end BasicToSharp
