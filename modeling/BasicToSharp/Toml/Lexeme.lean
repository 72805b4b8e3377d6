import BasicToSharp.Toml.Quoted

/-!
# Lexemes of TOML

A TOML document as a list of lexemes: words, quoted texts, marks, blanks and line breaks.
Blanks are kept, because a header tells two adjacent brackets from two separate ones and a
date is joined to its time by one space. Comments are left out. A text with a character
that may not stand where it stands has no lexemes at all.
-/

namespace BasicToSharp.Toml

/-- The smallest part of a document. -/
inductive Lexeme
  /-- A run of letters, digits, underscores, signs, points and colons. -/
  | word (text : String)
  /-- A text that stood in one pair of quotes. -/
  | quoted (text : String)
  /-- A text that stood between three quotes and three. -/
  | block (text : String)
  /-- A single character that encloses, separates or assigns. -/
  | mark (char : Char)
  /-- A run of spaces and tabs. -/
  | blank (text : String)
  /-- The end of a line. -/
  | newline
  deriving DecidableEq, Repr

/-- True of a character of a key without quotes. -/
def isBare (c : Char) : Bool := c.isAlphanum || c = '_' || c = '-'

/-- True of a character of a word. -/
def isWordPart (c : Char) : Bool := isBare c || c = '+' || c = '.' || c = ':'

/-- True of a character that is a lexeme by itself. -/
def isMark (c : Char) : Bool :=
  c = '=' || c = ',' || c = '[' || c = ']' || c = '\x7b' || c = '\x7d'

/-- The quotes that a character opens. -/
def quoteOf (c : Char) : Option Quote :=
  if c = '\x22' then some .double else if c = '\x27' then some .single else none

/-- The text whose first quote has been read, as a lexeme, and what follows it. -/
def quotedLexeme (quote : Quote) (chars : List Char) : Option (Lexeme × List Char) :=
  if chars.take 2 = [quote.mark, quote.mark] then
    (longText quote [] (dropBreak (chars.drop 2))).map fun (text, rest) => (.block text, rest)
  else (shortText quote [] chars).map fun (text, rest) => (.quoted text, rest)

/-- A quoted text takes at least its closing quote away. -/
theorem quotedLexeme_shorter {quote : Quote} {chars : List Char} {lexeme : Lexeme}
    {rest : List Char} (read : quotedLexeme quote chars = some (lexeme, rest)) :
    rest.length < chars.length := by
  unfold quotedLexeme at read
  split at read
  · obtain ⟨⟨text, behind⟩, found, same⟩ := Option.map_eq_some_iff.mp read
    have shorter := longText_shorter found
    have notLonger := length_dropBreak_le (chars.drop 2)
    simp only [Prod.mk.injEq] at same
    simp only [List.length_drop] at notLonger
    rw [← same.2]
    omega
  · obtain ⟨⟨text, behind⟩, found, same⟩ := Option.map_eq_some_iff.mp read
    have shorter := shortText_shorter found
    simp only [Prod.mk.injEq] at same
    rw [← same.2]
    exact shorter

/-- The lexemes of a document. -/
def lexemes (chars : List Char) : Option (List Lexeme) :=
  match chars with
  | [] => some []
  | c :: rest =>
    if isBlank c then
      have := (List.dropWhile_sublist isBlank (l := rest)).length_le
      (lexemes (rest.dropWhile isBlank)).map
        (.blank (String.ofList (c :: rest.takeWhile isBlank)) :: ·)
    else if c = '#' then
      have := (List.dropWhile_sublist isPrintable (l := rest)).length_le
      lexemes (rest.dropWhile isPrintable)
    else if starts : startsWithBreak (c :: rest) then
      have := dropBreak_shorter starts
      (lexemes (dropBreak (c :: rest))).map (.newline :: ·)
    else if isMark c then (lexemes rest).map (.mark c :: ·)
    else if isWordPart c then
      have := (List.dropWhile_sublist isWordPart (l := rest)).length_le
      (lexemes (rest.dropWhile isWordPart)).map
        (.word (String.ofList (c :: rest.takeWhile isWordPart)) :: ·)
    else
      match quoteOf c with
      | none => none
      | some quote =>
        match found : quotedLexeme quote rest with
        | none => none
        | some (lexeme, behind) =>
          have := quotedLexeme_shorter found
          (lexemes behind).map (lexeme :: ·)
termination_by chars.length
decreasing_by all_goals simp_all <;> omega

end BasicToSharp.Toml
