/-!
# Quoted texts of TOML

A text stands in double quotes, where a backslash escapes, or in single ones, where nothing
does. One quote opens a text that ends on its line. Three open a text that may have line
breaks: a break right behind them is no part of it, a carriage return before a line feed
is dropped, and up to two quotes may stand before the closing three.
-/

namespace BasicToSharp.Toml

/-- The two kinds of quotes. -/
inductive Quote
  /-- Double quotes, between which a backslash escapes. -/
  | double
  /-- Single quotes, between which every character stands for itself. -/
  | single
  deriving DecidableEq, Repr

/-- The character that opens and closes. -/
def Quote.mark : Quote → Char
  | .double => '\x22'
  | .single => '\x27'

/-- True of a character that may stand in a comment or, but for quotes and backslashes, in a
text. -/
def isPrintable (c : Char) : Bool := c = '\t' || (0x20 ≤ c.toNat && c.toNat ≠ 0x7f)

/-- True of a character between words of a line. -/
def isBlank (c : Char) : Bool := c = ' ' || c = '\t'

/-- The value of a digit in a base up to sixteen. -/
def digitValue (c : Char) : Option Nat :=
  if c.isDigit then some (c.toNat - 48)
  else if 'a' ≤ c ∧ c ≤ 'f' then some (c.toNat - 87)
  else if 'A' ≤ c ∧ c ≤ 'F' then some (c.toNat - 55)
  else none

/-- The number that digits of a base spell, most significant first. -/
def numeral (base : Nat) (value : Nat) : List Char → Option Nat
  | [] => some value
  | c :: rest =>
    match digitValue c with
    | none => none
    | some digit => if digit < base then numeral base (base * value + digit) rest else none

/-- The character of a code point in hexadecimal digits. Surrogates and numbers beyond the
last code point are none. -/
def codePoint (digits : List Char) : Option Char :=
  match numeral 16 0 digits with
  | none => none
  | some code => if code.isValidChar then some (Char.ofNat code) else none

/-- The character for one letter behind a backslash. -/
def shortEscape (c : Char) : Option Char :=
  if c = 'b' then some '\x08'
  else if c = 't' then some '\t'
  else if c = 'n' then some '\n'
  else if c = 'f' then some '\x0c'
  else if c = 'r' then some '\r'
  else if c = '\x22' then some '\x22'
  else if c = '\\' then some '\\'
  else none

/-- The number of hexadecimal digits behind the letter of a long escape. -/
def escapeWidth (c : Char) : Option Nat :=
  if c = 'u' then some 4 else if c = 'U' then some 8 else none

/-- The character that stands behind a backslash in escaped form, and what follows it. -/
def escape : List Char → Option (Char × List Char)
  | [] => none
  | letter :: behind =>
    match escapeWidth letter with
    | some width =>
      if (behind.take width).length = width then
        (codePoint (behind.take width)).map fun char => (char, behind.drop width)
      else none
    | none => (shortEscape letter).map fun char => (char, behind)

/-- An escape takes at least its letter away. -/
theorem escape_shorter {chars : List Char} {char : Char} {rest : List Char}
    (read : escape chars = some (char, rest)) : rest.length < chars.length := by
  match chars with
  | [] => simp [escape] at read
  | letter :: behind =>
    simp only [escape] at read
    split at read
    · split at read
      · obtain ⟨found, point, same⟩ := Option.map_eq_some_iff.mp read
        have dropped := congrArg (List.length ∘ Prod.snd) same
        simp only [Function.comp, List.length_drop] at dropped
        simp only [List.length_cons]
        omega
      · simp at read
    · obtain ⟨found, point, same⟩ := Option.map_eq_some_iff.mp read
      have kept := congrArg (List.length ∘ Prod.snd) same
      simp only [Function.comp] at kept
      simp only [List.length_cons]
      omega

/-- True of a text that starts with a line break. -/
def startsWithBreak : List Char → Bool
  | '\n' :: _ => true
  | '\r' :: '\n' :: _ => true
  | _ => false

/-- What follows the line break that a text may start with. -/
def dropBreak : List Char → List Char
  | '\n' :: rest => rest
  | '\r' :: '\n' :: rest => rest
  | chars => chars

/-- What follows the blanks and line breaks that a text may start with. -/
def dropSpace : List Char → List Char
  | '\n' :: rest => dropSpace rest
  | '\r' :: '\n' :: rest => dropSpace rest
  | ' ' :: rest => dropSpace rest
  | '\t' :: rest => dropSpace rest
  | chars => chars

/-- A text that starts with a line break is shorter without it. -/
theorem dropBreak_shorter {chars : List Char} (starts : startsWithBreak chars = true) :
    (dropBreak chars).length < chars.length := by
  unfold startsWithBreak at starts
  split at starts
  · simp [dropBreak]
  · simp only [dropBreak, List.length_cons]
    omega
  · simp at starts

/-- Dropping a line break makes no text longer. -/
theorem length_dropBreak_le (chars : List Char) : (dropBreak chars).length ≤ chars.length := by
  unfold dropBreak
  split
  · simp
  · simp only [List.length_cons]
    omega
  · exact Nat.le_refl _

/-- Dropping space makes no text longer. -/
theorem length_dropSpace_le (chars : List Char) : (dropSpace chars).length ≤ chars.length := by
  fun_induction dropSpace chars <;> simp_all <;> omega

/-- Read a text up to its closing quote; `text` holds what has been read, last character
first. -/
def shortText (quote : Quote) (text chars : List Char) : Option (String × List Char) :=
  match chars with
  | [] => none
  | c :: rest =>
    if c = quote.mark then some (String.ofList text.reverse, rest)
    else if c = '\\' ∧ quote = .double then
      match found : escape rest with
      | none => none
      | some (char, behind) =>
        have := escape_shorter found
        shortText quote (char :: text) behind
    else if isPrintable c then shortText quote (c :: text) rest
    else none
termination_by chars.length
decreasing_by all_goals simp_all <;> omega

/-- Read a text up to its closing three quotes. A backslash before the end of a line takes
the break away, with all space around it. -/
def longText (quote : Quote) (text chars : List Char) : Option (String × List Char) :=
  match chars with
  | [] => none
  | c :: rest =>
    if c = quote.mark then
      let more := (rest.takeWhile (· = quote.mark)).length
      if 2 ≤ more then
        let kept := min (more - 2) 2
        some (String.ofList (List.replicate kept c ++ text).reverse, rest.drop (kept + 2))
      else longText quote (c :: text) rest
    else if c = '\\' ∧ quote = .double then
      if startsWithBreak (rest.dropWhile isBlank) then
        have := length_dropSpace_le rest
        longText quote text (dropSpace rest)
      else
        match found : escape rest with
        | none => none
        | some (char, behind) =>
          have := escape_shorter found
          longText quote (char :: text) behind
    else if starts : startsWithBreak (c :: rest) then
      have := dropBreak_shorter starts
      longText quote ('\n' :: text) (dropBreak (c :: rest))
    else if isPrintable c then longText quote (c :: text) rest
    else none
termination_by chars.length
decreasing_by all_goals simp_all <;> omega

/-- A closed text takes at least its closing quote away. -/
theorem shortText_shorter {quote : Quote} {text chars : List Char} {value : String}
    {rest : List Char} (read : shortText quote text chars = some (value, rest)) :
    rest.length < chars.length := by
  fun_induction shortText quote text chars with
  | case1 => simp at read
  | case2 => simp_all
  | case3 => simp at read
  | case4 text c behind closing escaped char after found escapeShorter hypothesis =>
    have shorter := hypothesis read
    simp only [List.length_cons]
    omega
  | case5 text c behind closing escaped printable hypothesis =>
    have shorter := hypothesis read
    simp only [List.length_cons]
    omega
  | case6 => simp at read

/-- A closed text takes at least its closing quotes away. -/
theorem longText_shorter {quote : Quote} {text chars : List Char} {value : String}
    {rest : List Char} (read : longText quote text chars = some (value, rest)) :
    rest.length < chars.length := by
  fun_induction longText quote text chars with
  | case1 => simp at read
  | case2 text behind more enough kept =>
    simp only [Option.some.injEq, Prod.mk.injEq] at read
    simp only [← read.2, List.length_drop, List.length_cons]
    omega
  | case3 text behind more few hypothesis =>
    have shorter := hypothesis read
    simp only [List.length_cons]
    omega
  | case4 text c behind closing escaped breaks notLonger hypothesis =>
    have shorter := hypothesis read
    simp only [List.length_cons]
    omega
  | case5 => simp at read
  | case6 text c behind closing escaped breaks char after found escapeShorter hypothesis =>
    have shorter := hypothesis read
    simp only [List.length_cons]
    omega
  | case7 text c behind closing escaped starts breakShorter hypothesis =>
    exact Nat.lt_trans (hypothesis read) breakShorter
  | case8 text c behind closing escaped starts printable hypothesis =>
    have shorter := hypothesis read
    simp only [List.length_cons]
    omega
  | case9 => simp at read

end BasicToSharp.Toml
