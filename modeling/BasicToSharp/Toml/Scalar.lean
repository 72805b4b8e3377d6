import BasicToSharp.Number.Literal
import BasicToSharp.Toml.Quoted
import BasicToSharp.Toml.Table

/-!
# Scalars of TOML

What a word can be as a value: a truth value, an integer of 64 bits, a number with a point
or an exponent, or a date, a time or both. An underscore may stand between two digits of a
number, a number has no leading zero, and a date is one of the calendar.
-/

namespace BasicToSharp.Toml

/-- Digits without the underscores between them. An underscore stands between two digits;
`fresh` is true where no digit stands before. -/
def joinGroups (fresh : Bool) : List Char → Option (List Char)
  | [] => if fresh then none else some []
  | c :: rest =>
    if c = '_' then if fresh then none else joinGroups true rest
    else (joinGroups false rest).map (c :: ·)

/-- The number of a non-empty run of digits in a base. -/
def groupedNumeral (base : Nat) (chars : List Char) : Option Nat :=
  (joinGroups true chars).bind (numeral base 0)

/-- A decimal number without leading zeros. -/
def plainNumeral (chars : List Char) : Option Nat :=
  if chars.head? = some '0' ∧ chars.length ≠ 1 then none else groupedNumeral 10 chars

/-- The integer that a word spells. -/
def integer (chars : List Char) : Option Int :=
  match chars with
  | '+' :: digits => (plainNumeral digits).bind fun value => Number.inRange value
  | '-' :: digits => (plainNumeral digits).bind fun value => Number.inRange (-Int.ofNat value)
  | '0' :: 'x' :: digits => (groupedNumeral 16 digits).bind fun value => Number.inRange value
  | '0' :: 'o' :: digits => (groupedNumeral 8 digits).bind fun value => Number.inRange value
  | '0' :: 'b' :: digits => (groupedNumeral 2 digits).bind fun value => Number.inRange value
  | digits => (plainNumeral digits).bind fun value => Number.inRange value

/-- What follows the sign that a number may start with. -/
def dropSign : List Char → List Char
  | '+' :: rest => rest
  | '-' :: rest => rest
  | chars => chars

/-- True of a digit and of the underscore between digits. -/
def isGroupPart (c : Char) : Bool := c.isDigit || c = '_'

/-- True of an exponent: its letter, an optional sign and digits. -/
def isExponent : List Char → Bool
  | [] => false
  | letter :: rest => (letter = 'e' || letter = 'E') && (groupedNumeral 10 (dropSign rest)).isSome

/-- True of a number with a fraction, an exponent or both. -/
def isDecimal (chars : List Char) : Bool :=
  let unsigned := dropSign chars
  (plainNumeral (unsigned.takeWhile isGroupPart)).isSome &&
    match unsigned.dropWhile isGroupPart with
    | '.' :: tail =>
      let behind := tail.dropWhile isGroupPart
      (groupedNumeral 10 (tail.takeWhile isGroupPart)).isSome &&
        (behind.isEmpty || isExponent behind)
    | rest => isExponent rest

/-- True of a number too large for a double. Only numbers above zero are ever too large;
those below run off to negative infinity. -/
def overflows (chars : List Char) : Bool :=
  match Number.readDecimal (String.ofList (chars.filter (· ≠ '_'))) with
  | none => false
  | some decimal => decimal.toBinary64 = .infinite false

/-- True of infinity and of what is no number, with or without a sign. -/
def isSpecial (chars : List Char) : Bool :=
  let unsigned := String.ofList (dropSign chars)
  unsigned = "inf" || unsigned = "nan"

/-- The number that two digits spell, and what follows them. -/
def twoDigits : List Char → Option (Nat × List Char)
  | tens :: ones :: rest =>
    if tens.isDigit && ones.isDigit then some (Number.digitsValue [tens, ones], rest) else none
  | _ => none

/-- What follows a given character. -/
def behindChar (expected : Char) : List Char → Option (List Char)
  | [] => none
  | c :: rest => if c = expected then some rest else none

/-- True of a year with a twenty-ninth of February. -/
def isLeap (year : Nat) : Bool := year % 4 = 0 && (year % 100 ≠ 0 || year % 400 = 0)

/-- The number of days of a month. -/
def daysIn (year month : Nat) : Nat :=
  if month = 2 then if isLeap year then 29 else 28
  else if month = 4 ∨ month = 6 ∨ month = 9 ∨ month = 11 then 30
  else 31

/-- What follows a date: year, month and day with dashes between them. -/
def behindDate (chars : List Char) : Option (List Char) := do
  let (century, rest) ← twoDigits chars
  let (year, rest) ← twoDigits rest
  let (month, rest) ← twoDigits (← behindChar '-' rest)
  let (day, rest) ← twoDigits (← behindChar '-' rest)
  if 1 ≤ month ∧ month ≤ 12 ∧ 1 ≤ day ∧ day ≤ daysIn (100 * century + year) month then
    return rest
  else none

/-- What follows an hour and a minute with a colon between them. -/
def behindHour (chars : List Char) : Option (List Char) := do
  let (hour, rest) ← twoDigits chars
  let (minute, rest) ← twoDigits (← behindChar ':' rest)
  if hour ≤ 23 ∧ minute ≤ 59 then return rest else none

/-- What follows a time: hour, minute and second, and a fraction of a second. A minute may
have a leap second. -/
def behindTime (chars : List Char) : Option (List Char) := do
  let (second, rest) ← twoDigits (← behindChar ':' (← behindHour chars))
  if 60 < second then none
  else
    match rest with
    | '.' :: fraction =>
      if (fraction.takeWhile Char.isDigit).isEmpty then none
      else return fraction.dropWhile Char.isDigit
    | _ => return rest

/-- True of the difference to universal time. -/
def isOffset : List Char → Bool
  | ['Z'] => true
  | ['z'] => true
  | '+' :: rest => behindHour rest = some []
  | '-' :: rest => behindHour rest = some []
  | _ => false

/-- True of a date, of a time, and of a date with a time and perhaps an offset behind it. -/
def isMoment (chars : List Char) : Bool :=
  match behindDate chars with
  | some [] => true
  | some (delimiter :: rest) =>
    (delimiter = 'T' || delimiter = 't' || delimiter = ' ') &&
      match behindTime rest with
      | none => false
      | some behind => behind.isEmpty || isOffset behind
  | none => behindTime chars = some []

/-- The value of a word. -/
def scalar (word : String) : Option Value :=
  let chars := word.toList
  if word = "true" then some (.flag true)
  else if word = "false" then some (.flag false)
  else if isMoment chars then some (.moment word)
  else if isDecimal chars then if overflows chars then none else some (.decimal word)
  else if isSpecial chars then some (.decimal word)
  else (integer chars).map .integer

example : integer "-1_0".toList = some (-10) := by decide
example : integer "0x_1".toList = none := by decide
example : integer "007".toList = none := by decide
example : isDecimal "6.26e-3_4".toList = true := by decide
example : isDecimal "1.".toList = false := by decide
example : isMoment "1979-05-27T07:32:00.5-07:00".toList = true := by decide
example : isMoment "2023-02-29".toList = false := by decide

end BasicToSharp.Toml
