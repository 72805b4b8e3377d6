/-!
# Integers of 64 bits

Integer literals are read as signed 64-bit numbers: one optional sign, then basic
digits. A number outside the range is no integer literal. The step to the next number
stops at the largest one.
-/

namespace BasicToSharp.Number

/-- The largest signed 64-bit integer. -/
def largestInteger : Int := 9223372036854775807

/-- The smallest signed 64-bit integer. -/
def smallestInteger : Int := -9223372036854775808

/-- The value of a list of basic digits, most significant first. -/
def digitsValue (digits : List Char) : Nat :=
  digits.foldl (fun value digit => 10 * value + (digit.toNat - 48)) 0

/-- The value of a non-empty list of basic digits. -/
def readDigits (chars : List Char) : Option Nat :=
  if !chars.isEmpty && chars.all Char.isDigit then some (digitsValue chars) else none

/-- A number that is within the range of 64 bits. -/
def inRange (value : Int) : Option Int :=
  if smallestInteger ≤ value ∧ value ≤ largestInteger then some value else none

/-- The 64-bit integer that a text spells, with at most one sign before its digits. -/
def readInteger (text : String) : Option Int :=
  match text.toList with
  | '-' :: digits => (readDigits digits).bind fun value => inRange (-Int.ofNat value)
  | '+' :: digits => (readDigits digits).bind fun value => inRange (Int.ofNat value)
  | digits => (readDigits digits).bind fun value => inRange (Int.ofNat value)

/-- The next integer, or the same one at the end of the range. -/
def successor (value : Int) : Int := min (value + 1) largestInteger

/-- The decimal text of an integer. -/
def decimalText (value : Int) : String :=
  match value with
  | .ofNat magnitude => String.ofList (Nat.toDigits 10 magnitude)
  | .negSucc below => "-" ++ String.ofList (Nat.toDigits 10 (below + 1))

example : readInteger "-007" = some (-7) := by decide
example : readInteger "+9223372036854775808" = none := by decide
example : readInteger "1_000" = none := by decide
example : decimalText (-12) = "-12" := by decide

end BasicToSharp.Number
