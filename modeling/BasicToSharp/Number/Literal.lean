import BasicToSharp.Number.Binary64
import BasicToSharp.Number.Integer
import BasicToSharp.Token.Basic

/-!
# Number literals

A bound or step is a literal when its tokens, written together, spell a 64-bit integer,
or hold a point and spell a decimal number: an optional sign, digits before or behind
the point, and an optional exponent.
-/

namespace BasicToSharp.Number

/-- The parts of a decimal number: `coefficient * 10 ^ exponent` with a sign. -/
structure Decimal where
  negative : Bool
  coefficient : Nat
  exponent : Int
  deriving DecidableEq, Repr

/-- The value of what follows the digits of a decimal: nothing, or an exponent mark, an
optional sign and digits. -/
def readExponent : List Char → Option Int
  | [] => some 0
  | mark :: rest =>
    if mark = 'e' ∨ mark = 'E' then
      match rest with
      | '-' :: digits => (readDigits digits).map fun value => -Int.ofNat value
      | '+' :: digits => (readDigits digits).map Int.ofNat
      | digits => (readDigits digits).map Int.ofNat
    else none

/-- Read a decimal without its sign. At least one digit stands before or behind the
point. -/
def readUnsigned (negative : Bool) (chars : List Char) : Option Decimal :=
  let whole := chars.takeWhile Char.isDigit
  let after := chars.dropWhile Char.isDigit
  let (fraction, rest) :=
    match after with
    | '.' :: tail => (tail.takeWhile Char.isDigit, tail.dropWhile Char.isDigit)
    | _ => ([], after)
  if whole.isEmpty && fraction.isEmpty then none
  else
    (readExponent rest).map fun exponent =>
      ⟨negative, digitsValue (whole ++ fraction), exponent - fraction.length⟩

/-- The decimal that a text spells. -/
def readDecimal (text : String) : Option Decimal :=
  match text.toList with
  | '-' :: rest => readUnsigned true rest
  | '+' :: rest => readUnsigned false rest
  | rest => readUnsigned false rest

/-- The double nearest to a decimal. Numbers of more than 310 digits before the point are
infinite and numbers below `10 ^ -330` are zero, so no large power is computed. -/
def Decimal.toBinary64 (decimal : Decimal) : Binary64 :=
  let magnitude : Int := (Nat.toDigits 10 decimal.coefficient).length + decimal.exponent
  if decimal.coefficient = 0 ∨ magnitude < -330 then .finite 0 0
  else if 310 < magnitude then .infinite decimal.negative
  else
    .ofFraction decimal.negative (decimal.coefficient * Nat.pow 10 decimal.exponent.toNat)
      (Nat.pow 10 (-decimal.exponent).toNat)

/-- A number literal. -/
inductive Literal
  | integer (value : Int)
  | decimal (value : Binary64)
  deriving DecidableEq, Repr

/-- The literal that a list of tokens spells when they are written together. -/
def Literal.read (tokens : List Token) : Option Literal :=
  let text := String.join tokens
  match readInteger text with
  | some value => some (.integer value)
  | none =>
    if text.toList.contains '.' then
      (readDecimal text).map fun decimal => .decimal decimal.toBinary64
    else none

/-- The double-precision value of a literal. -/
def Literal.value : Literal → Binary64
  | .integer value => .ofInt value
  | .decimal value => value

/-- True of a literal below zero. -/
def Literal.isNegative (literal : Literal) : Bool := literal.value.lt (.finite 0 0)

example : Literal.read ["-.", "5"] = some (.decimal (.finite (-4503599627370496) (-53))) := by
  decide +kernel
example : Literal.read ["-", "12"] = some (.integer (-12)) := by decide +kernel
example : Literal.read ["."] = none := by decide +kernel

end BasicToSharp.Number
