/-!
# Double-precision values

Loop bounds are compared after rounding to double precision: the nearest multiple of a
power of two that leaves 53 significant bits, a tie going to the even one, with `2^-1074`
as the finest grid and everything from `2^1024` up as infinite. The rounding is exact
integer arithmetic on a fraction, and the sign of zero, which no comparison shows, is
not kept.
-/

namespace BasicToSharp.Number

/-- A double-precision value up to the sign of zero: `mantissa * 2 ^ exponent`, or one of
the infinities. -/
inductive Binary64
  | finite (mantissa exponent : Int)
  | infinite (negative : Bool)
  deriving DecidableEq, Repr

/-- The quotient rounded to the nearest natural number, a tie going to the even one. -/
def divideToEven (numerator denominator : Nat) : Nat :=
  let quotient := numerator / denominator
  let twice := 2 * (numerator % denominator)
  if twice < denominator then quotient
  else if denominator < twice then quotient + 1
  else quotient + quotient % 2

/-- Multiply a fraction by `2 ^ -exponent`, keeping numerator and denominator whole. -/
def scaleFraction (numerator denominator : Nat) (exponent : Int) : Nat × Nat :=
  (numerator * Nat.pow 2 (-exponent).toNat, denominator * Nat.pow 2 exponent.toNat)

/-- The exponent of the grid on which a positive fraction has 53 significant bits, or
`-1074` when that grid would be finer. -/
def gridExponent (numerator denominator : Nat) : Int :=
  let guess : Int := (numerator.log2 : Int) - (denominator.log2 : Int) - 52
  let scaled := scaleFraction numerator denominator guess
  let exponent := if scaled.1 < Nat.pow 2 52 * scaled.2 then guess - 1 else guess
  max exponent (-1074)

/-- The double nearest to a fraction with positive denominator and the given sign. -/
def Binary64.ofFraction (negative : Bool) (numerator denominator : Nat) : Binary64 :=
  if numerator = 0 then .finite 0 0
  else
    let exponent := gridExponent numerator denominator
    let scaled := scaleFraction numerator denominator exponent
    let mantissa := divideToEven scaled.1 scaled.2
    if 1024 ≤ (mantissa.log2 : Int) + exponent then .infinite negative
    else .finite (if negative then -(mantissa : Int) else mantissa) exponent

/-- The double nearest to an integer. -/
def Binary64.ofInt (value : Int) : Binary64 := .ofFraction (value < 0) value.natAbs 1

/-- The order of doubles. -/
def Binary64.lt : Binary64 → Binary64 → Bool
  | .finite mantissa exponent, .finite mantissa' exponent' =>
    let least := min exponent exponent'
    mantissa * Int.pow 2 (exponent - least).toNat <
      mantissa' * Int.pow 2 (exponent' - least).toNat
  | .finite _ _, .infinite negative => !negative
  | .infinite negative, .finite _ _ => negative
  | .infinite negative, .infinite negative' => negative && !negative'

example : (Binary64.ofInt 9007199254740993).lt (.ofInt 9007199254740994) = true := by
  decide +kernel
example : (Binary64.ofInt 9007199254740992).lt (.ofInt 9007199254740993) = false := by
  decide +kernel

end BasicToSharp.Number
