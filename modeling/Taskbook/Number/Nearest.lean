/-
The floating-point number nearest to a fraction.

A finite float is `m · 2 ^ q` with `m` below `2 ^ 53` and `q` at least `-1074`. To round
a fraction, `q` is chosen so that the quotient by `2 ^ q` has 53 digits to base two, or
as few as `q = -1074` leaves it. The quotient is rounded to the nearest integer, and half
way between two of them to the even one. What comes out beyond the greatest finite float
is infinity.

All of it is exact arithmetic on natural numbers, so that each number is rounded once.
-/

namespace Taskbook.Number

/-- The quotient of two natural numbers rounded to the nearest one, to the even one of two. -/
def roundedQuotient (numerator denominator : Nat) : Nat :=
  let quotient := numerator / denominator
  let twice := 2 * (numerator % denominator)
  if twice < denominator then quotient
  else if denominator < twice then quotient + 1
  else quotient + quotient % 2

/-- The quotient of a fraction by a power of two, as a fraction. -/
def scaledDown (numerator denominator : Nat) (exponent : Int) : Nat × Nat :=
  (numerator * Nat.pow 2 (-exponent).toNat, denominator * Nat.pow 2 exponent.toNat)

/-- The exponent of the last digit that a positive fraction is rounded to. -/
def lastExponent (numerator denominator : Nat) : Int :=
  let guess := (Nat.log2 numerator : Int) - Nat.log2 denominator - 52
  let (scaled, unit) := scaledDown numerator denominator guess
  let exact := if scaled < unit * Nat.pow 2 52 then guess - 1 else guess
  max exact (-1074)

/-- The bit pattern of infinity. -/
def infinityBits : Nat := 0x7FF * Nat.pow 2 52

/-- The float nearest to a fraction of natural numbers. A significand of 53 digits carries one
into the field of the exponent, which is why the field counts from the exponent alone. -/
def nearestFraction (numerator denominator : Nat) : Float :=
  if numerator = 0 then 0.0
  else
    let exponent := lastExponent numerator denominator
    let (scaled, unit) := scaledDown numerator denominator exponent
    let bits := (exponent + 1074).toNat * Nat.pow 2 52 + roundedQuotient scaled unit
    Float.ofBits (min bits infinityBits).toUInt64

/-- The float nearest to `mantissa · 10 ^ exponent`, a mantissa of so many digits. Exponents
far outside the range of floats give infinity and zero without computing the power. -/
def nearestDecimal (mantissa : Nat) (length : Nat) (exponent : Int) : Float :=
  if mantissa = 0 then 0.0
  else if exponent + length > 400 then Float.ofBits infinityBits.toUInt64
  else if exponent + length < -400 then 0.0
  else nearestFraction (mantissa * Nat.pow 10 exponent.toNat) (Nat.pow 10 (-exponent).toNat)

/-- The float nearest to a natural number; none beyond the greatest finite one. -/
def nearestNat? (number : Nat) : Option Float :=
  let nearest := nearestFraction number 1
  if nearest.toBits.toNat < infinityBits then some nearest else none

end Taskbook.Number
