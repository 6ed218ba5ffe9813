/-
The shortest decimal that reads back as a given binary fraction.

A finite nonzero floating-point number is `m · 2 ^ q`. Reading a decimal rounds it to
the nearest such number, so the decimals that read back as this one fill an interval
around it: its ends lie half way to the two neighbours, and they belong to it when `m`
is even. For one digit, two digits and so on, the two decimals next to the number are
tried against the interval. The first length with a hit gives the digits; of two hits
the nearer is taken, and of two equally near the one with the even last digit.

All of it is exact arithmetic on natural numbers: the number and the ends of the
interval are fractions over one denominator.
-/

namespace Taskbook.Number

/-- A positive binary fraction `significand · 2 ^ exponent`. At the bottom of a binade the
neighbour below is nearer than the one above. -/
structure Binary where
  significand : Nat
  exponent : Int
  bottom : Bool
  deriving DecidableEq, Repr

/-- A positive decimal `0.d₁d₂… · 10 ^ point`, its digits written without trailing zeros. -/
structure Decimal where
  digits : List Char
  point : Int
  deriving DecidableEq, Repr

/-- The magnitude of a finite float, zero aside. -/
def binaryOfBits (bits : UInt64) : Binary :=
  let pattern : Nat := bits.toNat % Nat.pow 2 63
  let exponent : Nat := pattern / Nat.pow 2 52
  let fraction : Nat := pattern % Nat.pow 2 52
  if exponent = 0 then ⟨fraction, -1074, false⟩
  else ⟨Nat.pow 2 52 + fraction, (exponent : Int) - 1075, fraction = 0 && exponent ≠ 1⟩

/-- The decimal digits of a natural number. -/
def digitsOf (number : Nat) : List Char :=
  Nat.toDigits 10 number

/-- The least `k` with `numerator / denominator < 10 ^ k`. -/
def decimalPoint (numerator denominator : Nat) : Int :=
  if denominator ≤ numerator then (digitsOf (numerator / denominator)).length
  else
    let inverse := (digitsOf (denominator / numerator)).length
    if numerator * Nat.pow 10 (inverse - 1) = denominator then 2 - (inverse : Int)
    else 1 - (inverse : Int)

/-- An interval of fractions over one denominator, with the number that it surrounds. -/
structure Rounding where
  low : Nat
  value : Nat
  high : Nat
  denominator : Nat
  closed : Bool
  deriving DecidableEq, Repr

/-- The fractions that round to a binary fraction. -/
def Binary.rounding (binary : Binary) : Rounding :=
  let up := binary.exponent.toNat
  let down := (-binary.exponent).toNat
  let scale := Nat.pow 2 up
  { low := (4 * binary.significand - (if binary.bottom then 1 else 2)) * scale
    value := 4 * binary.significand * scale
    high := (4 * binary.significand + 2) * scale
    denominator := 4 * Nat.pow 2 down
    closed := binary.significand % 2 = 0 }

/-- Whether a fraction over the interval's denominator times `unit` lies in the interval. -/
def Rounding.holds (rounding : Rounding) (scaled unit : Nat) : Bool :=
  if rounding.closed then rounding.low * unit ≤ scaled && scaled ≤ rounding.high * unit
  else rounding.low * unit < scaled && scaled < rounding.high * unit

/-- The decimal of a given number of digits that lies in the interval, if one does. The grid
of that length has the spacing `10 ^ (point - length)`. -/
def Rounding.hit? (rounding : Rounding) (point : Int) (length : Nat) : Option Nat :=
  let spacing := point - length
  let up := Nat.pow 10 spacing.toNat
  let down := Nat.pow 10 (-spacing).toNat
  let below := rounding.value * down / (rounding.denominator * up)
  let place := fun (step : Nat) => step * up * rounding.denominator
  let hits := fun (step : Nat) => rounding.holds (place step) down
  let under := rounding.value * down - place below
  let above := place (below + 1) - rounding.value * down
  let belowIsNearer := under < above || (under = above && below % 2 = 0)
  if hits below && hits (below + 1) then some (if belowIsNearer then below else below + 1)
  else if hits below then some below
  else if hits (below + 1) then some (below + 1)
  else none

/-- The first hit from a given number of digits on, with the number of digits it took. -/
def Rounding.search (rounding : Rounding) (point : Int) : Nat → Nat → Nat × Nat
  | 0, length => ((rounding.hit? point length).getD 0, length)
  | tries + 1, length =>
    match rounding.hit? point length with
    | some hit => (hit, length)
    | none => rounding.search point tries (length + 1)

/-- The shortest decimal that reads back as the binary fraction, the nearest of those.
Seventeen digits always suffice. -/
def Binary.shortest (binary : Binary) : Decimal :=
  let rounding := binary.rounding
  let point := decimalPoint rounding.value rounding.denominator
  let (hit, length) := rounding.search point 16 1
  let digits := digitsOf hit
  let carried := (digits.length : Int) - length
  { digits := (digits.reverse.dropWhile (· == '0')).reverse
    point := point + carried }

end Taskbook.Number
