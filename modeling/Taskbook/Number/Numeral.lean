/-
How floating-point numbers are written and read.

A number is written with the fewest digits that read back, positionally while its
decimal point stays near its digits and in scientific form beyond that. The choices of
a written form (where the positional range ends, how infinity is spelled, whether a
scientific mantissa keeps a point) are fields of a record, so that each format that
writes numbers states its own.
-/

import Taskbook.Number.Nearest
import Taskbook.Number.Shortest
import Taskbook.Text.Blank
import Taskbook.Text.Digits

namespace Taskbook.Number

open Taskbook.Text

/-- The choices of a written form of floating-point numbers. -/
structure FloatForm where
  /-- Scientific form is used when the decimal point lies at or before this place. -/
  leastPoint : Int
  /-- Scientific form is used when the decimal point lies beyond this place. -/
  greatestPoint : Int
  /-- What an integral mantissa in scientific form is followed by. -/
  mantissaTail : String
  infinity : String
  notANumber : String

/-- Positional from `0.0001` to below `10 ^ 16`, as in program text. -/
def programForm : FloatForm :=
  { leastPoint := -4, greatestPoint := 16, mantissaTail := ""
    infinity := "inf", notANumber := "nan" }

/-- The digits of a decimal with its point among, before or after them. -/
def Decimal.positional (decimal : Decimal) : String :=
  let digits := decimal.digits
  if decimal.point ≤ 0 then
    String.ofList ('0' :: '.' :: (List.replicate (-decimal.point).toNat '0' ++ digits))
  else
    let whole := decimal.point.toNat
    if digits.length ≤ whole then
      String.ofList (digits ++ List.replicate (whole - digits.length) '0' ++ ['.', '0'])
    else String.ofList (digits.take whole ++ '.' :: digits.drop whole)

/-- An exponent with its sign and at least two digits. -/
def exponentText (exponent : Int) : String :=
  let digits := digitsOf exponent.natAbs
  let padded := if digits.length < 2 then '0' :: digits else digits
  String.ofList ((if exponent < 0 then '-' else '+') :: padded)

/-- One digit, a point, the further digits, and the power of ten. -/
def Decimal.scientific (decimal : Decimal) (mantissaTail : String) : String :=
  let mantissa := match decimal.digits with
    | [] => "0"
    | [digit] => String.ofList [digit] ++ mantissaTail
    | digit :: further => String.ofList (digit :: '.' :: further)
  mantissa ++ "e" ++ exponentText (decimal.point - 1)

/-- The text of a floating-point number in a given form. -/
def FloatForm.write (form : FloatForm) (number : Float) : String :=
  let bits := number.toBits.toNat
  let negative := Nat.pow 2 63 ≤ bits
  let sign := if negative then "-" else ""
  let pattern := bits % Nat.pow 2 63
  if pattern > 0x7FF * Nat.pow 2 52 then form.notANumber
  else if pattern = 0x7FF * Nat.pow 2 52 then sign ++ form.infinity
  else if pattern = 0 then sign ++ "0.0"
  else
    let decimal := (binaryOfBits number.toBits).shortest
    if form.leastPoint < decimal.point && decimal.point ≤ form.greatestPoint then
      sign ++ decimal.positional
    else sign ++ decimal.scientific form.mantissaTail

/-- Whether a text starts with a decimal digit. -/
def startsWithDigit : List Char → Bool
  | [] => false
  | character :: _ => (digitValue? character).isSome

/-- The values of the digits that a text starts with, and the rest. Single low lines may stand
between digits; `afterDigit` says whether one may stand here. -/
def takeDigitsFrom (afterDigit : Bool) : List Char → List Nat × List Char
  | [] => ([], [])
  | '_' :: rest =>
    if afterDigit && startsWithDigit rest then takeDigitsFrom false rest else ([], '_' :: rest)
  | character :: rest =>
    match digitValue? character with
    | none => ([], character :: rest)
    | some digit =>
      let (digits, remaining) := takeDigitsFrom true rest
      (digit :: digits, remaining)

/-- The digits at the start of a text, and the rest. -/
def takeDigits (characters : List Char) : List Nat × List Char :=
  takeDigitsFrom false characters

/-- The number that decimal digits spell. -/
def ofDigits (digits : List Nat) : Nat :=
  digits.foldl (fun total digit => total * 10 + digit) 0

/-- A sign and the rest of the text. -/
def takeSign : List Char → Bool × List Char
  | '-' :: rest => (true, rest)
  | '+' :: rest => (false, rest)
  | rest => (false, rest)

/-- The exponent at the end of a numeral, zero if there is none. -/
def exponent? : List Char → Option Int
  | [] => some 0
  | mark :: rest =>
    if mark = 'e' || mark = 'E' then
      let (negative, afterSign) := takeSign rest
      match takeDigits afterSign with
      | ([], _) => none
      | (digits, []) =>
        let size := ofDigits digits
        some (if negative then -(size : Int) else size)
      | _ => none
    else none

/-- An unsigned decimal numeral: digits with at most one point among them, then perhaps an
exponent. -/
def unsignedFloat? (characters : List Char) : Option Float :=
  let (whole, afterWhole) := takeDigits characters
  let (fraction, tail) := match afterWhole with
    | '.' :: rest => takeDigits rest
    | rest => ([], rest)
  if whole.isEmpty && fraction.isEmpty then none
  else
    (exponent? tail).map fun exponent =>
      let digits := (whole ++ fraction).dropWhile (· = 0)
      nearestDecimal (ofDigits digits) digits.length (exponent - fraction.length)

/-- Reads a floating-point number: blanks around it are ignored, and infinity and
not-a-number are spelled in any case. -/
def readFloat? (text : String) : Option Float :=
  let (negative, rest) := takeSign (numeralOf text)
  let word := String.ofList (rest.map Char.toLower)
  let magnitude :=
    if word = "inf" || word = "infinity" then some (Float.ofBits 0x7FF0000000000000)
    else if word = "nan" then some (Float.ofBits 0x7FF8000000000000)
    else unsignedFloat? rest
  magnitude.map fun number => if negative then -number else number

/-- Digits of a base with single low lines between them, the first one given. -/
def ofBaseDigits? (base : Nat) : Nat → List Char → Option Nat
  | total, [] => some total
  | total, '_' :: character :: rest =>
    match baseDigitValue? base character with
    | some digit => ofBaseDigits? base (total * base + digit) rest
    | none => none
  | total, character :: rest =>
    match baseDigitValue? base character with
    | some digit => ofBaseDigits? base (total * base + digit) rest
    | none => none

/-- The letters that may mark a base after a leading zero. -/
def baseMark (base : Nat) (character : Char) : Bool :=
  match base with
  | 2 => character = 'b' || character = 'B'
  | 8 => character = 'o' || character = 'O'
  | 16 => character = 'x' || character = 'X'
  | _ => false

/-- A numeral without its sign and without a mark of its base behind a leading zero. -/
def unmarked (base : Nat) (unsigned : List Char) : List Char :=
  match unsigned with
  | '0' :: mark :: rest =>
    if baseMark base mark then
      match rest with
      | '_' :: further => further
      | further => further
    else unsigned
  | other => other

/-- The most digits a decimal integer may be read or written with. -/
def digitLimit : Nat := 4300

/-- The least number that has more digits than may be written. -/
def firstUnwritten : Nat := Nat.pow 10 digitLimit

/-- An integer in decimal; none of more than `digitLimit` digits. -/
def writeInt? (number : Int) : Option String :=
  if number.natAbs < firstUnwritten then some (toString number) else none

/-- Reads an integer in a base: blanks around it are ignored, a sign may precede it, a mark of
the base may follow a leading zero, and single low lines may stand between digits. A decimal
integer of more than `digitLimit` digits is refused. -/
def readInt? (base : Nat) (text : String) : Option Int :=
  let (negative, unsigned) := takeSign (numeralOf text)
  let digits := unmarked base unsigned
  match digits with
  | [] => none
  | first :: rest =>
    if base = 10 && (digits.filter (· ≠ '_')).length > digitLimit then none
    else
      match baseDigitValue? base first with
      | none => none
      | some digit =>
        (ofBaseDigits? base digit rest).map fun size =>
          if negative then -(size : Int) else size

end Taskbook.Number
