/-
The type that a plain scalar has by its looks.

A scalar that is written without quotes and without a tag is null, a truth value, a
number, a point in time, a merge key, the value key or a mark if it looks like one, and a
text otherwise. Integers come in decimal, binary, octal with a leading zero, hexadecimal and
base sixty with colons; low lines may stand among their digits. A float has a point,
and its exponent a sign. One line feed at the end of a scalar does not change its looks.
-/

import Taskbook.Yaml.Character
import Taskbook.Yaml.Tag

namespace Taskbook.Yaml

/-! ### The shapes of numbers -/

/-- Drops a sign. -/
def unsigned : List Char → List Char
  | '-' :: rest => rest
  | '+' :: rest => rest
  | rest => rest

/-- Decimal digits and low lines. -/
def isDigitOrLine (character : Char) : Bool :=
  isDecimal character || character = '_'

/-- A digit, then digits and low lines. -/
def isDigitRun : List Char → Bool
  | [] => false
  | first :: rest => isDecimal first && rest.all isDigitOrLine

/-- A digit other than zero, then digits and low lines. -/
def isPositiveRun : List Char → Bool
  | [] => false
  | first :: rest => isDecimal first && first ≠ '0' && rest.all isDigitOrLine

/-- A place of a numeral to base sixty after its first. -/
def isSixtieth : List Char → Bool
  | [digit] => isDecimal digit
  | [ten, digit] => '0' ≤ ten && ten ≤ '5' && isDecimal digit
  | _ => false

/-- At least one place after the first one, all of them below sixty. -/
def isSexagesimal (first : List Char → Bool) (text : List Char) : Bool :=
  match pieces ':' text with
  | whole :: place :: places => first whole && isSixtieth place && places.all isSixtieth
  | _ => false

/-- An unsigned integer. -/
def isInteger (text : List Char) : Bool :=
  match text with
  | ['0'] => true
  | '0' :: 'b' :: digits =>
    !digits.isEmpty && digits.all fun digit => digit = '0' || digit = '1' || digit = '_'
  | '0' :: 'x' :: digits =>
    !digits.isEmpty && digits.all fun digit => (hexValue? digit).isSome || digit = '_'
  | '0' :: digits => digits.all fun digit => ('0' ≤ digit && digit ≤ '7') || digit = '_'
  | digits => isPositiveRun digits || isSexagesimal isPositiveRun digits

/-- An exponent with its sign, or none. -/
def isExponent : List Char → Bool
  | [] => true
  | mark :: sign :: digits =>
    (mark = 'e' || mark = 'E') && (sign = '-' || sign = '+') && !digits.isEmpty &&
      digits.all isDecimal
  | _ => false

/-- The parts before and after the first point; none without one. -/
def splitPoint? : List Char → Option (List Char × List Char)
  | [] => none
  | '.' :: rest => some ([], rest)
  | character :: rest =>
    (splitPoint? rest).map fun (before, after) => (character :: before, after)

/-- A number with a point after its first digit. -/
def isPointed (text : List Char) : Bool :=
  match splitPoint? text with
  | none => false
  | some (whole, tail) =>
    (isDigitRun whole && isExponent (tail.dropWhile isDigitOrLine)) ||
      (isSexagesimal isDigitRun whole && tail.all isDigitOrLine)

/-- A number that starts with its point. -/
def isFraction : List Char → Bool
  | '.' :: digit :: rest => isDecimal digit && isExponent (rest.dropWhile isDigitOrLine)
  | _ => false

def isInfinity (text : List Char) : Bool :=
  ["inf", "Inf", "INF"].any fun word => text = '.' :: word.toList

def isNotANumber (text : List Char) : Bool :=
  ["nan", "NaN", "NAN"].any fun word => text = '.' :: word.toList

def isFloat (text : List Char) : Bool :=
  isPointed (unsigned text) || isFraction text || isInfinity (unsigned text) || isNotANumber text

/-! ### The shapes of points in time -/

/-- A day or month number of one or two digits, and the rest. -/
def shortNumber? : List Char → Option (Nat × List Char)
  | first :: second :: rest =>
    if isDecimal first then
      if isDecimal second then
        some ((first.toNat - 48) * 10 + (second.toNat - 48), rest)
      else some (first.toNat - 48, second :: rest)
    else none
  | [first] => if isDecimal first then some (first.toNat - 48, []) else none
  | [] => none

/-- A number of exactly two digits, and the rest. -/
def twoDigits? : List Char → Option (Nat × List Char)
  | first :: second :: rest =>
    if isDecimal first && isDecimal second then
      some ((first.toNat - 48) * 10 + (second.toNat - 48), rest)
    else none
  | _ => none

/-- A number of exactly four digits, and the rest. -/
def fourDigits? (text : List Char) : Option (Nat × List Char) := do
  let (high, rest) ← twoDigits? text
  let (low, rest) ← twoDigits? rest
  return (high * 100 + low, rest)

/-- Drops one given character. -/
def skip? (character : Char) : List Char → Option (List Char)
  | first :: rest => if first = character then some rest else none
  | [] => none

/-- The numbers that a point in time is written with. The time of day is missing for a day. -/
structure Stamp where
  year : Nat
  month : Nat
  day : Nat
  time : Option (Nat × Nat × Nat)
  fraction : List Char
  /-- Negative or not, hours and minutes; none without an offset. -/
  offset : Option (Bool × Nat × Nat)

/-- Drops what separates a day from a time: a letter T or white space. -/
def skipTimeMark? : List Char → Option (List Char)
  | mark :: rest =>
    if mark = 'T' || mark = 't' then some rest
    else if isSpace mark then some (rest.dropWhile isSpace)
    else none
  | [] => none

/-- The offset at the end of a point in time. -/
def stampOffset? (text : List Char) : Option (Option (Bool × Nat × Nat)) :=
  match text with
  | [] => some none
  | _ =>
    match text.dropWhile isSpace with
    | ['Z'] => some (some (false, 0, 0))
    | sign :: rest => do
      if sign ≠ '-' && sign ≠ '+' then none
      let (hours, rest) ← shortNumber? rest
      match rest with
      | [] => some (some (sign = '-', hours, 0))
      | ':' :: rest =>
        let (minutes, rest) ← twoDigits? rest
        if rest.isEmpty then some (some (sign = '-', hours, minutes)) else none
      | _ => none
    | [] => none

/-- The time of day and the offset of a point in time, after its day. -/
def stampTime? (year month day : Nat) (text : List Char) : Option Stamp := do
  let rest ← skipTimeMark? text
  let (hour, rest) ← shortNumber? rest
  let rest ← skip? ':' rest
  let (minute, rest) ← twoDigits? rest
  let rest ← skip? ':' rest
  let (second, rest) ← twoDigits? rest
  let (fraction, rest) := match rest with
    | '.' :: rest => (rest.takeWhile isDecimal, rest.dropWhile isDecimal)
    | rest => ([], rest)
  let offset ← stampOffset? rest
  return ⟨year, month, day, some (hour, minute, second), fraction, offset⟩

/-- Reads the numbers of a point in time. Month and day may have one digit each. -/
def stamp? (text : List Char) : Option Stamp := do
  let (year, rest) ← fourDigits? text
  let rest ← skip? '-' rest
  let (month, rest) ← shortNumber? rest
  let rest ← skip? '-' rest
  let (day, rest) ← shortNumber? rest
  match rest with
  | [] => return ⟨year, month, day, none, [], none⟩
  | rest => stampTime? year month day rest

/-- A plain scalar is a point in time only if a day alone has two digits for month and day. -/
def isStamp (text : List Char) : Bool :=
  match stamp? text with
  | none => false
  | some stamp => stamp.time.isSome || text.length = 10

/-! ### The type of a plain scalar -/

def isTruthWord (text : List Char) : Bool :=
  ["yes", "Yes", "YES", "no", "No", "NO", "true", "True", "TRUE", "false", "False", "FALSE",
    "on", "On", "ON", "off", "Off", "OFF"].any fun word => text = word.toList

def isNullWord (text : List Char) : Bool :=
  ["~", "null", "Null", "NULL", ""].any fun word => text = word.toList

/-- The mark of a tag, an anchor or an alias alone, which stands for YAML itself. -/
def isPropertyMark (text : List Char) : Bool :=
  text = ['!'] || text = ['&'] || text = ['*']

/-- A text without one line feed at its end. -/
def dropFinalBreak (text : List Char) : List Char :=
  if text.getLast? = some '\n' then text.dropLast else text

/-- The type of a plain scalar. -/
def plainTag (scalar : String) : Tag :=
  let text := dropFinalBreak scalar.toList
  if isTruthWord text then .bool
  else if isFloat text then .float
  else if isInteger (unsigned text) then .int
  else if text = ['<', '<'] then .merge
  else if isNullWord text && (!text.isEmpty || scalar.isEmpty) then .null
  else if isStamp text then .timestamp
  else if text = ['='] then .value
  else if isPropertyMark text then .yaml
  else .str

end Taskbook.Yaml
