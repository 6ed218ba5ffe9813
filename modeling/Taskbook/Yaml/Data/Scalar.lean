/-
What the text of a scalar stands for under each type.

The looks of a plain scalar promise a value but do not always keep the promise: a month
may be 13, a binary numeral may have no digits. And a tag can ask for any type whatever
the text. A text that stands for nothing is a fault of the kind that the type gives.
-/

import Taskbook.Value.Basic
import Taskbook.Number.Numeral
import Taskbook.Yaml.Plain
import Taskbook.Yaml.Token

namespace Taskbook.Yaml

open Taskbook.Number

/-- A fault as what is wrong with a text. -/
def faulty {α : Type} (fault : Fault) : Except ReadError α :=
  .error (.fault fault)

/-- The value of an optional one, or a fault. -/
def orFaulty {α : Type} (value? : Option α) (fault : Fault) : Except ReadError α :=
  match value? with
  | some value => .ok value
  | none => faulty fault

/-- The words for truth and falsehood in any case. -/
def truthValue (text : String) : Except ReadError Value :=
  let word := String.ofList (text.toList.map Char.toLower)
  if ["yes", "true", "on"].contains word then .ok (.bool true)
  else if ["no", "false", "off"].contains word then .ok (.bool false)
  else faulty .missingKey

/-- A text without low lines, and whether a minus sign was taken off it. -/
def signedDigits (text : List Char) : Except ReadError (Bool × List Char) :=
  match text.filter (· ≠ '_') with
  | [] => faulty .missingPlace
  | '-' :: rest => .ok (true, rest)
  | '+' :: rest => .ok (false, rest)
  | rest => .ok (false, rest)

/-- A number with the sign that was taken off it. -/
def withSign (negative : Bool) (number : Int) : Value :=
  .int (if negative then -number else number)

/-- The number that places to base sixty make up. -/
def sexagesimal (places : List Int) : Int :=
  places.foldl (fun total place => total * 60 + place) 0

/-- The integer of a numeral without a sign. -/
def unsignedInteger (digits : List Char) : Except ReadError Int :=
  let inBase := fun (base : Nat) (digits : List Char) =>
    orFaulty (readInt? base (String.ofList digits)) .wrongValue
  match digits with
  | [] => faulty .missingPlace
  | ['0'] => .ok 0
  | '0' :: 'b' :: rest => inBase 2 rest
  | '0' :: 'x' :: rest => inBase 16 rest
  | '0' :: _ => inBase 8 digits
  | _ =>
    if digits.contains ':' then do
      let places ← (pieces ':' digits).mapM (inBase 10)
      return sexagesimal places
    else inBase 10 digits

def integer (text : List Char) : Except ReadError Value := do
  let (negative, digits) ← signedDigits text
  let number ← unsignedInteger digits
  return withSign negative number

/-- Places to base sixty as floats, added up from the last one. The first argument is the weight
of the last place. A weight beyond the floats is a fault whatever the place. -/
def sexagesimalFloatFrom (weight : Nat) (total : Float) : List Float → Except ReadError Float
  | [] => .ok total
  | place :: rest => do
    let factor ← orFaulty (nearestNat? weight) .tooLarge
    sexagesimalFloatFrom (weight * 60) (total + place * factor) rest

/-- The float of a numeral without a sign. -/
def unsignedFloat (digits : List Char) : Except ReadError Float :=
  let read := fun (digits : List Char) =>
    orFaulty (readFloat? (String.ofList digits)) .wrongValue
  if digits = ".inf".toList then read "inf".toList
  else if digits = ".nan".toList then read "nan".toList
  else if digits.contains ':' then do
    let places ← (pieces ':' digits).mapM read
    sexagesimalFloatFrom 1 0.0 places.reverse
  else read digits

def float (text : List Char) : Except ReadError Value := do
  let (negative, digits) ← signedDigits (text.map Char.toLower)
  let number ← unsignedFloat digits
  return .float (if negative then -number else number)

/-- Whether the text of a float names the one not-a-number that all such texts stand for. -/
def isNamedNaN (text : List Char) : Bool :=
  match signedDigits (text.map Char.toLower) with
  | .ok (_, digits) => digits = ".nan".toList
  | .error _ => false

/-! ### Octets -/

/-- The value of a digit of base sixty-four. -/
def base64Value? (character : Char) : Option Nat :=
  let code := character.toNat
  if 65 ≤ code && code ≤ 90 then some (code - 65)
  else if 97 ≤ code && code ≤ 122 then some (code - 71)
  else if 48 ≤ code && code ≤ 57 then some (code + 4)
  else if code = 43 then some 62
  else if code = 47 then some 63
  else none

/-- Reads digits of base sixty-four, other characters being passed over. `filled` counts the
digits of the current four, `left` holds their bits that are not yet part of an octet, and
`pads` counts the equals signs since the last digit. Four places filled end the octets. -/
def octetsFrom (filled left pads : Nat) : List Char → Option (List UInt8)
  | [] => if filled = 0 then some [] else none
  | character :: rest =>
    if character = '=' then
      if filled ≥ 2 then
        if filled + pads + 1 ≥ 4 then some [] else octetsFrom filled left (pads + 1) rest
      else octetsFrom filled left pads rest
    else
      match base64Value? character with
      | none => octetsFrom filled left pads rest
      | some value =>
        if filled = 0 then octetsFrom 1 value 0 rest
        else if filled = 1 then
          (octetsFrom 2 (value % 16) 0 rest).map (UInt8.ofNat (left * 4 + value / 16) :: ·)
        else if filled = 2 then
          (octetsFrom 3 (value % 4) 0 rest).map (UInt8.ofNat (left * 16 + value / 4) :: ·)
        else (octetsFrom 0 0 0 rest).map (UInt8.ofNat (left * 64 + value) :: ·)

/-- Octets written in base sixty-four in ASCII. -/
def octets (text : List Char) : Except ReadError Value :=
  if text.all fun character => character.toNat < 128 then
    match octetsFrom 0 0 0 text with
    | some octets => .ok (.bytes octets)
    | none => .error .malformed
  else .error .malformed

/-! ### Points in time -/

/-- A fraction of a second in microseconds; further digits are dropped. -/
def microseconds (digits : List Char) : Nat :=
  let six := (digits ++ List.replicate 6 '0').take 6
  six.foldl (fun total digit => total * 10 + (digit.toNat - 48)) 0

/-- An offset in seconds. -/
def offsetSeconds (negative : Bool) (hours minutes : Nat) : Int :=
  let size : Int := (hours * 60 + minutes) * 60
  if negative then -size else size

/-- The day or the moment that a stamp gives, if the calendar has it. -/
def stampValue (stamp : Stamp) : Except ReadError Value := do
  match stamp.time with
  | none =>
    let day ← orFaulty (Day.make? stamp.year stamp.month stamp.day) .wrongValue
    return .date none day
  | some (hour, minute, second) =>
    let offset := stamp.offset.map fun (negative, hours, minutes) =>
      offsetSeconds negative hours minutes
    let day ← orFaulty (Day.make? stamp.year stamp.month stamp.day) .wrongValue
    let point ← orFaulty
      (Moment.make? day hour minute second (microseconds stamp.fraction) offset) .wrongValue
    return .moment none point

def pointInTime (text : List Char) : Except ReadError Value := do
  let stamp ← orFaulty (stamp? (dropFinalBreak text)) .missingPart
  stampValue stamp

end Taskbook.Yaml
