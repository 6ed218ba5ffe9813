/-
When two values are equal, and which of two comes first.

Numbers of all types are compared by the number they stand for, so the integer 1, the
float 1.0 and the truth value true are equal, also as keys of a mapping. Mappings and
sets are equal when they hold the same entries in whatever order. Whether two values are
one and the same plays no part, except that the collections of a web are equal only where
they are one and the same. Only values of one family have an order: numbers, texts,
octets, days, moments of one kind, and pairs, where the first parts that are not equal
decide.
-/

import Taskbook.Value.Basic
import Taskbook.Number.Shortest
import Taskbook.Text.Letters

namespace Taskbook

open Taskbook.Number

/-- A finite number `numerator / 2 ^ shift`, to compare integers and floats exactly. -/
structure Dyadic where
  numerator : Int
  shift : Nat

/-- The number that a float stands for, if it is finite. -/
def dyadicOfFloat? (number : Float) : Option Dyadic :=
  let pattern := number.toBits.toNat % Nat.pow 2 63
  if 0x7FF * Nat.pow 2 52 ≤ pattern then none
  else
    let binary := binaryOfBits number.toBits
    let size : Nat := binary.significand * Nat.pow 2 binary.exponent.toNat
    some ⟨if number < 0.0 then -(size : Int) else size, (-binary.exponent).toNat⟩

def Dyadic.compare (first second : Dyadic) : Ordering :=
  let scaled := fun (numerator : Int) (shift : Nat) => numerator * Int.ofNat (Nat.pow 2 shift)
  Ord.compare (scaled first.numerator second.shift) (scaled second.numerator first.shift)

namespace Value

/-- The integer that a truth value or an integer stands for. -/
def integer? : Value → Option Int
  | bool truth => some (if truth then 1 else 0)
  | int number => some number
  | _ => none

/-- The order of an integer and a float; none if the float is not a number. -/
def compareIntFloat (number : Int) (other : Float) : Option Ordering :=
  match dyadicOfFloat? other with
  | some dyadic => some (Dyadic.compare ⟨number, 0⟩ dyadic)
  | none =>
    if other > 0.0 then some .lt
    else if other < 0.0 then some .gt
    else none

def compareFloats (first second : Float) : Option Ordering :=
  if first < second then some .lt
  else if first == second then some .eq
  else if first > second then some .gt
  else none

/-- The order of two numbers of whatever type: none if one is not a number. The outer option
tells whether both values are numbers at all. -/
def compareNumbers? (first second : Value) : Option (Option Ordering) :=
  match first, second with
  | float left, float right => some (compareFloats left right)
  | float left, other =>
    other.integer?.map fun right => (compareIntFloat right left).map Ordering.swap
  | other, float right => other.integer?.map fun left => compareIntFloat left right
  | left, right =>
    match left.integer?, right.integer? with
    | some left, some right => some (some (Ord.compare left right))
    | _, _ => none

/-- Equality of values that are not collections. -/
def sameScalar (first second : Value) : Bool :=
  match first, second with
  | null, null => true
  | str left, str right => left = right
  | bytes left, bytes right => left = right
  | date _ left, date _ right => left = right
  | moment _ left, moment _ right => left.same right
  | left, right => compareNumbers? left right == some (some .eq)

mutual

/-- Whether two values are equal. -/
def same : Value → Value → Bool
  | list _ left, list _ right => sameItems left right
  | pair _ first second, pair _ other further => same first other && same second further
  | set _ left, set _ right => left.length = right.length && subset left right
  | map _ left, map _ right => left.length = right.length && submap left right
  | knot _ left, knot _ right => left = right
  | left, right => sameScalar left right

/-- Whether two lists have equal items in the same order. -/
def sameItems : List Value → List Value → Bool
  | [], [] => true
  | left :: lefts, right :: rights => same left right && sameItems lefts rights
  | _, _ => false

/-- Whether every item of the first list is among those of the second. -/
def subset : List Value → List Value → Bool
  | [], _ => true
  | item :: rest, others => others.any (fun other => same item other) && subset rest others

/-- Whether every entry of the first list is among those of the second. -/
def submap : List (Value × Value) → List (Value × Value) → Bool
  | [], _ => true
  | (key, value) :: rest, others =>
    others.any (fun other => same key other.1 && same value other.2) && submap rest others

end

/-- Keys of a mapping are compared by equality of values. -/
instance : BEq Value := ⟨same⟩

/-- Whether the first value comes before the second; none if they have no order. -/
def before? (first second : Value) : Option Bool :=
  match first, second with
  | str left, str right => some (Text.isBefore left right)
  | bytes left, bytes right => some (left < right)
  | date _ left, date _ right =>
    some (decide (left.ordinal < right.ordinal))
  | moment _ left, moment _ right =>
    if left.offset.isSome == right.offset.isSome then some (decide (left.instant < right.instant))
    else none
  | pair _ left further, pair _ right other =>
    if same left right then
      if same further other then some false else before? further other
    else before? left right
  | left, right => (compareNumbers? left right).map (· == some .lt)

/-- Puts a value into a sorted list, after those that do not come after it. -/
def insertSorted (item : Value) : List Value → Option (List Value)
  | [] => some [item]
  | other :: rest => do
    if ← before? item other then some (item :: other :: rest)
    else
      let inserted ← insertSorted item rest
      some (other :: inserted)

/-- The values in increasing order; none if two of them have no order, for there are then neighbours
that have none, and sorting compares all neighbours. Only a NaN in a pair can keep two such values
from being neighbours. Where it stands then depends on its address; here they are always met. -/
def sorted? : List Value → Option (List Value)
  | [] => some []
  | item :: rest => do
    let ordered ← sorted? rest
    if ordered.all fun other => (before? item other).isSome then insertSorted item ordered
    else none

end Value

end Taskbook
