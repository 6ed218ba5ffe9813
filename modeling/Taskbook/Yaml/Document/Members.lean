/-
The order of the members of a set.

The members of a set of numbers come in the order of their slots in a table: a member goes
to the slot of its number modulo the size of the table, or where that is taken to one of
the slots after it, and failing these it goes on from another slot that depends on all of
its number. Numbers are taken modulo a prime first, so that equal numbers of whatever type
have one slot. A set with other members keeps them in the order in which they are written.
-/

import Taskbook.Value.Equality

namespace Taskbook.Yaml

namespace Members

/-! ### Numbers of members -/

/-- The prime modulo which numbers are taken; two has the order 61 in it. -/
def modulus : Nat := Nat.pow 2 61 - 1

/-- The size of the residue of a number `numerator / 2 ^ shift`. -/
def residue (number : Dyadic) : Nat :=
  let inverse := Nat.pow 2 ((61 - number.shift % 61) % 61)
  number.numerator.natAbs % modulus * inverse % modulus

/-- The residue of a number with its sign; minus one is taken for minus two. -/
def signedResidue (number : Dyadic) : Int :=
  let size : Int := residue number
  if number.numerator < 0 then (if size = 1 then -2 else -size) else size

/-- What stands for an infinite number. -/
def infiniteResidue : Int := 314159

/-- The residue of a value that is a number. -/
def residue? : Value → Option Int
  | .float number =>
    match dyadicOfFloat? number with
    | some dyadic => some (signedResidue dyadic)
    | none =>
      if number > 0.0 then some infiniteResidue
      else if number < 0.0 then some (-infiniteResidue)
      else none
  | other => other.integer?.map fun number => signedResidue ⟨number, 0⟩

/-! ### Slots -/

/-- How many slots after a taken one are tried, where the table is long enough. -/
def reach : Nat := 9

/-- The size of the table for so many members: a power of two. -/
def tableSize (count : Nat) : Nat :=
  if 5 * count < 21 then 8 else Nat.pow 2 (Nat.log2 (2 * count) + 1)

/-- The first free slot from one on. The first argument bounds how often another slot is gone on
from, and the last is what is left of the number. -/
def freeSlot (taken : List Nat) (size : Nat) : Nat → Nat → Nat → Nat
  | 0, slot, _ => slot
  | bound + 1, slot, number =>
    let tried := if slot + reach < size then reach + 1 else 1
    match ((List.range tried).map (slot + ·)).find? fun place => !taken.contains place with
    | some place => place
    | none =>
      let left := number / 32
      freeSlot taken size bound ((slot * 5 + 1 + left) % size) left

/-- A residue as a word of 64 bits. -/
def word (residue : Int) : Nat :=
  (residue % (Nat.pow 2 64 : Nat)).toNat

/-- The slots of members with the given residues, which take them one after the other. -/
def slots (residues : List Int) : List Nat :=
  let size := tableSize residues.length
  residues.foldl (fun taken residue =>
    let number := word residue
    taken ++ [freeSlot taken size (size + 16) (number % size) number]) []

/-- Members in the order of their slots, if all of them are numbers. -/
def inOrder {Member : Type} (value : Member → Value) (members : List Member) : List Member :=
  match members.mapM fun member => residue? (value member) with
  | none => members
  | some residues =>
    let placed := (slots residues).zip members
    (placed.mergeSort fun first second => first.1 ≤ second.1).map Prod.snd

end Members

end Taskbook.Yaml
