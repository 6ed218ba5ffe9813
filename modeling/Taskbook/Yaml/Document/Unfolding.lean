/-
Values of documents.

Where no node of a document is part of itself, the value of a node holds those of its
parts, and the number of the node is its anchor. Each value is made once and used again
wherever its node comes. Otherwise the collections of the document are the cells of a web,
and the number of a node is its place there.
-/

import Taskbook.Yaml.Document.Making

namespace Taskbook.Yaml

/-- A scalar value with the number of its node: only points in time have one. -/
def numbered (place : Nat) : Value → Value
  | .date _ day => .date (some place) day
  | .moment _ point => .moment (some place) point
  | value => value

/-! ### Documents without circles -/

/-- How far the value of a node is made. -/
inductive Growth where
  | untouched
  /-- Parts of the node are being made. -/
  | begun
  | done (value : Value)
  deriving Inhabited

/-- Making values of nodes, with how far each is made; none where a node is part of itself. -/
abbrev Growing (α : Type) := StateT (Array Growth) Option α

namespace Growing

/-- Says how far the value of a node is made. -/
def note (place : Nat) (growth : Growth) : Growing Unit :=
  modify fun growths => growths.setIfInBounds place growth

/-- The pairs of some values, which are numbered from a first one on. -/
def pairsFrom (first : Nat) (pairs : List (Value × Value)) : List Value :=
  pairs.mapIdx fun index (key, value) => .pair (some (first + index)) key value

/-- The values of a pair of nodes. -/
def both (grow : Nat → Growing Value) (pair : Nat × Nat) : Growing (Value × Value) := do
  let first ← grow pair.1
  let second ← grow pair.2
  return (first, second)

/-- The value of a node. The first argument bounds the number of nodes inside each other. -/
def grow (made : Array (Option Made)) : Nat → Nat → Growing Value
  | 0, _ => failure
  | bound + 1, place => do
    match (← get).getD place .untouched with
    | .done value => return value
    | .begun => failure
    | .untouched => do
      note place .begun
      let inside := grow made bound
      let value ← match made.getD place none with
        | some (.scalar value) => pure (numbered place value)
        | some (.list items) => do pure (.list (some place) (← items.mapM inside))
        | some (.pairs first items) => do
          pure (.list (some place) (pairsFrom first (← items.mapM (both inside))))
        | some (.set keys) => do pure (.set (some place) (← keys.mapM inside))
        | some (.map entries) => do pure (.map (some place) (← entries.mapM (both inside)))
        | none => pure .null
      note place (.done value)
      return value

end Growing

/-! ### Documents with circles -/

/-- The part of a cell that a node makes. -/
def slotAt (made : Array (Option Made)) (place : Nat) : Slot Value :=
  match made.getD place none with
  | some (.scalar value) => .leaf (numbered place value)
  | none => .leaf .null
  | _ => .cell place

/-- The places of so many neighbours from a first one on. -/
def neighbours (first count : Nat) : List Nat :=
  (List.range count).map (first + ·)

/-- The cells that a node makes, by their places. -/
def cellsOf (made : Array (Option Made)) (place : Nat) : List (Nat × Cell Value) :=
  let slot := slotAt made
  let slots := fun (pair : Nat × Nat) => (slot pair.1, slot pair.2)
  match made.getD place none with
  | some (.list items) => [(place, .list (items.map slot))]
  | some (.pairs first items) =>
    let places := neighbours first items.length
    let pairs := items.map fun pair => Cell.pair (slot pair.1) (slot pair.2)
    (place, .list (places.map .cell)) :: places.zip pairs
  | some (.set keys) => [(place, .set (keys.map slot))]
  | some (.map entries) => [(place, .map (entries.map slots))]
  | _ => []

/-- How many pairs a node makes. -/
def pairCount : Option Made → Nat
  | some (.pairs _ items) => items.length
  | _ => 0

/-- The web that the nodes of a document make. -/
def webOf (made : Array (Option Made)) : Web :=
  let pairs := made.foldl (fun count made => count + pairCount made) 0
  let start : Web := Array.replicate (made.size + pairs) (.list [])
  let cells := (List.range made.size).flatMap (cellsOf made)
  cells.foldl (fun web (place, cell) => web.setIfInBounds place cell) start

/-! ### All documents -/

/-- The value that a document stands for. -/
def Document.value (document : Document) : Except ReadError Value := do
  let made ← document.make
  let start := made.map fun _ => Growth.untouched
  match (Growing.grow made (made.size + 1) document.root).run' start with
  | some value => return value
  | none => return .knot (webOf made) document.root

end Taskbook.Yaml
