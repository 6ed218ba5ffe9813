/-
Data as trees.

Data become nodes in one way: every value has a tag and a text or parts. A number is
written like in program text, except that a float always has a point and spells
infinity and not-a-number with a point in front.

A value that occurs again is an alias of the node of its first occurrence. Only nodes
with aliases have anchors, and these are numbered in the order in which the first alias
of each comes. Collections too deep inside each other make no nodes.
-/

import Taskbook.Calendar
import Taskbook.Depths
import Taskbook.Value.Literal
import Taskbook.Yaml.Node.Basic

namespace Taskbook.Yaml

open Taskbook.Number

variable [Depths]

/-- Floats in YAML keep a point in scientific form. -/
def floatForm : FloatForm :=
  { programForm with mantissaTail := ".0", infinity := ".inf", notANumber := ".nan" }

/-! ### Octets in base sixty-four -/

/-- The digit of base sixty-four for a number below it. -/
def base64Digit (number : Nat) : Char :=
  if number < 26 then Char.ofNat (65 + number)
  else if number < 52 then Char.ofNat (71 + number)
  else if number < 62 then Char.ofNat (number - 4)
  else if number = 62 then '+'
  else '/'

/-- Octets in base sixty-four: three at a time make four digits, and equals signs fill up the
last four. -/
def base64 : List UInt8 → List Char
  | [] => []
  | [a] =>
    let bits := a.toNat * 16
    [base64Digit (bits / 64), base64Digit (bits % 64), '=', '=']
  | [a, b] =>
    let bits := (a.toNat * 256 + b.toNat) * 4
    [base64Digit (bits / 4096), base64Digit (bits / 64 % 64), base64Digit (bits % 64), '=']
  | a :: b :: c :: rest =>
    let bits := (a.toNat * 256 + b.toNat) * 256 + c.toNat
    base64Digit (bits / 262144) :: base64Digit (bits / 4096 % 64) ::
      base64Digit (bits / 64 % 64) :: base64Digit (bits % 64) :: base64 rest

/-- A text in lines of a given width, each with a line feed at its end. -/
def wrapped (width : Nat) (text : List Char) : List Char :=
  match text with
  | [] => []
  | first :: rest =>
    (first :: rest.take (width - 1)) ++ '\n' :: wrapped width (rest.drop (width - 1))
termination_by text.length
decreasing_by simp only [List.length_drop, List.length_cons]; omega

/-! ### Nodes of data -/

/-- Making nodes of values, with the numbers of the values that have nodes already. -/
abbrev Noting (α : Type) := StateT (List Nat) (Except Fault) α

/-- The name of the value of a number until the names of anchors are known. -/
def provisionalName (number : Nat) : String :=
  toString number

/-- The node of a value: an alias if the value has a node already, and else the one made of it,
under its name. -/
def noteOnce (anchor : Option Nat) (make : Option String → Noting Node) : Noting Node := do
  match anchor with
  | none => make none
  | some number =>
    let name := provisionalName number
    if (← get).contains number then return .reference name
    else
      modify (number :: ·)
      make (some name)

/-- The node of null. -/
def nullNode : Node :=
  .scalar none .null "null"

/-- Refuses collections that are too deep inside others. -/
def checkNoting (depth : Nat) : Noting Unit :=
  if Depths.noting < depth then throw .tooDeep else return ()

/-- The node of a value without parts. -/
def scalarNode : Value → Noting Node
  | .bool true => return .scalar none .bool "true"
  | .bool false => return .scalar none .bool "false"
  | .int number => return .scalar none .int (← (integerText number : Except Fault String))
  | .float number => return .scalar none .float (floatForm.write number)
  | .str text => return .scalar none .str text
  | .bytes octets => return .scalar none .binary (String.ofList (wrapped 76 (base64 octets)))
  | .date anchor day => noteOnce anchor fun name => return .scalar name .timestamp day.text
  | .moment anchor point =>
    noteOnce anchor fun name => return .scalar name .timestamp point.text
  | _ => return nullNode

namespace Node

/-- The node of a part of a cell. -/
def notedSlot (notedCell : Nat → Noting Node) : Slot Value → Noting Node
  | .leaf value => scalarNode value
  | .cell place => notedCell place

/-- The node of the collection at a place of a web, inside so many collections. The first argument
bounds the number of collections of the web inside each other. -/
def notedCell (web : Web) : Nat → Nat → Nat → Noting Node
  | 0, _, _ => throw .tooDeep
  | bound + 1, depth, place =>
    let inside := notedSlot (notedCell web bound (depth + 1))
    noteOnce (some place) fun name => do
      checkNoting depth
      match web.cell place with
      | .list items => return .sequence name .seq (← items.mapM inside)
      | .pair first second => return .sequence name .seq (← [first, second].mapM inside)
      | .set items =>
        return .mapping name .set (← items.mapM fun item => return (← inside item, nullNode))
      | .map entries =>
        return .mapping name .map (← entries.mapM fun (key, value) => do
          let name ← inside key
          let content ← inside value
          return (name, content))

mutual

/-- The node of a value inside so many collections, under provisional names. -/
def noted (depth : Nat) : Value → Noting Node
  | .list anchor items =>
    noteOnce anchor fun name => do
      checkNoting depth
      return .sequence name .seq (← notedItems (depth + 1) items)
  | .pair anchor first second =>
    noteOnce anchor fun name => do
      checkNoting depth
      return .sequence name .seq [← noted (depth + 1) first, ← noted (depth + 1) second]
  | .set anchor items =>
    noteOnce anchor fun name => do
      checkNoting depth
      return .mapping name .set (← notedMembers (depth + 1) items)
  | .map anchor entries =>
    noteOnce anchor fun name => do
      checkNoting depth
      return .mapping name .map (← notedEntries (depth + 1) entries)
  | .knot web place => notedCell web (web.size + 1) depth place
  | other => scalarNode other

/-- The nodes of several values. -/
def notedItems (depth : Nat) : List Value → Noting (List Node)
  | [] => return []
  | value :: rest => do
    let first ← noted depth value
    let others ← notedItems depth rest
    return first :: others

/-- The members of a set are keys without a value. -/
def notedMembers (depth : Nat) : List Value → Noting (List (Node × Node))
  | [] => return []
  | value :: rest => do
    let first ← noted depth value
    let others ← notedMembers depth rest
    return (first, nullNode) :: others

/-- The nodes of the entries of a mapping. -/
def notedEntries (depth : Nat) : List (Value × Value) → Noting (List (Node × Node))
  | [] => return []
  | (key, value) :: rest => do
    let name ← noted depth key
    let content ← noted depth value
    let others ← notedEntries depth rest
    return (name, content) :: others

end

/-- The name of the anchor at a place among all anchors. -/
def anchorName (place : Nat) : String :=
  "id" ++ padded 3 (place + 1)

/-- The names of anchors by their provisional names. -/
def anchorNames (node : Node) : List (String × String) :=
  node.aliases.eraseDups.mapIdx fun place name => (name, anchorName place)

/-- The node of a value. -/
def ofValue (value : Value) : Except Fault Node := do
  let node ← (noted 1 value).run' []
  let names := node.anchorNames
  return node.rename fun name => names.lookup name

end Node

end Taskbook.Yaml
