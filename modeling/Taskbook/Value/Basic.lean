/-
The data that manifests and configurations are made of.

A manifest is read from a text whose scalars may be of any type, and much of it is
kept without being looked at: a description may be a number, a step may name a list.
So there is one type of dynamic values. Mappings keep the order in which their keys
were written.

A text can refer to one value from several places. So values that are read have anchors:
those with one number are one and the same value.

A collection can even be part of itself. The collections of a text where that is so are
the cells of a web: each has a place in it, and a part of a cell is a value without parts
or the place of another cell. A collection of a web is known by the web and its place,
and opening it gives a collection of the usual kind whose parts are in the web still.
-/

import Taskbook.Calendar

namespace Taskbook

/-- A part of a cell: a value without parts, or the cell at a place. -/
inductive Slot (α : Type) where
  | leaf (value : α)
  | cell (place : Nat)

/-- A collection of a web. -/
inductive Cell (α : Type) where
  | list (items : List (Slot α))
  | pair (first second : Slot α)
  | set (items : List (Slot α))
  | map (entries : List (Slot α × Slot α))

/-- A value of a manifest or a configuration. -/
inductive Value where
  | null
  | bool (truth : Bool)
  | int (number : Int)
  | float (number : Float)
  | str (text : String)
  | bytes (octets : List UInt8)
  | date (anchor : Option Nat) (day : Day)
  | moment (anchor : Option Nat) (point : Moment)
  | list (anchor : Option Nat) (items : List Value)
  | pair (anchor : Option Nat) (first second : Value)
  | set (anchor : Option Nat) (items : List Value)
  | map (anchor : Option Nat) (entries : List (Value × Value))
  /-- The collection at a place of a web. -/
  | knot (web : Array (Cell Value)) (place : Nat)
  deriving Inhabited

/-- Collections that may be parts of themselves and of each other. -/
abbrev Web := Array (Cell Value)

namespace Web

/-- The collection at a place; where there is none, an empty list. -/
def cell (web : Web) (place : Nat) : Cell Value :=
  web.getD place (.list [])

/-- The value of a part of a cell. -/
def part (web : Web) : Slot Value → Value
  | .leaf value => value
  | .cell place => .knot web place

end Web

namespace Value

/-- A list that occurs once. -/
def ofItems (items : List Value) : Value :=
  list none items

/-- A mapping that occurs once. -/
def ofEntries (entries : List (Value × Value)) : Value :=
  map none entries

/-- A value with its parts at hand: a collection of a web is opened, its place being its anchor. -/
def opened : Value → Value
  | knot web place =>
    match Web.cell web place with
    | .list items => list (some place) (items.map (Web.part web))
    | .pair first second => pair (some place) (Web.part web first) (Web.part web second)
    | .set items => set (some place) (items.map (Web.part web))
    | .map entries =>
      map (some place) (entries.map fun (key, value) => (Web.part web key, Web.part web value))
  | other => other

/-- The name of a value's type. -/
def typeName (value : Value) : String :=
  match value.opened with
  | null => "NoneType"
  | bool _ => "bool"
  | int _ => "int"
  | float _ => "float"
  | str _ => "str"
  | bytes _ => "bytes"
  | date .. => "date"
  | moment .. => "datetime"
  | list .. => "list"
  | pair .. => "tuple"
  | set .. => "set"
  | map .. => "dict"
  | knot .. => ""

/-- Whether a value counts as given: null, false, zero and everything empty do not. -/
def isTruthy (value : Value) : Bool :=
  match value.opened with
  | null => false
  | bool truth => truth
  | int number => number != 0
  | float number => !(number == 0.0)
  | str text => !text.isEmpty
  | bytes octets => !octets.isEmpty
  | list _ items => !items.isEmpty
  | set _ items => !items.isEmpty
  | map _ entries => !entries.isEmpty
  | _ => true

def isNull : Value → Bool
  | null => true
  | _ => false

/-- The value, or another where it does not count as given. -/
def orElse (value other : Value) : Value :=
  if value.isTruthy then value else other

/-- Whether a value can be the key of a mapping: collections that can grow cannot, and neither can
those of a web. -/
def isKey : Value → Bool
  | list .. => false
  | set .. => false
  | map .. => false
  | knot .. => false
  | pair _ first second => first.isKey && second.isKey
  | _ => true

/-! ### Parts of collections -/

/-- The items of a list; none for other values. -/
def items? (value : Value) : Option (List Value) :=
  match value.opened with
  | list _ items => some items
  | _ => none

/-- The entries of a mapping; none for other values. -/
def entries? (value : Value) : Option (List (Value × Value)) :=
  match value.opened with
  | map _ entries => some entries
  | _ => none

/-- Whether a value is a mapping. -/
def isMap (value : Value) : Bool :=
  value.entries?.isSome

/-- The value of a text key in the entries of a mapping. -/
def field? (entries : List (Value × Value)) (name : String) : Option Value :=
  match entries with
  | [] => none
  | (str key, value) :: rest => if key = name then some value else field? rest name
  | _ :: rest => field? rest name

/-- The value of a text key in the entries of a mapping, null if it has none. -/
def field (entries : List (Value × Value)) (name : String) : Value :=
  (field? entries name).getD null

end Value

end Taskbook
