/-
Lists of tasks.

A list is a table with a row for each task. As plain text the columns have fixed widths:
a cell that is too long is cut and ends in an ellipsis, a shorter one is padded, and the
blanks at the end of a line are dropped. For a terminal it is a table with styles, and
as JSON the records of the tasks.

A description need not be a text. One that is shown as it is must be, but what is cut
off a list is a text again.
-/

import Taskbook.Task
import Taskbook.Value.Json
import Taskbook.View.Styled

namespace Taskbook.View

/-- A column that is asked for. -/
structure ColumnRequest where
  name : String
  width : Value

/-- The columns of a list where none are asked for. -/
def usualColumns : List ColumnRequest :=
  [⟨"name", .int 24⟩, ⟨"category", .int 10⟩, ⟨"steps", .int 5⟩, ⟨"description", .int 40⟩]

/-- The columns asked for, or the usual ones. -/
def columnsOrUsual (columns : List ColumnRequest) : List ColumnRequest :=
  if columns.isEmpty then usualColumns else columns

/-- What is shown for an empty list. -/
def noTasks : String := "No tasks found."

/-- The whole number of a float, cut towards zero. -/
def truncated (number : Float) : Except Fault Int :=
  match dyadicOfFloat? number with
  | some dyadic => .ok (dyadic.numerator.tdiv (Int.ofNat (Nat.pow 2 dyadic.shift)))
  | none => if number == number then .error .tooLarge else .error .wrongValue

/-- The width of a column as a whole number. -/
def ColumnRequest.columns (request : ColumnRequest) : Except Fault Int :=
  match request.width with
  | .int width => .ok width
  | .bool truth => .ok (if truth then 1 else 0)
  | .float width => truncated width
  | .str text =>
    match Number.readInt? 10 text with
    | some width => .ok width
    | none => .error .wrongValue
  | _ => .error .wrongType

/-- The value of a task in a column. -/
def cellValue (task : Task) (column : String) : Except Fault Value :=
  match column with
  | "name" => .ok task.name
  | "category" => .ok (.str (Category.label task.category))
  | "steps" => .ok (.str (toString task.steps.length))
  | "description" => .ok (task.description.orElse (.str ""))
  | _ => .error .missingKey

/-- The mark of a text that was cut. -/
def ellipsis : String := "…"

/-- A text cut to a width. -/
def cut (text : String) (width : Int) : String :=
  if width ≤ 0 then ""
  else if Text.length text ≤ width then text
  else if width = 1 then ellipsis
  else Text.take (width - 1).toNat text ++ ellipsis

/-- How many parts a value has, if it has any. -/
def partCount? (value : Value) : Option Nat :=
  value.elements?.map List.length

/-- The literal of the first parts of a value that can be cut. -/
def cutLiteral (value : Value) (count : Nat) : Except Fault String :=
  match value with
  | .bytes octets => (Value.bytes (octets.take count)).literal
  | other =>
    match other.items? with
    | some items => (Value.ofItems (items.take count)).literal
    | none => .error .wrongType

/-- A value cut to a width. What need not be cut must be a text. -/
def cutValue (value : Value) (width : Int) : Except Fault String :=
  match value with
  | .str text => .ok (cut text width)
  | other =>
    if width ≤ 0 then .ok ""
    else
      match partCount? other with
      | none => .error .wrongType
      | some count =>
        if (count : Int) ≤ width then
          match other with
          | .bytes _ => .error .wrongType
          | _ => .error .missingPart
        else if width = 1 then .ok ellipsis
        else (cutLiteral other (width - 1).toNat).map (· ++ ellipsis)

/-- The greatest width that can be counted in. -/
def greatestWidth : Int := 0x7FFFFFFFFFFFFFFF

/-- The greatest width for which a usual machine has room. -/
def usualRoom : Nat := 0xFFFFFFFF

/-- Refuses a width that cannot be counted in, and one for which there is no room. -/
def checkWidth (room : Nat) (width : Int) : Except Fault Unit :=
  if width < -greatestWidth - 1 || greatestWidth < width then .error .tooLarge
  else if room < width then .error .outOfMemory
  else .ok ()

/-- So many characters as a width asks for beyond a count. -/
def filling (room : Nat) (width : Int) (count : Nat) (character : Char) :
    Except Fault String := do
  checkWidth room width
  return String.ofList (List.replicate (width.toNat - count) character)

/-- A text with blanks after it up to a width. -/
def padTo (room : Nat) (width : Int) (text : String) : Except Fault String := do
  return text ++ (← filling room width (Text.length text) ' ')

/-- The cells of a line with two blanks between them. -/
def joinCells (cells : List String) : String :=
  "  ".intercalate cells

/-- The width of a column: that of the last request for its name. -/
def widthOf (widths : List (String × Int)) (name : String) : Int :=
  ((widths.reverse.find? fun entry => entry.1 = name).map Prod.snd).getD 0

/-- The line of a task. -/
def taskLine (room : Nat) (widths : List (String × Int)) (task : Task) :
    Except Fault String := do
  let cells ← widths.mapM fun (name, _) => do
    let value ← cellValue task name
    let shown ← cutValue value (widthOf widths name)
    padTo room (widthOf widths name) shown
  return Text.stripEnd (joinCells cells)

/-- A list as plain text, on a machine with room for columns up to a width. -/
def plainListWithin (room : Nat) (tasks : List Task) (columns : List ColumnRequest) :
    Except Fault String :=
  if tasks.isEmpty then .ok noTasks
  else do
    let widths ← (columnsOrUsual columns).mapM fun request => do
      let width ← request.columns
      return (request.name, width)
    let header ← widths.mapM fun (name, _) =>
      padTo room (widthOf widths name) (cut name (widthOf widths name))
    let ruler ← widths.mapM fun (name, _) => filling room (widthOf widths name) 0 '-'
    let lines ← tasks.mapM (taskLine room widths)
    return "\n".intercalate (Text.stripEnd (joinCells header) :: joinCells ruler :: lines)

/-- A list as plain text, on a usual machine. -/
def plainList (tasks : List Task) (columns : List ColumnRequest) : Except Fault String :=
  plainListWithin usualRoom tasks columns

/-- How a column of a list is set; the description takes the width that is left. -/
def listColumn (request : ColumnRequest) : Except Fault Column := do
  let minWidth ←
    if request.name = "description" then pure none
    else do
      let width ← request.columns
      pure (some width)
  return ⟨request.name, if request.name = "name" then "bold" else "",
    if request.name = "steps" then "right" else "left", minWidth⟩

/-- The cells of a task, of which only texts can be shown; null leaves a cell empty. All are made
before any is shown. -/
def listRow (columns : List ColumnRequest) (task : Task) : Except Fault (List Cell) := do
  let values ← columns.mapM fun request => do
    let value ← cellValue task request.name
    return (request.name, value)
  values.mapM fun (name, value) =>
    match value with
    | .str text =>
      if name = "category" then .ok (.styled (.ofText text (Category.style task.category)))
      else .ok (.text text)
    | .null => .ok (.text "")
    | _ => .error .notRenderable

/-- A list for a terminal. -/
def styledList (tasks : List Task) (columns : List ColumnRequest) : Except Fault Display :=
  if tasks.isEmpty then .ok (.line noTasks)
  else do
    let requests := columnsOrUsual columns
    let columns ← requests.mapM listColumn
    let rows ← tasks.mapM (listRow requests)
    return .table columns rows

/-- A list as JSON. -/
def jsonList (tasks : List Task) : Except Fault String :=
  (Value.ofItems (tasks.map Task.record)).json

end Taskbook.View
