/-
Picking a task from a list.

A picker is a part of the terminal that shows a list and lets a person pick from it. It
may give a value, be left without one, or fail; and there may be none. A picker is only
shown when there is something to pick from. That no picker can be used is not an error
of the program: the caller asks in another way.
-/

import Taskbook.Task

namespace Taskbook.Choice

/-- A task as it is offered. -/
def label (task : Task) : Except Fault String := do
  let head := (← task.name.text) ++ " [" ++ Category.label task.category ++ "]"
  if task.description.isTruthy then return head ++ " " ++ (← task.description.text)
  else return head

/-- What a picker is asked to show: a title and names by their labels. -/
structure PickerRequest where
  title : String
  choices : List (String × Value)
  preset : Value

/-- What comes of showing a picker. -/
inductive Picked where
  /-- A value was picked; null is none. -/
  | value (value : Value)
  /-- The person left the picker. -/
  | left
  /-- The picker failed, with a text that says why. -/
  | failed (reason : String)

/-- A picker, or the reason why there is none. -/
inductive Picker where
  | working (pick : PickerRequest → Picked)
  | absent (reason : String)

/-- Why no picker can be shown. -/
structure Unavailable where
  reason : String
  deriving DecidableEq, Repr

/-- There is no picker where the input or the output is not a terminal. -/
def noTerminal : String := "interactive selector requires a TTY"

/-- Refuses to show a picker where the input or the output is not a terminal. -/
def checkTerminal (input output : Bool) : Except Unavailable Unit :=
  if input && output then .ok () else .error ⟨noTerminal⟩

/-- A task as a choice: its label and its name. -/
def choice (task : Task) : Except Fault (String × Value) := do
  return (← label task, task.name)

/-- What a picker is asked to show for some tasks. -/
def request (title : String) (tasks : List Task) (preset : Value) : Except Fault PickerRequest := do
  return ⟨title, ← tasks.mapM choice, preset⟩

/-- A picker that fails cannot be used. -/
def failed (reason : String) : Unavailable :=
  ⟨"selector runtime failed: " ++ reason⟩

/-- What a picker fails with that is asked to show what cannot be written. -/
def unwritable : String := "a label cannot be written"

/-- The name that is picked, if one is. -/
def outcome : Picked → Except Unavailable (Option Value)
  | .value value =>
    if value.isNull then .ok none
    else
      match value.text with
      | .ok text => .ok (some (.str text))
      | .error _ => .error (failed unwritable)
  | .left => .ok none
  | .failed reason => .error (failed reason)

/-- The requests that a picker is shown for some tasks: one, if there are any. -/
def requests (picker : Picker) (title : String) (tasks : List Task) (preset : Value) :
    List PickerRequest :=
  match picker with
  | .working _ => if tasks.isEmpty then [] else (request title tasks preset).toOption.toList
  | .absent _ => []

/-- Lets a person pick one of some tasks. -/
def select (picker : Picker) (title : String) (tasks : List Task) (preset : Value) :
    Except Unavailable (Option Value) :=
  if tasks.isEmpty then .ok none
  else
    match picker with
    | .absent reason => .error ⟨reason⟩
    | .working pick =>
      match request title tasks preset with
      | .ok request => outcome (pick request)
      | .error _ => .error (failed unwritable)

end Taskbook.Choice
