/-
Choosing a task by its number.

Where no picker can be used, the tasks are listed with numbers and a number is asked for.
Nothing is chosen by zero, by what is no number of the list, and at the end of the input.
A blank answer stands for the first task. An input that cannot be read, as one whose octets
are no text, makes choosing fail.
-/

import Taskbook.Choice.Picker
import Taskbook.Number.Numeral
import Taskbook.Operation

namespace Taskbook.Choice

/-- What comes of reading a line of the input. -/
inductive Answer where
  /-- A line, without its end. -/
  | line (text : String)
  /-- The input is at its end, or was interrupted. -/
  | ended
  /-- The input cannot be read or decoded. -/
  | unread (fault : Fault)
  deriving DecidableEq, Repr

/-- The answer that a line is; none is the end of the input. -/
def Answer.ofLine? : Option String → Answer
  | some text => .line text
  | none => .ended

instance : Coe (Option String) Answer := ⟨Answer.ofLine?⟩

/-- The title where none is given. -/
def usualTitle : String := "Select task"

/-- Warns that no picker can be used; without a reason there is no warning. -/
def notifyFallback (unavailable : Unavailable) : Operation Unit :=
  if unavailable.reason.isEmpty then return ()
  else
    Operation.notify
      ("Warning: " ++ unavailable.reason ++ "; falling back to numeric prompts.")

/-- Lists some tasks with their numbers. -/
def tellList (title : String) (tasks : List Task) : Operation Unit := do
  Operation.tell title
  tasks.zipIdx.forM fun (task, index) => do
    let label ← label task
    Operation.tell (toString (index + 1) ++ ". " ++ label)
  Operation.tell "0. cancel"

/-- What is asked for, with the answer that a blank one stands for. -/
def question : Report :=
  .question "Enter number [1]: "

/-- The answer that a blank one stands for. -/
def usualAnswer : String := "1"

/-- The name of the task of a number in the list. -/
def numbered? (tasks : List Task) (number : Int) : Option Value :=
  if 1 ≤ number then (tasks[number.toNat - 1]?).map Task.name else none

/-- The name of the task that an answer names by its number. -/
def answered? (tasks : List Task) (answer : String) : Option Value :=
  let given := if answer.isEmpty then usualAnswer else answer
  (Number.readInt? 10 given).bind (numbered? tasks)

/-- Lets a person choose a task by its number. -/
def chooseNumber (answer : Answer) (title : String) (tasks : List Task) :
    Operation (Option Value) := do
  tellList title tasks
  Operation.report [question]
  match answer with
  | .line line => do
    Operation.report [.reply line]
    return answered? tasks line
  | .ended => return none
  | .unread fault => throw (.fault fault)

/-- Lets a person choose one of some tasks and gives its name. -/
def choose (picker : Picker) (answer : Answer) (title : String) (tasks : List Task) :
    Operation (Option Value) := do
  match select picker title tasks .null with
  | .ok chosen => return chosen
  | .error unavailable => do
    notifyFallback unavailable
    chooseNumber answer title tasks

end Taskbook.Choice
