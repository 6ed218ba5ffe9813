/-
The tasks of a project, each known by its name.

A registry keeps its tasks in the order in which they were added, and variables that
all of them share. Names are checked when a task is added, and no two tasks have the
same name.
-/

import Taskbook.Log
import Taskbook.Task

namespace Taskbook

/-- The tasks of a project by their names and the variables they share. -/
structure Registry where
  env : Env
  tasks : Ordered String Task

namespace Registry

/-- The registry without tasks whose shared variables a value describes. -/
def create (env : Value) : Except Error Registry := do
  let env ← Env.ofValue env
  return ⟨env, []⟩

/-- The names of all tasks in order. -/
def names (registry : Registry) : List String :=
  registry.tasks.keys

/-- The entry of the task that a value names. Only texts name tasks, and a collection cannot
even be looked up. -/
def resolve (registry : Registry) (name : Value) : Except Fault (Option (String × Task)) :=
  match name with
  | .str text => .ok (List.find? (fun entry => entry.1 = text) registry.tasks)
  | other => if other.isKey then .ok none else .error .wrongType

/-- Whether a value names a task. -/
def contains (registry : Registry) (name : Value) : Except Fault Bool := do
  let entry? ← registry.resolve name
  return entry?.isSome

/-- The entry of the task that a value names, which must be there. -/
def find (registry : Registry) (name : Value) : Except Error (String × Task) := do
  match ← registry.resolve name with
  | some entry => return entry
  | none => throw (.taskMissing name)

/-- Sets a variable that all tasks share. -/
def setVariable (registry : Registry) (name value : Value) : Except Error Registry := do
  let env ← registry.env.assign name value
  return { registry with env := env }

/-- Refuses what cannot name a task. -/
def checkName (name : Value) : Except Error String :=
  match name with
  | .str text => if isTaskName text then .ok text else .error (.taskName name)
  | _ => .error (.taskName name)

/-- Puts a task in the place of the one of a name, or after all others if there is none. -/
def put (registry : Registry) (name : String) (task : Task) : Registry :=
  { registry with tasks := registry.tasks.put name task }

/-- Adds a task with the given fields and perhaps a first command. -/
def addTask (registry : Registry) (name : Value) (command : Argument)
    (description category condition : Value) (env : Argument) : Logged (Registry × Task) := do
  let text ← checkName name
  if registry.names.contains text then Logged.fail (.nameTaken text)
  let task ← Task.create name description category condition env command
  Logged.write (.debug .registry ("Added task " ++ text))
  return (registry.put text task, task)

/-- Takes out the task that a value names. -/
def removeTask (registry : Registry) (name : Value) : Logged (Registry × Task) := do
  let (text, task) ← registry.find name
  Logged.write (.debug .registry ("Removed task " ++ text))
  return ({ registry with tasks := registry.tasks.filter fun entry => entry.1 ≠ text }, task)

/-- Whether a step of the task spawns what the value names. -/
def spawns (task : Task) (name : Value) : Bool :=
  task.steps.any fun step => Value.same (step.target?.getD .null) name

/-- The names of the tasks that spawn what the value names. -/
def referrers (registry : Registry) (name : Value) : List String :=
  (registry.tasks.filter fun entry => spawns entry.2 name).map Prod.fst

end Registry

end Taskbook
