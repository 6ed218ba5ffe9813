/-
Changes to the tasks of a project.

A change is data: it can be checked by itself, applied to a registry, and carried out on
the manifest of a project, which loads the registry, applies the change and saves the
result. Applied to a registry it gives the changed one together with the task that was
created or edited, if there is such a task. A step that spawns a task is only added where
the task is there, and a task that others spawn is only removed by force.
-/

import Taskbook.Project.Store

namespace Taskbook

/-- A change to the tasks of a project. -/
inductive Edit where
  /-- Adds a task, perhaps with a first command. -/
  | create (name command description category condition env : Value)
  /-- Adds a command before or after the steps of a task. -/
  | addCommand (name command : Value) (first : Bool) (label env : Value)
  /-- Adds a step that spawns a task. -/
  | addSubtask (name target label env : Value)
  /-- Removes the steps of a task and perhaps adds a first command. -/
  | reset (name command : Value)
  /-- Sets a variable of a task. -/
  | setVariable (name key text : Value)
  /-- Sets a variable that all tasks share. -/
  | setSharedVariable (key text : Value)
  /-- Removes a task. -/
  | remove (name : Value) (forced : Bool)

namespace Edit

/-- Refuses a change that is wrong whatever the tasks are. -/
def check : Edit → Except Error Unit
  | addCommand _ command _ _ _ =>
    match command with
    | .str text => if Text.isBlankText text then .error .commandBlank else .ok ()
    | .bytes octets => if octets.all Text.isBlankOctet then .error .commandBlank else .ok ()
    | _ => .error (.fault .missingPart)
  | addSubtask name target _ _ =>
    if Value.same target name then .error (.spawnsItself name) else .ok ()
  | _ => .ok ()

/-- Changes the task that a value names. -/
def changeTask (registry : Registry) (name : Value) (change : Task → Except Error Task) :
    Except Error (Registry × Option Task) := do
  let (text, task) ← registry.find name
  let changed ← change task
  return (registry.put text changed, some changed)

/-- Refuses to remove a task that others spawn. -/
def checkUnspawned (registry : Registry) (name : String) : Except Error Unit :=
  match (registry.referrers (.str name)).filter (· ≠ name) with
  | [] => .ok ()
  | referrers => .error (.stillSpawned name referrers)

/-- The registry after a change, and the task that was created or edited. -/
def apply (registry : Registry) : Edit → Logged (Registry × Option Task)
  | create name command description category condition env => do
    let _ ← Category.parse category
    let (changed, task) ← registry.addTask name command (description.orElse .null) category
      (condition.orElse .null) env
    return (changed, some task)
  | addCommand name command first label env =>
    changeTask registry name fun task =>
      if first then task.runFirst command label env else task.run command label env
  | addSubtask name target label env =>
    changeTask registry name fun task => do
      let (subtask, _) ← registry.find target
      task.spawn (.str subtask) label env
  | reset name command => changeTask registry name fun task => task.reset command
  | setVariable name key text =>
    changeTask registry name fun task => task.setVariable key text
  | setSharedVariable key text => do
    let changed ← registry.setVariable key text
    return (changed, none)
  | remove name forced => do
    let (text, _) ← registry.find name
    if !forced then checkUnspawned registry text
    let (changed, _) ← registry.removeTask name
    return (changed, none)

/-- What the log says of a change to a task that has been saved. -/
def entryOf (name : Value) (done : String) : Except Fault (List Record) :=
  name.text.map fun text => [.info .editing (done ++ " task " ++ text)]

/-- The records of a change that has been saved. Most changes leave none. -/
def records : Edit → Except Fault (List Record)
  | create name .. => entryOf name "Created"
  | remove name _ => entryOf name "Removed"
  | _ => .ok []

end Edit

namespace Project

/-- Carries out a change; gives the task that was created or edited. -/
def edit [Depths] (project : Project) (change : Edit) : Operation (Option Task) := do
  change.check
  let files ← Operation.files
  let registry ← project.load files
  let (changed, task?) ← change.apply registry
  project.save changed
  Operation.report ((← change.records).map .record)
  return task?

end Project

end Taskbook
