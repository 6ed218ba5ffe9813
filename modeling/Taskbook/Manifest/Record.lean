/-
Manifests: registries as data.

A manifest is a mapping with the shared variables and the tasks by name. Reading one
builds a registry and checks what the registry has to rely on: the shape of the records,
their keys, the names, the bands and the variables. Descriptions, conditions, labels and
commands are taken as they are. Writing a registry gives every field of every task.
-/

import Taskbook.Registry

namespace Taskbook

namespace Registry

/-- The fields that the record of a task may have. -/
def taskKeys : List String :=
  ["name", "category", "description", "env", "steps", "condition"]

/-- The records of a task's steps. -/
def stepRecords (task : String) (fields : List (Value × Value)) : Except Error (List Value) :=
  match ((Value.field fields "steps").orElse (.ofItems [])).items? with
  | some records => .ok records
  | none => .error (.taskSteps task)

/-- Checks the shape of a task's record and gives its fields, its environment and its steps'
records. -/
def checkRecord (task : String) (record : Value) :
    Except Error (List (Value × Value) × Value × List Value) :=
  match record.entries? with
  | some fields => do
    Step.checkKeys fields taskKeys (.taskKeys task)
    let declared := (Value.field? fields "name").getD (.str task)
    if !Value.same declared (.str task) then throw (.declaredName task declared)
    let env ← Step.mappingField fields "env" (.taskEnv task)
    let steps ← stepRecords task fields
    return (fields, env, steps)
  | none => .error (.taskRecord task)

/-- Adds the task that an entry of a manifest describes. The task is known by the text of its
key. -/
def addEntry (registry : Registry) (entry : Value × Value) : Logged Registry := do
  let name ← entry.1.text
  let (fields, env, steps) ← checkRecord name entry.2
  let (extended, task) ← registry.addTask (.str name) .null (Value.field fields "description")
    (Value.field fields "category") (Value.field fields "condition") env
  let steps ← (steps.mapM Step.ofRecord : Except Error (List Step))
  return extended.put name { task with steps := task.steps ++ steps }

/-- Reads a manifest. -/
def ofManifest (manifest : Value) : Logged Registry :=
  match manifest.entries? with
  | some fields => do
    let env ← Step.mappingField fields "env" .manifestEnv
    let registry ← create env
    match ((Value.field fields "tasks").orElse (.ofEntries [])).entries? with
    | some entries => entries.foldlM addEntry registry
    | none => Logged.fail .manifestTasks
  | none => Logged.fail .manifestRecord

/-- The manifest of a registry, with all fields of all tasks. -/
def manifest (registry : Registry) : Value :=
  .ofEntries
    [(.str "env", registry.env.toValue),
      (.str "tasks", .ofEntries (registry.tasks.map fun entry =>
        (.str entry.1, entry.2.record)))]

end Registry

end Taskbook
