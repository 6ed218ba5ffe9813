/-
Manifests as they are saved.

A saved manifest leaves out what says nothing: fields of tasks and steps that are null,
an empty mapping or an empty list, and the shared variables where there are none. Every
task keeps its steps, also when there are none. The shape of what is saved is not
checked beyond what leaving out needs.
-/

import Taskbook.Env
import Taskbook.Yaml.Writer

namespace Taskbook.Manifest

/-- Whether a value says nothing: null, the empty mapping and the empty list. -/
def isVoid (value : Value) : Bool :=
  match value.opened with
  | .null => true
  | .map _ [] => true
  | .list _ [] => true
  | _ => false

/-- The entries of a value that must be a mapping. -/
def entriesOf (value : Value) : Except Fault (Ordered Value Value) :=
  match value.entries? with
  | some entries => .ok entries
  | none => .error .missingPart

/-- The entries of a record that say something. -/
def compact (record : Value) : Except Fault (Ordered Value Value) :=
  (entriesOf record).map fun entries => entries.filter fun entry => !isVoid entry.2

/-- The records of a task's steps without what says nothing. -/
def compactSteps (fields : Ordered Value Value) : Except Fault Value :=
  match ((Value.field fields "steps").orElse (.ofItems [])).elements? with
  | none => .error .wrongType
  | some records => do
    let steps ← records.mapM compact
    return .ofItems (steps.map .ofEntries)

/-- The record of a task without what says nothing, but with its steps. -/
def compactTask (record : Value) : Except Fault Value := do
  let kept ← compact record
  let fields ← entriesOf record
  let steps ← compactSteps fields
  return .ofEntries (kept.put (.str "steps") steps)

/-- An entry of the tasks of a manifest as it is saved. -/
def compactEntry (entry : Value × Value) : Except Fault (Value × Value) := do
  let task ← compactTask entry.2
  return (entry.1, task)

/-- The data that are saved for a manifest. -/
def saved (manifest : Value) : Except Fault Value := do
  let fields ← entriesOf manifest
  let entries ← entriesOf ((Value.field fields "tasks").orElse (.ofEntries []))
  let tasks ← entries.mapM compactEntry
  let env := Value.field fields "env"
  let shared ←
    if env.isTruthy then do
      let entries ← env.layer
      pure [(Value.str "env", Value.ofEntries (Ordered.ofEntries entries))]
    else pure []
  return .ofEntries (shared ++ [(.str "tasks", .ofEntries tasks)])

/-- The text that is saved for a manifest. -/
def text [Depths] (manifest : Value) : Except Fault String := do
  let data ← saved manifest
  Yaml.write ⟨true⟩ data

end Taskbook.Manifest
