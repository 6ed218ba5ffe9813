/-
Changes to tasks and registries in memory.

A task and a registry in memory are changed where they are, step by step. A step that fails
ends a change, and what was changed before it stays changed: failing does not undo anything.
A change is data, so that it can be made of a task by itself or of a task of a registry, which
is looked up first.
-/

import Taskbook.Manifest.Record

namespace Taskbook

/-- A computation that changes a state where it is, and may fail on the way. -/
abbrev InPlace (State α : Type) := ExceptT Error (StateM State) α

/-- Replaces the state by what is made of it, where that succeeds. -/
def InPlace.revise {State : Type} (change : State → Except Error State) : InPlace State Unit := do
  match change (← get) with
  | .ok changed => set changed
  | .error error => throw error

/-! ### Tasks -/

/-- A change to a task. -/
inductive Task.Change where
  /-- Adds a command after all steps. -/
  | run (command label : Value) (env : Argument)
  /-- Adds a command before all steps. -/
  | runFirst (command label : Value) (env : Argument)
  /-- Adds a step that spawns the task of a name. What is no task has none. -/
  | spawn (target? : Option Value) (label : Value) (env : Argument)
  /-- Adds the step that a record describes after all steps. -/
  | addStep (record : Argument)
  /-- Removes all steps and perhaps adds a first command. -/
  | reset (command : Argument)
  /-- Sets a variable. -/
  | setVariable (name text : Value)
  /-- Adds a step that commits what has changed. -/
  | commit (message : Value) (username email add : Argument) (label : Value) (env : Argument)
  /-- Adds a step that pushes a branch. -/
  | push (branch : Value) (tags : Argument) (label : Value) (env : Argument)

namespace Task

/-- Adds the step that a record describes. -/
def addRecord (task : Task) (record : Argument) : Except Error Task := do
  let record ← record.asked
  let step ← Step.ofRecord record
  return task.addStep step

/-- Adds a step that spawns a task, which must be one. -/
def spawnTask (task : Task) (target? : Option Value) (label : Value) (env : Argument) :
    Except Error Task :=
  match target? with
  | some target => do
    let env ← env.asked
    task.spawn target label env
  | none => .error (.fault .missingPart)

/-- Carries out a change on a task. -/
def Change.perform : Change → InPlace Task Unit
  | run command label env => InPlace.revise fun task => do
    let env ← env.asked
    task.run command label env
  | runFirst command label env => InPlace.revise fun task => do
    let env ← env.asked
    task.runFirst command label env
  | spawn target? label env => InPlace.revise (·.spawnTask target? label env)
  | addStep record => InPlace.revise (·.addRecord record)
  | reset command => do
    modify fun task => { task with steps := [] }
    InPlace.revise (·.seed command)
  | setVariable name text => InPlace.revise (·.setVariable name text)
  | commit message username email add label env =>
    InPlace.revise (·.commit message username email add label env)
  | push branch tags label env => InPlace.revise (·.push branch tags label env)

end Task

/-! ### Registries -/

/-- A registry in memory, and the log records that were written so far. -/
structure Memory where
  registry : Registry
  records : List Record

/-- Replaces the registry by what is made of it, where that succeeds. What is written to the log
on the way is written in any case. -/
def Memory.revise {α : Type} (change : Registry → Logged (Registry × α)) : InPlace Memory α := do
  let memory ← get
  let outcome := change memory.registry
  let records := memory.records ++ outcome.records
  match outcome.result with
  | .ok (changed, result) =>
    set (⟨changed, records⟩ : Memory)
    return result
  | .error error =>
    set (⟨memory.registry, records⟩ : Memory)
    throw error

/-- A change to a registry. -/
inductive Registry.Change where
  /-- Adds a task, perhaps with a first command. -/
  | add (name : Value) (command : Argument) (description category condition : Value)
    (env : Argument)
  /-- Sets a variable that all tasks share. -/
  | setVariable (name text : Value)
  /-- Takes a task out. -/
  | remove (name : Value)
  /-- Puts the registry that a manifest describes in the place of this one. -/
  | replace (manifest : Argument)
  /-- Changes the task that a value names. -/
  | edit (name : Value) (change : Task.Change)

namespace Registry

/-- Carries out a change on the task that a value names. -/
def performOn (name : Value) (change : Task.Change) : InPlace Memory Task := do
  let memory ← get
  match memory.registry.find name with
  | .ok (text, task) =>
    let (outcome, changed) := change.perform task
    set { memory with registry := memory.registry.put text changed }
    match outcome with
    | .ok () => return changed
    | .error error => throw error
  | .error error => throw error

/-- Carries out a change on a registry; gives the task that was added, taken out or changed. -/
def Change.perform : Change → InPlace Memory (Option Task)
  | add name command description category condition env =>
    Memory.revise fun registry => do
      let (changed, task) ← registry.addTask name command description category condition env
      return (changed, some task)
  | setVariable name text =>
    Memory.revise fun registry => do
      let changed ← registry.setVariable name text
      return (changed, none)
  | remove name =>
    Memory.revise fun registry => do
      let (changed, task) ← registry.removeTask name
      return (changed, some task)
  | replace manifest =>
    Memory.revise fun _ => do
      let manifest ← manifest.asked
      let changed ← ofManifest manifest
      return (changed, none)
  | edit name change => do
    let task ← performOn name change
    return some task

end Registry

/-- What changes make of a registry in memory, one after the other. One that fails does not keep
the others from being made. -/
def Memory.after (memory : Memory) (changes : List Registry.Change) : Memory :=
  changes.foldl (fun memory change => (change.perform memory).2) memory

end Taskbook
