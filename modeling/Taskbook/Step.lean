/-
The steps of a task.

A step either runs a shell command or spawns another task, and never both. It may have
a label that is shown before it runs and variables of its own. A record of a step is a
mapping; what the record says about the command, the task to spawn and the label is
kept as it is, while the variables are checked and turned into texts.
-/

import Taskbook.Env

namespace Taskbook

/-- What a step does. -/
inductive Action where
  | run (command : Value)
  | spawn (target : Value)

/-- One step of a task; a null label is none. -/
structure Step where
  action : Action
  label : Value
  env : Env

namespace Step

/-- The step with the given fields, of which exactly one of the command and the target may be
missing. The environment is checked last. -/
def make (command target label env : Value) : Except Error Step := do
  let action ←
    if command.isNull then
      if target.isNull then Except.error Error.stepAction else Except.ok (Action.spawn target)
    else
      if target.isNull then Except.ok (Action.run command) else Except.error Error.stepAction
  let env ← Env.ofValue env
  return ⟨action, label, env⟩

/-- The step that runs a command. -/
def running (command label env : Value) : Except Error Step :=
  make command .null label env

/-- The step that spawns a task. -/
def spawning (target label env : Value) : Except Error Step :=
  make .null target label env

/-- The task that a step spawns. -/
def target? (step : Step) : Option Value :=
  match step.action with
  | .spawn target => some target
  | .run _ => none

def isSubtask (step : Step) : Bool :=
  step.target?.isSome

/-- The keys that a record of a step may have. -/
def keys : List String :=
  ["name", "exec", "exec_task", "env"]

/-- The keys of a mapping that are not among the given ones. -/
def unsupported (entries : List (Value × Value)) (known : List String) : List Value :=
  (entries.map Prod.fst).filter fun key =>
    match key with
    | .str name => !known.contains name
    | _ => true

/-- Refuses a mapping with keys that are not among the given ones. They are reported in order,
and keys that have no order cannot be reported. -/
def checkKeys (entries : List (Value × Value)) (known : List String)
    (report : List Value → Error) : Except Error Unit :=
  match unsupported entries known with
  | [] => .ok ()
  | keys =>
    match Value.sorted? keys with
    | some ordered => .error (report ordered)
    | none => .error (.fault .wrongType)

/-- A field of a record that must be a mapping if it is given at all. -/
def mappingField (entries : List (Value × Value)) (name : String) (error : Error) :
    Except Error Value :=
  let value := (Value.field entries name).orElse (.ofEntries [])
  if value.isMap then .ok value else .error error

/-- Reads the record of a step. -/
def ofRecord (record : Value) : Except Error Step :=
  match record.entries? with
  | some entries => do
    checkKeys entries keys .stepKeys
    let env ← mappingField entries "env" .stepEnv
    make (Value.field entries "exec") (Value.field entries "exec_task")
      (Value.field entries "name") env
  | none => .error (.stepRecord record)

/-- The record of a step: the label and the variables only where there are any. -/
def record (step : Step) : Value :=
  let label := if step.label.isNull then [] else [(Value.str "name", step.label)]
  let action := match step.action with
    | .run command => [(Value.str "exec", command)]
    | .spawn target => [(Value.str "exec_task", target)]
  let env := if step.env.isEmpty then [] else [(Value.str "env", step.env.toValue)]
  .ofEntries (label ++ action ++ env)

/-- Whether two steps are equal: their fields are, and their variables in whatever order. -/
def same (first second : Step) : Bool :=
  let actions := match first.action, second.action with
    | .run left, .run right => Value.same left right
    | .spawn left, .spawn right => Value.same left right
    | _, _ => false
  actions && Value.same first.label second.label &&
    Value.same first.env.toValue second.env.toValue

end Step

end Taskbook
