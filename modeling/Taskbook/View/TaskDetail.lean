/-
One task in full.

The detail of a task names it and its band, its condition, its variables, what it spawns
and its steps, and the command it compiles to where that is asked for. Whether a spawned
task is there is its state, which is shown unless all is well.
-/

import Taskbook.Task
import Taskbook.Value.Json
import Taskbook.View.Styled

namespace Taskbook.View

/-- What a step spawns, and whether it is there. -/
structure Spawned where
  name : Value
  state : Value

/-- The state of a task that is there. -/
def present : String := "ok"

/-- The state of a task that is not there. -/
def missing : String := "missing"

/-- Whether a spawned task is there. -/
def Spawned.isPresent (spawned : Spawned) : Bool :=
  Value.same spawned.state (.str present)

/-- A value in a sentence, or a hyphen where none is given. -/
def orHyphen (value : Value) : Except Fault String :=
  if value.isTruthy then value.text else .ok "-"

/-- Variables with their values, with a separator between them. -/
def envPairs (separator : String) (env : Env) : String :=
  separator.intercalate (env.map fun (name, text) => name ++ "=" ++ text)

/-- The variables of a task. -/
def envLine (env : Env) : String :=
  if env.isEmpty then "-" else envPairs ", " env

/-- A step in one line. -/
def stepLine (step : Step) : Except Fault String := do
  let action ← match step.action with
    | .spawn target => pure ("spawn: " ++ (← target.text))
    | .run command => pure ("exec: " ++ (← command.text))
  let label ← if step.label.isTruthy then pure ("  [" ++ (← step.label.text) ++ "]") else pure ""
  let env := if step.env.isEmpty then "" else "  env(" ++ envPairs " " step.env ++ ")"
  return action ++ label ++ env

/-- The steps of a task, numbered from one. -/
def stepLines (task : Task) : Except Fault (List String) :=
  task.steps.zipIdx.mapM fun (step, index) => do
    return "  " ++ toString (index + 1) ++ ". " ++ (← stepLine step)

def noSteps : String := "  (none)"

/-- The band of a task in brackets. -/
def bandText (task : Task) : String :=
  "[" ++ Category.label task.category ++ "]"

/-- A spawned task as a value in a line, with its state unless it is there. -/
def spawnedWord (spawned : Spawned) : Except Fault Value := do
  if spawned.isPresent then return spawned.name
  else return .str ((← spawned.name.text) ++ " [" ++ (← spawned.state.text) ++ "]")

/-- What a task spawns, in one line. Only texts can stand in it. -/
def spawnedLine (spawned : List Spawned) : Except Fault String := do
  if spawned.isEmpty then return "-"
  let words ← spawned.mapM spawnedWord
  return ", ".intercalate (← words.mapM Error.textOnly)

/-- The lines of a task in full. -/
def detailLines (task : Task) (spawned : List Spawned) (command : Option String) :
    Except Fault (List String) := do
  let description ← if task.description.isTruthy then task.description.text else pure ""
  let condition ← orHyphen task.condition
  let spawned ← spawnedLine spawned
  let steps ← if task.steps.isEmpty then pure [noSteps] else stepLines task
  let name ← Error.textOnly task.name
  let head :=
    [name, Text.stripEnd (bandText task ++ " " ++ description), "condition: " ++ condition,
      "env: " ++ envLine task.env, "spawns: " ++ spawned, "", "steps:"]
  let tail := match command with
    | some text => ["", "command:", text]
    | none => []
  return head ++ steps ++ tail

/-- A task in full as plain text. -/
def plainDetail (task : Task) (spawned : List Spawned) (command : Option String) :
    Except Fault String := do
  let lines ← detailLines task spawned command
  return "\n".intercalate lines

/-- Adds a value, which must be a text, in a style. -/
def appendOnly (styled : Styled) (value : Value) (style : String) : Except Fault Styled := do
  let text ← Error.textOnly value
  return styled.append text style

/-- The title of a task: its name, its band and its description. -/
def styledTitle (task : Task) : Except Fault Styled := do
  let named ← appendOnly (.plain "") task.name "bold"
  let title := (named.append " " "").append (bandText task) (Category.style task.category)
  if task.description.isTruthy then return title.append (" " ++ (← task.description.text)) "dim"
  else return title

/-- Adds one spawned task to a styled line. -/
def appendSpawned (line : Styled) (entry : Spawned) : Except Fault Styled := do
  if entry.isPresent then appendOnly line entry.name "cyan"
  else
    let named ← appendOnly line entry.name "bold red"
    return named.append (" [" ++ (← entry.state.text) ++ "]") "red"

/-- Adds the spawned tasks after the first one, each behind a comma. -/
def appendFurther (line : Styled) : List Spawned → Except Fault Styled
  | [] => .ok line
  | entry :: rest => do
    let extended ← appendSpawned (line.append ", " "") entry
    appendFurther extended rest

/-- What a task spawns, in one styled line. -/
def styledSpawned (spawned : List Spawned) : Except Fault Styled :=
  let line := Styled.plain "spawns: "
  match spawned with
  | [] => .ok (line.append "-" "")
  | entry :: rest => do
    let started ← appendSpawned line entry
    appendFurther started rest

/-- A task in full for a terminal. -/
def styledDetail (task : Task) (spawned : List Spawned) (command : Option String) :
    Except Fault Display := do
  let title ← styledTitle task
  let spawnedLine ← styledSpawned spawned
  let condition ← orHyphen task.condition
  let steps ←
    if task.steps.isEmpty then pure [.ofText noSteps "dim"]
    else (← stepLines task).mapM fun line => pure (.plain line)
  let head :=
    [title, .plain ("condition: " ++ condition), .plain ("env: " ++ envLine task.env),
      spawnedLine, .plain "", .ofText "steps:" "bold"]
  let tail := match command with
    | some text => [.plain "", .ofText "command:" "bold", .ofText text "green"]
    | none => []
  return .group (head ++ steps ++ tail)

/-- A task in full as JSON. -/
def jsonDetail (task : Task) (spawned : List Spawned) (command : Option String) :
    Except Fault String :=
  let rows := spawned.map fun entry =>
    Value.ofEntries [(.str "name", entry.name), (.str "state", entry.state)]
  let shown := match command with
    | some text => Value.str text
    | none => .null
  (Value.ofEntries
    [(.str "task", task.record), (.str "spawns", .ofItems rows), (.str "command", shown)]).json

end Taskbook.View
