/-
Carrying out what is asked for on the command line.

A command finds its project, does its work, and reports the result. Where it needs a task
and none is named, a person may choose one, if there is one at the terminal and the
settings of the project do not forbid to ask. Errors are reported and end the command;
faults end it without a word.
-/

import Taskbook.Choice.Numbered
import Taskbook.CommandLine.Request
import Taskbook.Edit
import Taskbook.Project.Discovery
import Taskbook.Project.Viewing
import Taskbook.View.TaskList

namespace Taskbook.CommandLine

variable [Depths]

/-- The terminal that a command is given at. -/
structure Terminal where
  /-- Whether a person can be asked. -/
  interactive : Bool
  /-- Whether results are laid out. -/
  styled : Bool
  picker : Choice.Picker
  /-- What is read in answer to a question. -/
  answer : Choice.Answer

/-- How a command ends. -/
inductive Ending where
  | done
  /-- The person chose nothing. -/
  | canceled
  /-- An error was reported. -/
  | failed
  /-- The command line makes no sense. -/
  | misused
  /-- Something could not be carried out. -/
  | broken (fault : Fault)
  deriving DecidableEq, Repr

/-- The code that a command exits with. -/
def Ending.code : Ending → Nat
  | done => 0
  | canceled => 1
  | failed => 1
  | misused => 2
  | broken _ => 1

/-! ### Reports -/

/-- Reports a result in the form that is asked for. -/
def present (terminal : Terminal) (json : Bool) (asJson plain : Except Fault String)
    (styled : Except Fault View.Display) : Operation Unit := do
  if json then
    Operation.tell (← asJson)
  else if terminal.styled then
    Operation.report [.display (← styled)]
  else
    Operation.tell (← plain)

/-! ### Finding the project -/

/-- The text of an option as a value; null if it is not given. -/
def orNull (text : Option String) : Value :=
  (text.map Value.str).getD .null

/-- Reports which project was found. -/
def notifyFound (project : Project) (others : Bool) : Operation Unit := do
  Operation.notify ("Using project dir: " ++ project.directory.text)
  if others then
    Operation.notify "Warning: multiple .shell-tasks dirs found; using nearest ancestor."

/-- The project that is named, which must be there, or else the nearest one. -/
def existingProject (here : Path) (directory : Option String) : Operation (Option Project) := do
  let files ← Operation.files
  match directory with
  | some text => do
    let place := here.resolve text
    return if ← files.isPresent place then some ⟨place⟩ else none
  | none =>
    match ← Project.nearest files here with
    | (some project, others) => do
      notifyFound project others
      return some project
    | (none, _) => throw .projectMissing

/-- The project that is named, or else the nearest one, or else a new one. -/
def projectToMake (here : Path) (directory : Option String) : Operation Project := do
  let files ← Operation.files
  match directory with
  | some text => return ⟨here.resolve text⟩
  | none =>
    match ← Project.nearest files here with
    | (some project, others) => do
      notifyFound project others
      return project
    | (none, _) => do
      let project ← Project.fresh files here
      Operation.notify ("No .shell-tasks found. Initializing at: " ++ project.directory.text)
      return project

/-- Works on the project that a command is about. A command about a named project that is not
there is misused. -/
def withProject (here : Path) (directory : Option String)
    (work : Project → Operation Ending) : Operation Ending := do
  match ← existingProject here directory with
  | some project => work project
  | none => return .misused

/-! ### Choosing a task -/

/-- Whether a person may be asked about a project. -/
def mayAsk (terminal : Terminal) (project : Project) (silent : Bool) : Operation Bool := do
  if silent then return false
  let files ← Operation.files
  let interactive ← project.interactive files
  return interactive && terminal.interactive

/-- Works on the task that is named, or else on one that a person chooses. -/
def withTask (terminal : Terminal) (project : Project) (name : Option String) (title : String)
    (silent : Bool) (work : Value → Operation Unit) : Operation Ending := do
  match name.filter (!·.isEmpty) with
  | some name => do
    work (.str name)
    return .done
  | none => do
    let files ← Operation.files
    let tasks ← project.list .null files
    if tasks.isEmpty then throw .tasksMissing
    if !(← mayAsk terminal project silent) then throw .nameRequired
    let chosen ← Choice.choose terminal.picker terminal.answer title tasks
    match chosen.filter Value.isTruthy with
    | some name => do
      work name
      return .done
    | none => do
      Operation.tell "Canceled."
      return .canceled

/-! ### Commands -/

/-- Makes a project with a configuration and a manifest, as far as they are not there. -/
def makeProject (project : Project) : Operation Unit := do
  project.ensureDirectory
  Operation.tell ("Initialized project dir: " ++ project.directory.text)
  let configured ← project.writeUsualConfig (.bool true)
  let found := if configured then "Created config: " else "Using existing config: "
  Operation.tell (found ++ project.configPath.text)
  let files ← Operation.files
  if !(← files.isPresent project.manifestPath) then
    let registry ← project.load files
    project.save registry
    Operation.tell ("Created manifest: " ++ project.manifestPath.text)

/-- The variables that are given for a step or a task, as a value. -/
def givenEnv (pairs : List String) : Operation Value := do
  let env ← envOfPairs pairs
  return env.toValue

/-- Carries out a change and reports the task that it was about. -/
def editAndTell (project : Project) (edit : Edit) (line : Task → String → String) :
    Operation Unit := do
  match ← project.edit edit with
  | some task => Operation.tell (line task (← task.name.text))
  | none => return ()

/-- Shows a task in full. -/
def showTask (terminal : Terminal) (project : Project) (name : Value) (json command : Bool) :
    Operation Unit := do
  let files ← Operation.files
  let task ← project.view name files
  let spawned ← project.spawnedBy task files
  let rendered ← if command then some <$> project.render task.name else pure none
  present terminal json (View.jsonDetail task spawned rendered)
    (View.plainDetail task spawned rendered) (View.styledDetail task spawned rendered)

/-- Carries out a request about the project in a directory. -/
def perform (terminal : Terminal) (here : Path) (directory : Option String) :
    Request → Operation Ending
  | .init => do
    let project ← projectToMake here directory
    makeProject project
    return .done
  | .add name command description category condition pairs =>
    withProject here directory fun project => do
      let env ← givenEnv pairs
      editAndTell project (.create (.str name) (orNull command) (orNull description)
        (orNull category) (orNull condition) env) fun _ name => "Created: " ++ name
      return .done
  | .exec name command first label pairs =>
    withProject here directory fun project => do
      let env ← givenEnv pairs
      editAndTell project (.addCommand (.str name) (.str command) first (orNull label) env)
        fun task name => "Updated: " ++ name ++ " (" ++ toString task.steps.length ++ " steps)"
      return .done
  | .spawn name target label pairs =>
    withProject here directory fun project => do
      let env ← givenEnv pairs
      editAndTell project (.addSubtask (.str name) (.str target) (orNull label) env)
        fun _ name => "Updated: " ++ name ++ " spawns " ++ target
      return .done
  | .reset name command silent =>
    withProject here directory fun project =>
      withTask terminal project name "Select a task to reset" silent fun name =>
        editAndTell project (.reset name (orNull command)) fun _ name => "Reset: " ++ name
  | .env key text task =>
    withProject here directory fun project => do
      match task with
      | none => do
        let _ ← project.edit (.setSharedVariable (.str key) (.str text))
        Operation.tell ("Set global env: " ++ key)
      | some name =>
        editAndTell project (.setVariable (.str name) (.str key) (.str text)) fun _ name =>
          "Set env on " ++ name ++ ": " ++ key
      return .done
  | .list category json =>
    withProject here directory fun project => do
      let files ← Operation.files
      let tasks ← project.list (orNull category) files
      present terminal json (View.jsonList tasks) (View.plainList tasks [])
        (View.styledList tasks [])
      return .done
  | .view name json command silent =>
    withProject here directory fun project =>
      withTask terminal project name "Select a task to view" silent fun name =>
        showTask terminal project name json command
  | .render name silent =>
    withProject here directory fun project =>
      withTask terminal project name "Select a task to render" silent fun name => do
        Operation.tell (← project.render name)
  | .remove name forced silent =>
    withProject here directory fun project =>
      withTask terminal project name "Select a task to remove" silent fun name => do
        let _ ← project.edit (.remove name forced)
        Operation.tell ("Removed: " ++ (← name.text))

/-- Carries out a request and reports the error that it ends with, if it does. -/
def runRequest (terminal : Terminal) (here : Path) (directory : Option String)
    (request : Request) : StateM Session Ending := do
  match ← (perform terminal here directory request).run with
  | .ok ending => return ending
  | .error error =>
    match error.notice with
    | .error fault => return .broken fault
    | .ok notice => do
      let line := Report.notice ("Error: " ++ notice.message)
      modify fun session => { session with reports := session.reports ++ [line] }
      return .failed

end Taskbook.CommandLine
