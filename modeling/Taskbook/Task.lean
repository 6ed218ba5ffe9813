/-
Tasks: named lists of steps that are edited at their ends.

A task has a description, a band, a condition that decides whether it runs, variables
and steps. Commands can be added after or before the steps there are, other tasks can
be spawned by name, and all steps can be removed at once. A name is not checked here, not
even to be a text: the registry does that when it takes a task in.
-/

import Taskbook.Category
import Taskbook.Step

namespace Taskbook

/-- A task of a project. -/
structure Task where
  name : Value
  description : Value
  category : Option Category
  condition : Value
  env : Env
  steps : List Step

/-- A directory that a task leaves its results in. -/
structure Artifact where
  task : Value
  directory : Value

namespace Task

/-- The results that a task leaves in a directory. -/
def artifact (task : Task) (directory : Value) : Artifact :=
  ⟨task.name, directory⟩

/-- Adds a step after all others. -/
def addStep (task : Task) (step : Step) : Task :=
  { task with steps := task.steps ++ [step] }

/-- Adds a command after all steps. -/
def run (task : Task) (command label env : Value) : Except Error Task := do
  let step ← Step.running command label env
  return task.addStep step

/-- Adds a command before all steps. -/
def runFirst (task : Task) (command label env : Value) : Except Error Task := do
  let step ← Step.running command label env
  return { task with steps := step :: task.steps }

/-- Adds a step that spawns the task of a name, whether or not there is one. -/
def spawn (task : Task) (target label env : Value) : Except Error Task := do
  let step ← Step.spawning target label env
  return task.addStep step

/-- Adds a command if one is given. -/
def seed (task : Task) (command : Argument) : Except Error Task := do
  let command ← command.asked
  if command.isTruthy then task.run command .null .null else return task

/-- A task with the given fields and perhaps a first command. -/
def create (name description category condition : Value) (env command : Argument) :
    Except Error Task := do
  let category ← Category.parse category
  let env ← Env.ofArgument env
  seed ⟨name, description, category, condition, env, []⟩ command

/-- Removes all steps and perhaps adds a first command. -/
def reset (task : Task) (command : Argument) : Except Error Task :=
  seed { task with steps := [] } command

/-- Sets a variable of the task. -/
def setVariable (task : Task) (name value : Value) : Except Error Task := do
  let env ← task.env.assign name value
  return { task with env := env }

/-- The command that sets up a part of the author of a commit, if it is given. -/
def authorCommand (lead : String) (part : Argument) : Except Fault (List String) := do
  let part ← part.asked
  if part.isTruthy then return [lead ++ "\"" ++ (← part.text) ++ "\""] else return []

/-- The command that commits what has changed, with the author set up first where one is
given. -/
def commitCommand (message : Value) (username email add : Argument) : Except Fault String := do
  let user ← authorCommand "git config user.name " username
  let mail ← authorCommand "git config user.email " email
  let add ← add.asked
  let flag := if add.isTruthy then "-a " else ""
  let commit := "git commit " ++ flag ++ "-m \"" ++ (← message.text) ++ "\""
  return " && ".intercalate (user ++ mail ++ [commit])

/-- Adds a step that commits what has changed. -/
def commit (task : Task) (message : Value) (username email add : Argument) (label : Value)
    (env : Argument) : Except Error Task := do
  let command ← commitCommand message username email add
  let env ← env.asked
  task.run (.str command) label env

/-- The command that pushes a branch. -/
def pushCommand (branch : Value) (tags : Argument) : Except Fault String := do
  let tags ← tags.asked
  let flag := if tags.isTruthy then "--follow-tags " else ""
  return "git push " ++ flag ++ "origin " ++ (← branch.text)

/-- Adds a step that pushes a branch. -/
def push (task : Task) (branch : Value) (tags : Argument) (label : Value) (env : Argument) :
    Except Error Task := do
  let command ← pushCommand branch tags
  let env ← env.asked
  task.run (.str command) label env

/-- The label of a pushing step where none is given. -/
def pushLabel : Value :=
  .str "Push changes"

/-- The record of a task, with all its fields. -/
def record (task : Task) : Value :=
  .ofEntries
    [(.str "name", task.name),
      (.str "category", Category.toValue task.category),
      (.str "description", task.description),
      (.str "env", task.env.toValue),
      (.str "steps", .ofItems (task.steps.map Step.record)),
      (.str "condition", task.condition)]

/-- A task as it is shown to a programmer. -/
def summary (task : Task) : Except Fault String := do
  let name ← task.name.literal
  return "Task(name=" ++ name ++ ", steps=" ++ toString task.steps.length ++ ")"

end Task

end Taskbook
