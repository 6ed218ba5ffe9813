/-
Tasks compiled to shell scripts.

A task becomes one subshell: its variables, then its steps as a chain, behind a gate if
the task has a condition. A step that spawns a task holds the subshell of that task,
with the variables of the step on top of those of the task itself. So the command of a
task is the unfolding of everything it spawns, step by step and depth first.

The unfolding carries the path of names from the task that is rendered to the one that
is being unfolded. A task whose name is on the path would unfold for ever and is
refused; every other spawned task takes one more name of the registry onto the path,
and that bounds the depth. The task that is rendered need not be one of the registry's,
and its name need not be a text.

Layers of variables from the lowest: the base, the registry's, the task's own, and the
overlay of the steps that led to it. Every group sets all of them again.
-/

import Taskbook.Manifest.Record
import Taskbook.Shell.Script

namespace Taskbook

open Shell

namespace Registry

/-! ### The bound on the depth -/

/-- Whether the task of a name is on a path. -/
def isOnPath (name : String) (path : List Value) : Bool :=
  path.any fun other =>
    match other with
    | .str text => text = name
    | _ => false

/-- How many tasks of the registry are not on a path. -/
def remaining (registry : Registry) (path : List Value) : Nat :=
  registry.tasks.countP fun entry => !isOnPath entry.1 path

/-- Only tasks of the registry are found in it. -/
theorem mem_of_resolve {registry : Registry} {name : Value} {entry : String × Task}
    (found : registry.resolve name = .ok (some entry)) : entry ∈ registry.tasks := by
  unfold resolve at found
  split at found
  · have looked := Except.ok.inj found
    exact List.mem_of_find?_eq_some looked
  · split at found
    · have nothingFound := Except.ok.inj found
      cases nothingFound
    · cases found

theorem countP_lt_of_excluded {Item : Type} {wide narrow : Item → Bool} {items : List Item}
    {item : Item} (narrower : ∀ other, narrow other = true → wide other = true)
    (member : item ∈ items) (inWide : wide item = true) (excluded : narrow item = false) :
    items.countP narrow < items.countP wide := by
  induction items with
  | nil => cases member
  | cons first rest inductionHypothesis =>
    have restBound : rest.countP narrow ≤ rest.countP wide :=
      List.countP_mono_left fun other _ => narrower other
    rw [List.countP_cons, List.countP_cons]
    rcases List.mem_cons.mp member with same | inRest
    · subst same
      rw [inWide, excluded]
      simp only [if_true, Bool.false_eq_true, if_false]
      omega
    · have step := inductionHypothesis inRest
      have firstBound : (if narrow first = true then 1 else 0) ≤
          (if wide first = true then 1 else 0) := by
        by_cases inNarrow : narrow first = true
        · simp [inNarrow, narrower first inNarrow]
        · simp [inNarrow]
      omega

/-- On a path with one more name are that name and those that were on it before. -/
theorem isOnPath_append (name : String) (path : List Value) (last : String) :
    isOnPath name (path ++ [.str last]) = (isOnPath name path || decide (last = name)) := by
  simp [isOnPath, List.any_append]

/-- A task of the registry that goes onto the path leaves fewer that are not on it. -/
theorem remaining_append_lt {registry : Registry} {path : List Value} {entry : String × Task}
    (member : entry ∈ registry.tasks) (fresh : isOnPath entry.1 path = false) :
    registry.remaining (path ++ [.str entry.1]) < registry.remaining path := by
  refine countP_lt_of_excluded ?_ member ?_ ?_
  · intro other outside
    rw [isOnPath_append] at outside
    simp only [Bool.not_or, Bool.and_eq_true] at outside
    exact outside.1
  · rw [fresh]; rfl
  · simp [isOnPath_append]

/-! ### Scripts of steps and tasks -/

/-- The shell text of a command; a blank one does nothing. Octets stand for their literal, but
not after variables. -/
def commandText (command : Value) (env : Env) : Except Fault String :=
  if command.isTruthy then
    match command with
    | .str text => .ok (if Text.isBlankText text then nothing else text)
    | .bytes octets =>
      if octets.all Text.isBlankOctet then .ok nothing
      else if env.isEmpty then command.text
      else .error .wrongType
    | _ => .error .missingPart
  else .ok nothing

/-- The script that shows a step's label, if it has one. -/
def labelScript (label : Value) : Except Fault (List Script) :=
  if label.isTruthy then
    match label with
    | .str text => .ok [(Command.leaf (.echo text)).alone]
    | _ => .error .wrongType
  else .ok []

/-- The script of a command behind the variables of its step. -/
def commandScript (env : Env) (text : String) : Script :=
  .exports env (.single (.plain (.leaf (.command text))))

/-- The variables that a task sets, from the lowest layer to the highest. The base may be
anything that can fill a dictionary. -/
def bindings (base : Value) (layers : List Env) : Except Fault (List (String × String)) := do
  let base ← base.layer
  entryTexts (Ordered.mergeAll (base :: layers.map Env.entries))

/-- Puts a row behind the condition of a task, if it has one. -/
def gated (condition : Value) (steps : Row) : Except Fault Row := do
  if condition.isTruthy then
    let text ← condition.text
    return .gate text steps
  else return steps

/-- The command of a task from the scripts of its steps and labels. -/
def frame (registry : Registry) (base : Value) (overlay : Env) (task : Task)
    (fragments : List Script) : Except Fault Command := do
  let body ← gated task.condition (.chain (fragments.map .subshell))
  let exported ← bindings base [registry.env, task.env, overlay]
  return .subshell (.exports exported body)

/-- The record of a task being rendered at the end of a path. -/
def renderingRecord (path : List Value) (name : String) : Record :=
  .debug .rendering ("Rendering task " ++ name ++ " (depth " ++ toString path.length ++ ")")

/-- Writes the record of a task that is being rendered. The log makes a message only where it shows
it, so a name that has no text leaves no record and nothing fails. -/
def noteRendering (path : List Value) (name : Value) : Logged Unit :=
  match name.text with
  | .ok text => Logged.write (renderingRecord path text)
  | .error _ => Logged.succeed ()

set_option linter.unusedVariables false in
/-- The scripts of some steps of the task at the end of a path, each behind its label. -/
def stepScripts (registry : Registry) (base : Value) (overlay : Env) (path : List Value)
    (owner : Value) (steps : List Step) : Logged (List Script) :=
  match steps with
  | [] => Logged.succeed []
  | step :: rest => do
    let label ← labelScript step.label
    let fragment ← match step.action with
      | .run command => do
        let text ← commandText command step.env
        Logged.succeed (commandScript step.env text)
      | .spawn target =>
        match found : registry.resolve target with
        | .error fault => Logged.fail (.fault fault)
        | .ok none => Logged.fail (.subtaskMissing target owner)
        | .ok (some (name, task)) =>
          if onPath : isOnPath name path then
            Logged.fail (.cycle (path ++ [.str name]))
          else do
            let above := overlay.merge step.env
            Logged.write (renderingRecord (path ++ [.str name]) name)
            let fragments ←
              stepScripts registry base above (path ++ [.str name]) task.name task.steps
            let command ← registry.frame base above task fragments
            Logged.succeed command.inSubshell.alone
    let others ← stepScripts registry base overlay path owner rest
    Logged.succeed (label ++ fragment :: others)
termination_by (registry.remaining path, steps.length)
decreasing_by
  · exact Prod.Lex.right _ (by simp)
  · have fresh : isOnPath name path = false := by simpa using onPath
    exact Prod.Lex.left _ _ (remaining_append_lt (mem_of_resolve found) fresh)

/-- The command of a task, which need not be one of the registry's. -/
def taskCommand (registry : Registry) (base : Value) (task : Task) : Logged Command := do
  noteRendering [task.name] task.name
  let fragments ← registry.stepScripts base [] [task.name] task.name task.steps
  registry.frame base [] task fragments

/-- A task, which need not be one of the registry's, as one shell command. -/
def renderTask (registry : Registry) (base : Value) (task : Task) : Logged String := do
  let command ← registry.taskCommand base task
  return command.print

/-- The task that a value names as one shell command. -/
def render (registry : Registry) (name base : Value) : Logged String := do
  let (_, task) ← registry.find name
  registry.renderTask base task

end Registry

end Taskbook
