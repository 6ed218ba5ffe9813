/-
What can be asked about the tasks of a project.

Each question loads the tasks anew. Tasks are listed by their bands and then by their
names. A rendering starts from the variables of the configuration.
-/

import Taskbook.Project.Config
import Taskbook.Project.Store
import Taskbook.Rendering
import Taskbook.View.TaskDetail

namespace Taskbook

namespace Project

variable [Depths]

/-- Whether an entry of a registry comes before another in a list, or they are level. -/
def precedes (first second : String × Task) : Bool :=
  let rank := Category.rankOf first.2.category
  let other := Category.rankOf second.2.category
  rank < other || (rank = other && first.1 ≤ second.1)

/-- The tasks of a band in the order of a list, or all tasks if no band is asked for. -/
def selected (tasks : Ordered String Task) (wanted : Option Category) : List Task :=
  let isKept := fun (entry : String × Task) =>
    wanted.all fun category => entry.2.category = some category
  let kept := tasks.filter isKept
  (kept.mergeSort precedes).map Prod.snd

/-- The tasks in the band that a value names. -/
def list (project : Project) (category : Value) (files : Files) : Logged (List Task) := do
  let registry ← project.load files
  let wanted ← Category.parse category
  return selected registry.tasks wanted

/-- The task that a value names. -/
def view (project : Project) (name : Value) (files : Files) : Logged Task := do
  let registry ← project.load files
  let (_, task) ← registry.find name
  return task

/-- What the steps of a task spawn, in order, and whether it is there. -/
def spawned (registry : Registry) (steps : List Step) : Except Fault (List View.Spawned) :=
  (steps.filterMap Step.target?).mapM fun target => do
    let found ← registry.contains target
    return ⟨target, .str (if found then View.present else View.missing)⟩

/-- What a task spawns. -/
def spawnedBy (project : Project) (task : Task) (files : Files) : Logged (List View.Spawned) := do
  let registry ← project.load files
  spawned registry task.steps

/-- The task that a value names as one shell command. -/
def render (project : Project) (name : Value) : Operation String := do
  let files ← Operation.files
  let registry ← project.load files
  let base ← project.baseEnv files
  registry.render name base.toValue

end Project

end Taskbook
