/-
What a rendering looks at.

Of a task, a rendering looks at its name, its variables and its steps, and at its condition as far
as it becomes a gate; of a step it looks at its action, its variables, and its label as far as it
is shown. Registries that agree in all of that, name by name in the same order, render alike:
every task to the same text or to the same error. Descriptions and bands never matter.
-/

import Mathlib.Data.List.Forall2
import Taskbook.Proofs.Rendering.Unfolding

namespace Taskbook

open Registry

/-- Steps of which the same scripts are made. -/
structure Step.RendersLike (step other : Step) : Prop where
  action : step.action = other.action
  env : step.env = other.env
  label : labelScript step.label = labelScript other.label

/-- Tasks whose gates and steps are alike. -/
structure Task.RendersLike (task other : Task) : Prop where
  name : task.name = other.name
  env : task.env = other.env
  condition : gated task.condition = gated other.condition
  steps : List.Forall₂ Step.RendersLike task.steps other.steps

namespace Registry

/-- Registries of tasks that are alike, under the same names in the same order. -/
structure RendersLike (registry other : Registry) : Prop where
  env : registry.env = other.env
  tasks : List.Forall₂ (fun entry counterpart => entry.1 = counterpart.1 ∧
    entry.2.RendersLike counterpart.2) registry.tasks other.tasks

variable {registry other : Registry} {base : Value}

theorem RendersLike.find? (like : registry.RendersLike other) (text : String) :
    Option.Rel (fun entry counterpart => entry.1 = counterpart.1 ∧
        entry.2.RendersLike counterpart.2)
      (List.find? (fun entry => entry.1 = text) registry.tasks)
      (List.find? (fun entry => entry.1 = text) other.tasks) := by
  have tasks := like.tasks
  generalize registry.tasks = entries at tasks
  generalize other.tasks = counterparts at tasks
  induction tasks with
  | nil => exact .none
  | @cons entry counterpart rest others alike _ inductionHypothesis =>
    rw [List.find?_cons, List.find?_cons, alike.1]
    cases decide (counterpart.1 = text) with
    | true => exact .some alike
    | false => exact inductionHypothesis

/-- A name that resolves in one registry resolves in the other, to a task that is alike; and what
does not resolve is refused for the same reason. -/
theorem RendersLike.resolve_cases (like : registry.RendersLike other) (target : Value) :
    (∃ name task counterpart, registry.resolve target = .ok (some (name, task)) ∧
        other.resolve target = .ok (some (name, counterpart)) ∧ task.RendersLike counterpart) ∨
      registry.resolve target = .ok none ∧ other.resolve target = .ok none ∨
      ∃ fault, registry.resolve target = .error fault ∧ other.resolve target = .error fault := by
  cases target with
  | str text =>
    have related := like.find? text
    rw [resolve, resolve]
    generalize List.find? _ registry.tasks = entry? at related
    generalize List.find? _ other.tasks = counterpart? at related
    cases related with
    | none => exact Or.inr (Or.inl ⟨rfl, rfl⟩)
    | @some entry counterpart alike =>
      obtain ⟨name, task⟩ := entry
      obtain ⟨key, further⟩ := counterpart
      obtain ⟨rfl, alike⟩ := alike
      exact Or.inl ⟨name, task, further, rfl, rfl, alike⟩
  | _ => exact Or.inr (registry.resolve_of_not_str other nofun)

theorem RendersLike.frame_eq (like : registry.RendersLike other) {task counterpart : Task}
    (alike : task.RendersLike counterpart) (overlay : Env) (fragments : List Shell.Script) :
    registry.frame base overlay task fragments =
      other.frame base overlay counterpart fragments := by
  rw [frame, frame, alike.condition, like.env, alike.env]

/-- Steps that are alike become the same scripts. The induction follows the renderer on the first
registry; the tasks that are spawned are alike again. -/
theorem RendersLike.stepScripts_eq (like : registry.RendersLike other) (overlay : Env)
    (path : List Value) (owner : Value) (steps : List Step) {others : List Step}
    (alike : List.Forall₂ Step.RendersLike steps others) :
    (stepScripts registry base overlay path owner steps).result =
      (stepScripts other base overlay path owner others).result := by
  induction overlay, path, owner, steps using stepScripts.induct registry
    generalizing others with
  | case1 overlay path owner =>
    cases alike
    rw [stepScripts_nil_result, stepScripts_nil_result]
  | case2 overlay path owner step rest restHypothesis insideHypothesis =>
    obtain _ | @⟨_, counterpart, _, others, same, further⟩ := alike
    have acts : actionScript registry base overlay path owner step =
        actionScript other base overlay path owner counterpart := by
      rw [actionScript, actionScript, ← same.action, ← same.env]
      cases step.action with
      | run command => rfl
      | spawn target =>
        dsimp only
        rcases like.resolve_cases target with
          ⟨name, task, spawned, found, foundOther, tasksAlike⟩ | ⟨missing, missingOther⟩ |
          ⟨fault, refused, refusedOther⟩
        · rw [found, foundOther]
          dsimp only
          split
          · rfl
          · rename_i fresh
            rw [insideHypothesis target name task found fresh tasksAlike.steps, tasksAlike.name]
            simp only [like.frame_eq tasksAlike]
        · rw [missing, missingOther]
        · rw [refused, refusedOther]
    rw [stepScripts_cons_result, stepScripts_cons_result, same.label, acts,
      restHypothesis further]

theorem RendersLike.taskCommand_eq (like : registry.RendersLike other) {task counterpart : Task}
    (alike : task.RendersLike counterpart) :
    (registry.taskCommand base task).result = (other.taskCommand base counterpart).result := by
  simp only [taskCommand_result, alike.name, like.stepScripts_eq _ _ _ _ alike.steps,
    like.frame_eq alike]

/-- Registries that are alike render every name over every base to the same result. -/
theorem RendersLike.render_eq (like : registry.RendersLike other) (name base : Value) :
    (registry.render name base).result = (other.render name base).result := by
  rw [render, render, Logged.result_bind, Logged.result_bind, Logged.result_lift,
    Logged.result_lift, find, find]
  rcases like.resolve_cases name with
    ⟨key, task, counterpart, found, foundOther, alike⟩ | ⟨missing, missingOther⟩ |
    ⟨fault, refused, refusedOther⟩
  · rw [found, foundOther]
    show (registry.renderTask base task).result = (other.renderTask base counterpart).result
    rw [renderTask, renderTask, Logged.result_bind, Logged.result_bind, like.taskCommand_eq alike]
  · rw [missing, missingOther]
    rfl
  · rw [refused, refusedOther]
    rfl

end Registry

end Taskbook
