/-
Tasks whose fields are texts.

Much of a task is kept without being looked at, and so it may be of any type. Here is what
it means that it is all texts, as it is where tasks are made by commands: a field is a text
or not given at all, a step runs a text or spawns what a text names, and every task of a
registry is named by the text that it is known by.
-/

import Taskbook.Registry

namespace Taskbook

namespace Value

/-- A value that is a text. -/
def IsText (value : Value) : Prop :=
  ∃ text, value = .str text

/-- A value that is a text, or is not given. -/
def IsTextOrNull (value : Value) : Prop :=
  value = .null ∨ value.IsText

/-- The text of a value, if it is one with something in it. -/
def given? : Value → Option String
  | .str text => if text = "" then none else some text
  | _ => none

theorem isTextOrNull_null : Value.null.IsTextOrNull :=
  Or.inl rfl

theorem isTextOrNull_str (text : String) : (Value.str text).IsTextOrNull :=
  Or.inr ⟨text, rfl⟩

/-- A text counts as given if there is something in it. -/
theorem isTruthy_str (text : String) : (Value.str text).isTruthy = !decide (text = "") := by
  show (!text.isEmpty) = _
  rw [String.isEmpty, Bool.beq_eq_decide_eq]
  simp only [String.utf8ByteSize_eq_zero_iff]

/-- A text or nothing counts as given exactly if it has a text with something in it. -/
theorem IsTextOrNull.cases_given {value : Value} (textual : value.IsTextOrNull) :
    value.isTruthy = false ∧ value.given? = none ∨
      ∃ text, value = .str text ∧ value.isTruthy = true ∧ value.given? = some text := by
  rcases textual with rfl | ⟨text, rfl⟩
  · exact Or.inl ⟨rfl, rfl⟩
  · by_cases empty : text = ""
    · exact Or.inl ⟨by simp [isTruthy_str, empty], by simp [given?, empty]⟩
    · exact Or.inr ⟨text, rfl, by simp [isTruthy_str, empty], by simp [given?, empty]⟩

/-- What is given is a text with something in it. -/
theorem eq_str_of_given? {value : Value} {text : String} (given : value.given? = some text) :
    value = .str text ∧ value.isTruthy = true := by
  unfold given? at given
  split at given
  · rename_i written
    split at given
    · cases given
    · rename_i filled
      obtain rfl := Option.some.inj given
      exact ⟨rfl, by simp [isTruthy_str, filled]⟩
  · cases given

end Value

/-- A step whose label and action are texts. -/
structure Step.IsTextual (step : Step) : Prop where
  label : step.label.IsTextOrNull
  command : ∀ command, step.action = .run command → command.IsText
  target : ∀ target, step.action = .spawn target → target.IsText

/-- A step that runs a text is textual if its label is. -/
theorem Step.isTextual_run {label : Value} (textual : label.IsTextOrNull) (text : String)
    (env : Env) : Step.IsTextual ⟨.run (.str text), label, env⟩ where
  label := textual
  command := by
    intro command runs
    exact ⟨text, (Action.run.inj runs).symm⟩
  target := by
    intro target spawns
    cases spawns

/-- A step that spawns what a text names is textual if its label is. -/
theorem Step.isTextual_spawn {label : Value} (textual : label.IsTextOrNull) (name : String)
    (env : Env) : Step.IsTextual ⟨.spawn (.str name), label, env⟩ where
  label := textual
  command := by
    intro command runs
    cases runs
  target := by
    intro target spawns
    exact ⟨name, (Action.spawn.inj spawns).symm⟩

namespace Registry

/-- Every task is named by the text that it is known by. -/
def HasOwnNames (registry : Registry) : Prop :=
  ∀ entry ∈ registry.tasks, entry.2.name = .str entry.1

/-- The steps of all tasks are textual. -/
def HasTextualSteps (registry : Registry) : Prop :=
  ∀ entry ∈ registry.tasks, ∀ step ∈ entry.2.steps, step.IsTextual

/-- Every step that runs something runs a text. -/
def RunsTexts (registry : Registry) : Prop :=
  ∀ entry ∈ registry.tasks, ∀ step ∈ entry.2.steps, ∀ command,
    step.action = .run command → command.IsText

/-- The conditions of all tasks are texts, where they are given. -/
def HasTextualConditions (registry : Registry) : Prop :=
  ∀ entry ∈ registry.tasks, entry.2.condition.IsTextOrNull

/-- All that the tasks hold are texts. -/
structure IsTextual (registry : Registry) : Prop where
  steps : registry.HasTextualSteps
  conditions : registry.HasTextualConditions
  descriptions : ∀ entry ∈ registry.tasks, entry.2.description.IsTextOrNull

end Registry

end Taskbook
