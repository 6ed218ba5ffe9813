/-
What is loaded from a copy of what was saved.

A sound registry is loaded from every copy of what is saved for it, with its tasks and their steps
in the same order. A field that was left out is read as one that says nothing, and the checks that
reading makes hold of every sound task.
-/

import Taskbook.Proofs.Copies
import Taskbook.Proofs.Manifest.Saving

namespace Taskbook

open Value

/-! ### Copied fields -/

theorem Env.IsGivenBy.copy {env : Env} {value copy : Value} (given : env.IsGivenBy value)
    (copied : copy.isCopy value = true) : env.IsGivenBy copy := by
  rcases given with ⟨rfl, rfl⟩ | ⟨place, rfl⟩
  · exact Or.inl ⟨rfl, eq_null_of_isCopy copied⟩
  · obtain ⟨place, entries, rfl, entriesCopied⟩ := eq_map_of_isCopy copied
    rw [eq_of_entryCopies entriesCopied]
    exact Or.inr ⟨place, rfl⟩

section Fields

variable {copies : List (Value × Value)} {fields : Ordered String Value}

theorem field_of_textual (copied : EntryCopies copies (keyed fields)) {name : String}
    {value : Value} (textual : value.IsTextOrNull) (found : field (keyed fields) name = value) :
    field copies name = value := by
  have same := field_of_entryCopies copied name
  rw [found] at same
  rcases textual with rfl | ⟨text, rfl⟩
  · exact eq_null_of_isCopy same
  · exact eq_str_of_isCopy same

theorem hasOnly_of_copies (copied : EntryCopies copies (keyed fields)) {known : List String}
    (within : fields.keys ⊆ known) : Step.HasOnly known copies := by
  have keys : copies.map Prod.fst = (keyed fields).map Prod.fst := by
    refine keys_of_entryCopies copied fun entry member => ?_
    obtain ⟨name, same, -⟩ := mem_keyed member
    exact ⟨name, same⟩
  intro copy member
  have among := List.mem_map_of_mem (f := Prod.fst) member
  rw [keys] at among
  obtain ⟨entry, inFields, same⟩ := List.mem_map.mp among
  obtain ⟨name, isKnown, named⟩ := hasOnly_keyed within entry inFields
  exact ⟨name, isKnown, same.symm.trans named⟩

end Fields

/-! ### Steps -/

namespace Step

variable {step : Step}

theorem IsTextual.command_textual (textual : step.IsTextual) : step.command.IsTextOrNull := by
  obtain ⟨action, label, settings⟩ := step
  cases action with
  | run command => exact Or.inr (textual.command command rfl)
  | spawn target => exact Or.inl rfl

theorem IsTextual.target_textual (textual : step.IsTextual) :
    (step.target?.getD .null).IsTextOrNull := by
  obtain ⟨action, label, settings⟩ := step
  cases action with
  | run command => exact Or.inl rfl
  | spawn target => exact Or.inr (textual.target target rfl)

/-- A step is read from a copy of its record. -/
theorem IsSound.ofRecord (sound : step.IsSound) {copy : Value}
    (copied : copy.isCopy step.record = true) : ofRecord copy = .ok step := by
  rw [record_eq] at copied
  obtain ⟨place, entries, rfl, entriesCopied⟩ := eq_map_of_isCopy copied
  obtain ⟨command, target, label, given⟩ := step.field_fields
  obtain ⟨value, read, described⟩ := ofRecord_of_fields place
    (hasOnly_of_copies entriesCopied step.keys_fields.subset) sound.env
    (given.copy (field_of_entryCopies entriesCopied "env"))
  rw [read, field_of_textual entriesCopied sound.textual.command_textual command,
    field_of_textual entriesCopied sound.textual.target_textual target,
    field_of_textual entriesCopied sound.textual.label label]
  exact make_eq_ok.mpr ⟨rfl, rfl, rfl, sound.isConsistent.acts, described⟩

theorem mapM_ofRecord {steps : List Step} (sound : ∀ step ∈ steps, step.IsSound)
    {records : List Value} (copied : Copies records (steps.map saved)) :
    records.mapM ofRecord = .ok steps := by
  induction steps generalizing records with
  | nil =>
    cases copied
    rfl
  | cons step rest inductionHypothesis =>
    have stepSound := sound step List.mem_cons_self
    rw [List.map_cons, stepSound.saved_eq] at copied
    cases copied with
    | cons same others =>
      rw [List.mapM_cons, stepSound.ofRecord same, ok_bind,
        inductionHypothesis (fun other member => sound other (List.mem_cons_of_mem _ member))
          others]
      rfl

end Step

/-! ### Tasks -/

namespace Registry

variable {registry : Registry} {name : String} {task : Task}

/-- A copied record of a task describes the task. -/
theorem describes_of_copy (sound : task.IsSound) (called : task.name = .str name) {copy : Value}
    (copied : copy.isCopy (.ofEntries (keyed task.savedFields)) = true) :
    Describes name copy task := by
  obtain ⟨place, fields, rfl, fieldsCopied⟩ := eq_map_of_isCopy copied
  have found (field : String) {value : Value} (other : "steps" ≠ field)
      (textual : value.IsTextOrNull) (held : Value.field (keyed task.fields) field = value) :
      Value.field fields field = value := by
    refine field_of_textual fieldsCopied textual ?_
    rw [task.field_savedFields other, held, textual.kept_eq]
  have given : task.env.IsGivenBy (Value.field fields "env") := by
    refine Env.IsGivenBy.copy ?_ (field_of_entryCopies fieldsCopied "env")
    rw [task.field_savedFields (by decide)]
    exact (Env.isGivenBy_toValue task.env).kept
  have declared : Value.field? fields "name" = some (.str name) := by
    have related := found "name" (by decide) (isTextOrNull_str name) called
    rw [Value.field] at related
    cases looked : Value.field? fields "name" with
    | none =>
      rw [looked] at related
      cases related
    | some value =>
      rw [looked] at related
      rw [← related]
      rfl
  obtain ⟨inner, records, listed, recordsCopied⟩ : ∃ inner records,
      Value.field fields "steps" = .list inner records ∧
        Copies records (task.steps.map Step.saved) := by
    have same := field_of_entryCopies fieldsCopied "steps"
    rw [task.field_steps_savedFields] at same
    exact eq_list_of_isCopy same
  obtain ⟨value, checked, described⟩ := checkRecord_of_fields place
    (hasOnly_of_copies fieldsCopied task.keys_savedFields) (by rw [declared, Option.getD_some])
    sound.env given listed
  refine ⟨called, fields, value, records, checked,
    (found "description" (by decide) sound.description rfl).symm, ?_,
    (found "condition" (by decide) sound.condition rfl).symm, described,
    Step.mapM_ofRecord sound.steps recordsCopied⟩
  rw [found "category" (by decide) (Category.isTextOrNull_toValue task.category) rfl,
    Category.parse_toValue]

/-! ### Registries -/

/-- Copied entries describe the tasks of a registry in their order. -/
theorem describesEntry_of_copies {tasks : Ordered String Task}
    (named : ∀ entry ∈ tasks, isTaskName entry.1 = true ∧ entry.2.name = .str entry.1)
    (sound : ∀ entry ∈ tasks, entry.2.IsSound) {copies : List (Value × Value)}
    (copied : EntryCopies copies
      (keyed (tasks.map fun entry => (entry.1, .ofEntries (keyed entry.2.savedFields))))) :
    List.Forall₂ DescribesEntry copies tasks := by
  induction tasks generalizing copies with
  | nil =>
    cases copied
    exact .nil
  | cons entry rest inductionHypothesis =>
    obtain ⟨taskNamed, called⟩ := named _ List.mem_cons_self
    cases copied with
    | cons same others =>
      refine .cons ⟨?_, taskNamed, describes_of_copy (sound _ List.mem_cons_self) called same.2⟩
        (inductionHypothesis (fun other member => named other (List.mem_cons_of_mem _ member))
          (fun other member => sound other (List.mem_cons_of_mem _ member)) others)
      rw [eq_str_of_isCopy same.1]
      rfl

/-- A sound registry is loaded from every copy of what is saved for it. -/
theorem IsSound.ofManifest (sound : registry.IsSound) {copy : Value}
    (copied : copy.isCopy (.ofEntries (keyed registry.savedFields)) = true) :
    (ofManifest copy).result = .ok registry := by
  obtain ⟨place, fields, rfl, fieldsCopied⟩ := eq_map_of_isCopy copied
  obtain ⟨shared, saved⟩ := registry.field_savedFields
  have sameTasks := field_of_entryCopies fieldsCopied "tasks"
  rw [saved] at sameTasks
  obtain ⟨inner, entries, listed, entriesCopied⟩ := eq_map_of_isCopy sameTasks
  exact ofManifest_eq_ok.mpr (describesRegistry_of_fields place sound.env sound.distinct
    (shared.copy (field_of_entryCopies fieldsCopied "env")) listed
    (describesEntry_of_copies sound.named sound.tasks entriesCopied))

end Registry

end Taskbook
