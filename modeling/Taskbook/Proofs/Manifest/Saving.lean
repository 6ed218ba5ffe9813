/-
What is saved for a registry.

Of a step and of a task those fields are saved that say something, and the shared variables if
there are any. A field that was left out is read as null. The record of a step of texts says
something in each of its fields, so it is saved as it is, and a sound registry is saved as
mappings, lists and texts, which can be written, since the collections are not deep.
-/

import Taskbook.Manifest.Compact
import Taskbook.Proofs.Manifest.Description
import Taskbook.Proofs.Soundness
import Taskbook.Proofs.Yaml.Noting

namespace Taskbook

open Manifest

/-! ### Records -/

namespace Value

/-- The entries of a record with the given fields. -/
def keyed (fields : Ordered String Value) : Ordered Value Value :=
  fields.map (Prod.map .str id)

theorem field?_keyed (fields : Ordered String Value) (name : String) :
    field? (keyed fields) name = Ordered.find? fields name := by
  induction fields with
  | nil => rfl
  | cons first rest inductionHypothesis =>
    obtain ⟨key, value⟩ := first
    show (if key = name then some value else field? (keyed rest) name) =
      if (key == name) = true then some value else Ordered.find? rest name
    rw [inductionHypothesis]
    simp only [beq_iff_eq]

theorem field_keyed (fields : Ordered String Value) (name : String) :
    field (keyed fields) name = (Ordered.find? fields name).getD .null := by
  rw [field, field?_keyed]

theorem mem_keyed {fields : Ordered String Value} {entry : Value × Value}
    (member : entry ∈ keyed fields) :
    ∃ name, entry.1 = .str name ∧ (name, entry.2) ∈ fields := by
  obtain ⟨field, among, rfl⟩ := List.mem_map.mp member
  exact ⟨field.1, rfl, among⟩

theorem hasOnly_keyed {known : List String} {fields : Ordered String Value}
    (within : fields.keys ⊆ known) : Step.HasOnly known (keyed fields) := by
  intro entry member
  obtain ⟨name, same, among⟩ := mem_keyed member
  exact ⟨name, within (List.mem_map_of_mem (f := Prod.fst) among), same⟩

theorem isPlain_keyed [Depths] {depth : Nat} (shallow : depth ≤ Depths.noting)
    {fields : Ordered String Value} (plain : ∀ entry ∈ fields, entry.2.IsPlain (depth + 1)) :
    (ofEntries (keyed fields)).IsPlain depth := by
  refine .map shallow (fun entry member => ?_) fun entry member => ?_
  · obtain ⟨name, same, -⟩ := mem_keyed member
    rw [same]
    exact .str name
  · obtain ⟨name, -, among⟩ := mem_keyed member
    exact plain _ among

theorem orElse_ofItems (items : List Value) :
    (ofItems items).orElse (ofItems []) = ofItems items := by
  cases items with
  | nil => rfl
  | cons item rest => rfl

theorem orElse_ofEntries (entries : List (Value × Value)) :
    (ofEntries entries).orElse (ofEntries []) = ofEntries entries := by
  cases entries with
  | nil => rfl
  | cons entry rest => rfl

theorem compact_keyed (fields : Ordered String Value) :
    compact (ofEntries (keyed fields)) =
      .ok (keyed (fields.filter fun entry => !isVoid entry.2)) := by
  show Except.ok (List.filter _ (fields.map _)) = _
  rw [List.filter_map]
  rfl

/-- A value of a field as it is read after the record has been saved. -/
def kept (value : Value) : Value :=
  if isVoid value then .null else value

theorem kept_of_void {value : Value} (void : isVoid value = true) : value.kept = .null :=
  if_pos void

theorem kept_of_not_void {value : Value} (telling : isVoid value = false) : value.kept = value :=
  if_neg (by rw [telling]; exact Bool.false_ne_true)

theorem IsTextOrNull.kept_eq {value : Value} (textual : value.IsTextOrNull) :
    value.kept = value := by
  rcases textual with rfl | ⟨text, rfl⟩
  · rfl
  · rfl

theorem getD_filter_kept (value? : Option Value) :
    (value?.filter fun value => !isVoid value).getD .null = (value?.getD .null).kept := by
  cases value? with
  | none => rfl
  | some value =>
    rw [Option.filter_some, kept, Option.getD_some]
    cases isVoid value with
    | true => rfl
    | false => rfl

/-- What is not left out of a record is read as it was. -/
theorem field_keyed_filter {fields : Ordered String Value} (distinct : fields.keys.Nodup)
    (name : String) :
    field (keyed (fields.filter fun entry => !isVoid entry.2)) name =
      (field (keyed fields) name).kept := by
  rw [field_keyed, field_keyed, Ordered.find?_filter distinct fun value => !isVoid value,
    getD_filter_kept]

end Value

open Value

/-! ### Variables -/

namespace Env

theorem isVoid_toValue (env : Env) : isVoid env.toValue = env.isEmpty := by
  cases env with
  | nil => rfl
  | cons entry rest => rfl

theorem isGivenBy_toValue (env : Env) : env.IsGivenBy env.toValue :=
  Or.inr ⟨none, rfl⟩

/-- What says nothing is read as no variables. -/
theorem IsGivenBy.kept {env : Env} {value : Value} (given : env.IsGivenBy value) :
    env.IsGivenBy value.kept := by
  rcases given with ⟨rfl, rfl⟩ | ⟨place, rfl⟩
  · exact Or.inl ⟨rfl, rfl⟩
  · cases env with
    | nil => exact Or.inl ⟨rfl, rfl⟩
    | cons first rest => exact Or.inr ⟨place, rfl⟩

theorem isTruthy_toValue (env : Env) : env.toValue.isTruthy = !env.isEmpty := by
  cases env with
  | nil => rfl
  | cons entry rest => rfl

theorem isPlain_toValue [Depths] (env : Env) {depth : Nat} (shallow : depth ≤ Depths.noting) :
    env.toValue.IsPlain depth := by
  refine .map shallow (fun entry member => ?_) fun entry member => ?_
  · obtain ⟨setting, -, rfl⟩ := List.mem_map.mp member
    exact .str _
  · obtain ⟨setting, -, rfl⟩ := List.mem_map.mp member
    exact .str _

/-- A valid environment is saved with its variables in their order. -/
theorem IsValid.ofEntries_eq {env : Env} (valid : env.IsValid) :
    Ordered.ofEntries env.entries = env.entries := by
  have merged := Env.entries_mergeAll [env]
  rw [Ordered.mergeAll, List.map_singleton, List.foldl_cons, List.foldl_nil] at merged
  rw [Ordered.ofEntries, merged]
  exact congrArg Env.entries (Ordered.ofEntries_of_nodup valid.distinct)

end Env

/-! ### Steps -/

namespace Step

/-- The fields of a step's record. -/
def fields (step : Step) : Ordered String Value :=
  let label := if step.label.isNull then [] else [("name", step.label)]
  let action := match step.action with
    | .run command => [("exec", command)]
    | .spawn target => [("exec_task", target)]
  let env := if step.env.isEmpty then [] else [("env", step.env.toValue)]
  label ++ action ++ env

theorem record_eq (step : Step) : step.record = .ofEntries (keyed step.fields) := by
  obtain ⟨action, label, env⟩ := step
  rw [record, fields, keyed, List.map_append, List.map_append, apply_ite (List.map _),
    apply_ite (List.map _)]
  cases action with
  | run command => rfl
  | spawn target => rfl

/-- The fields of a step are some of those that a step may have, in their order. -/
theorem keys_fields (step : Step) : step.fields.keys.Sublist keys := by
  obtain ⟨action, label, env⟩ := step
  have labelKey : (Ordered.keys (if label.isNull then [] else [("name", label)])).Sublist
      ["name"] := by
    split
    · exact List.nil_sublist _
    · exact List.Sublist.refl _
  have actionKey : (Ordered.keys (match action with
      | .run command => [("exec", command)]
      | .spawn target => [("exec_task", target)])).Sublist ["exec", "exec_task"] := by
    cases action with
    | run command => exact List.sublist_append_left ["exec"] ["exec_task"]
    | spawn target => exact List.sublist_append_right ["exec"] ["exec_task"]
  have envKey : (Ordered.keys (if env.isEmpty then [] else [("env", env.toValue)])).Sublist
      ["env"] := by
    split
    · exact List.nil_sublist _
    · exact List.Sublist.refl _
  rw [fields, Ordered.keys, List.map_append, List.map_append]
  exact (labelKey.append actionKey).append envKey

theorem nodup_keys_fields (step : Step) : step.fields.keys.Nodup :=
  (by decide : keys.Nodup).sublist step.keys_fields

/-- The fields of a step are what the step has. -/
theorem field_fields (step : Step) :
    field (keyed step.fields) "exec" = step.command ∧
      field (keyed step.fields) "exec_task" = step.target?.getD .null ∧
      field (keyed step.fields) "name" = step.label ∧
      step.env.IsGivenBy (field (keyed step.fields) "env") := by
  obtain ⟨action, label, env⟩ := step
  have settings : Env.IsGivenBy env (if env.isEmpty then .null else env.toValue) := by
    cases env with
    | nil => exact Or.inl ⟨rfl, rfl⟩
    | cons first rest => exact Env.isGivenBy_toValue (first :: rest)
  rw [fields, Step.command, Step.target?]
  cases unlabelled : label.isNull with
  | true =>
    obtain rfl := Value.eq_null_of_isNull unlabelled
    cases action <;> cases env <;> exact ⟨rfl, rfl, rfl, settings⟩
  | false =>
    cases action <;> cases env <;> exact ⟨rfl, rfl, rfl, settings⟩

/-- The fields of a step that are saved. -/
def savedFields (step : Step) : Ordered String Value :=
  step.fields.filter fun entry => !isVoid entry.2

theorem keys_savedFields (step : Step) : step.savedFields.keys ⊆ keys :=
  ((List.filter_sublist.map Prod.fst).trans step.keys_fields).subset

/-- The record of a step as it is saved. -/
def saved (step : Step) : Value :=
  .ofEntries (keyed step.savedFields)

theorem compact_record (step : Step) : compact step.record = .ok (keyed step.savedFields) := by
  rw [record_eq, compact_keyed, savedFields]

variable {step : Step}

/-- What the fields of a step hold are texts, and its variables if there are any. -/
theorem IsSound.mem_fields (sound : step.IsSound) {entry : String × Value}
    (member : entry ∈ step.fields) :
    entry.2.IsText ∨ step.env.isEmpty = false ∧ entry.2 = step.env.toValue := by
  obtain ⟨action, label, env⟩ := step
  obtain ⟨labelTextual, commandIsText, targetIsText⟩ := sound.textual
  rw [fields, List.mem_append, List.mem_append] at member
  rcases member with (inLabel | inAction) | inEnv
  · left
    rcases labelTextual with rfl | ⟨text, rfl⟩
    · cases inLabel
    · rw [List.mem_singleton.mp inLabel]
      exact ⟨text, rfl⟩
  · left
    cases action with
    | run command =>
      rw [List.mem_singleton.mp inAction]
      exact commandIsText command rfl
    | spawn target =>
      rw [List.mem_singleton.mp inAction]
      exact targetIsText target rfl
  · right
    split at inEnv
    · cases inEnv
    · rename_i filled
      rw [List.mem_singleton.mp inEnv]
      exact ⟨by simpa using filled, rfl⟩

/-- The record of a step of texts is saved as it is. -/
theorem IsSound.saved_eq (sound : step.IsSound) : step.saved = step.record := by
  rw [saved, savedFields, record_eq]
  refine congrArg (ofEntries ∘ keyed) (List.filter_eq_self.mpr fun entry member => ?_)
  rcases sound.mem_fields member with ⟨text, isText⟩ | ⟨filled, same⟩
  · rw [isText]
    rfl
  · rw [same, Env.isVoid_toValue, filled]
    rfl

theorem IsSound.isPlain_record [Depths] (sound : step.IsSound) : step.record.IsPlain 5 := by
  rw [record_eq]
  refine isPlain_keyed (Depths.le_noting (by decide)) fun entry member => ?_
  rcases sound.mem_fields member with ⟨text, isText⟩ | ⟨-, same⟩
  · rw [isText]
    exact .str text
  · rw [same]
    exact Env.isPlain_toValue step.env (Depths.le_noting (by decide))

end Step

/-! ### Tasks -/

theorem Category.isTextOrNull_toValue (category : Option Category) :
    (toValue category).IsTextOrNull := by
  cases category with
  | none => exact Or.inl rfl
  | some category => exact Or.inr ⟨category.code, rfl⟩

/-- A band is known by the code that is written for it. -/
theorem Category.parse_toValue (category : Option Category) :
    parse (toValue category) = .ok category := by
  cases category with
  | none => rfl
  | some category =>
    have accepted : all.find? (·.accepts (Text.strip category.code)) = some category := by
      cases category <;> decide +kernel
    rw [toValue, parse,
      if_neg (show ¬(Value.str category.code).isNull = true from Bool.false_ne_true),
      show (Value.str category.code).text = .ok category.code from rfl, liftFault_ok_bind]
    dsimp only
    rw [accepted]
    rfl

namespace Task

/-- The fields of a task's record. -/
def fields (task : Task) : Ordered String Value :=
  [("name", task.name),
    ("category", Category.toValue task.category),
    ("description", task.description),
    ("env", task.env.toValue),
    ("steps", .ofItems (task.steps.map Step.record)),
    ("condition", task.condition)]

/-- The fields of a task that are saved. -/
def savedFields (task : Task) : Ordered String Value :=
  Ordered.put (task.fields.filter fun entry => !isVoid entry.2) "steps"
    (.ofItems (task.steps.map Step.saved))

theorem record_eq (task : Task) : task.record = .ofEntries (keyed task.fields) :=
  rfl

theorem nodup_keys_fields (task : Task) : task.fields.keys.Nodup :=
  (by decide : ["name", "category", "description", "env", "steps", "condition"].Nodup)

theorem keys_savedFields (task : Task) : task.savedFields.keys ⊆ Registry.taskKeys := by
  intro name member
  rcases Ordered.mem_keys_put.mp member with kept | rfl
  · obtain ⟨entry, among, rfl⟩ := List.mem_map.mp kept
    have inFields := List.mem_map_of_mem (f := Prod.fst) (List.mem_filter.mp among).1
    exact (by decide : ["name", "category", "description", "env", "steps", "condition"] ⊆
      Registry.taskKeys) inFields
  · decide

theorem compactTask_record (task : Task) :
    compactTask task.record = .ok (.ofEntries (keyed task.savedFields)) := by
  have steps : compactSteps (keyed task.fields) =
      .ok (.ofItems (task.steps.map Step.saved)) := by
    rw [compactSteps, show Value.field (keyed task.fields) "steps" =
      .ofItems (task.steps.map Step.record) from rfl, orElse_ofItems]
    show (do
      let steps ← (task.steps.map Step.record).mapM compact
      return Value.ofItems (steps.map .ofEntries)) = _
    rw [mapM_map_eq_ok fun step _ => Step.compact_record step, ok_bind, List.map_map]
    rfl
  rw [compactTask, record_eq, compact_keyed, ok_bind]
  show (compactSteps (keyed task.fields) >>= fun steps => .ok (Value.ofEntries
    (Ordered.put (keyed (task.fields.filter fun entry => !isVoid entry.2)) (.str "steps")
      steps))) = _
  rw [steps, ok_bind]
  exact congrArg (fun entries => Except.ok (Value.ofEntries entries))
    (Ordered.map_put Value.str_beq _ _ _)

/-- A saved field other than the steps is read as it was, if it was not left out. -/
theorem field_savedFields (task : Task) {name : String} (other : "steps" ≠ name) :
    field (keyed task.savedFields) name = (field (keyed task.fields) name).kept := by
  rw [field_keyed, savedFields, Ordered.find?_put_of_ne _ other, ← field_keyed,
    field_keyed_filter task.nodup_keys_fields]

theorem field_steps_savedFields (task : Task) :
    field (keyed task.savedFields) "steps" = .ofItems (task.steps.map Step.saved) := by
  rw [field_keyed, savedFields, Ordered.find?_put_self, Option.getD_some]

variable {task : Task}

/-- The name of a task is saved. -/
theorem field?_name_savedFields {name : String} (called : task.name = .str name) :
    field? (keyed task.savedFields) "name" = some (.str name) := by
  rw [field?_keyed, savedFields, Ordered.find?_put_of_ne _ (by decide),
    Ordered.find?_filter task.nodup_keys_fields fun value => !isVoid value,
    show Ordered.find? task.fields "name" = some task.name from rfl, called]
  rfl

theorem IsSound.isPlain_saved [Depths] (sound : task.IsSound) (named : task.name.IsTextOrNull) :
    (ofEntries (keyed task.savedFields)).IsPlain 3 := by
  have plainText {value : Value} (textual : value.IsTextOrNull) : value.IsPlain 4 := by
    rcases textual with rfl | ⟨text, rfl⟩
    · exact .null
    · exact .str text
  have plainRecords : (ofItems (task.steps.map Step.record)).IsPlain 4 := by
    refine .list (Depths.le_noting (by decide)) fun record member => ?_
    obtain ⟨step, among, rfl⟩ := List.mem_map.mp member
    exact (sound.steps step among).isPlain_record
  have savedRecords : task.steps.map Step.saved = task.steps.map Step.record :=
    List.map_congr_left fun step among => (sound.steps step among).saved_eq
  refine isPlain_keyed (Depths.le_noting (by decide)) fun entry member => ?_
  rcases Ordered.mem_put member with kept | ⟨same, -⟩
  · have among := (List.mem_filter.mp kept).1
    rw [fields] at among
    simp only [List.mem_cons, List.not_mem_nil, or_false] at among
    rcases among with rfl | rfl | rfl | rfl | rfl | rfl
    · exact plainText named
    · exact plainText (Category.isTextOrNull_toValue task.category)
    · exact plainText sound.description
    · exact Env.isPlain_toValue task.env (Depths.le_noting (by decide))
    · exact plainRecords
    · exact plainText sound.condition
  · rw [same, savedRecords]
    exact plainRecords

end Task

/-! ### Registries -/

namespace Registry

/-- The saved tasks of a registry by their names. -/
def savedTasks (registry : Registry) : Ordered String Value :=
  registry.tasks.map fun entry => (entry.1, .ofEntries (keyed entry.2.savedFields))

/-- The fields that are saved for a registry. -/
def savedFields (registry : Registry) : Ordered String Value :=
  (if registry.env.isEmpty then [] else [("env", registry.env.toValue)]) ++
    [("tasks", .ofEntries (keyed registry.savedTasks))]

variable {registry : Registry}

theorem field_savedFields (registry : Registry) :
    registry.env.IsGivenBy (field (keyed registry.savedFields) "env") ∧
      field (keyed registry.savedFields) "tasks" = .ofEntries (keyed registry.savedTasks) := by
  obtain ⟨env, tasks⟩ := registry
  cases env with
  | nil => exact ⟨Or.inl ⟨rfl, rfl⟩, rfl⟩
  | cons first rest => exact ⟨Env.isGivenBy_toValue (first :: rest), rfl⟩

theorem mapM_compactEntry (tasks : Ordered String Task) :
    (tasks.map fun entry => (Value.str entry.1, entry.2.record)).mapM compactEntry =
      .ok (keyed (tasks.map fun entry => (entry.1, .ofEntries (keyed entry.2.savedFields)))) := by
  rw [keyed, List.map_map]
  refine mapM_map_eq_ok fun entry _ => ?_
  rw [compactEntry, Task.compactTask_record]
  rfl

/-- What is saved for a registry whose shared variables are valid. -/
theorem saved_manifest (valid : registry.env.IsValid) :
    saved registry.manifest = .ok (.ofEntries (keyed registry.savedFields)) := by
  obtain ⟨env, tasks⟩ := registry
  have records : (Value.field [(Value.str "env", env.toValue),
      (Value.str "tasks", Value.ofEntries (tasks.map fun entry =>
        (Value.str entry.1, entry.2.record)))] "tasks").orElse (.ofEntries []) =
      .ofEntries (tasks.map fun entry => (.str entry.1, entry.2.record)) :=
    orElse_ofEntries _
  rw [saved, manifest]
  show (entriesOf ((Value.field _ "tasks").orElse (.ofEntries [])) >>= fun entries =>
    entries.mapM compactEntry >>= fun tasks =>
      if env.toValue.isTruthy then env.toValue.layer >>= fun entries => .ok (Value.ofEntries
        [(.str "env", .ofEntries (Ordered.ofEntries entries)), (.str "tasks", .ofEntries tasks)])
      else .ok (Value.ofEntries [(.str "tasks", .ofEntries tasks)])) = _
  rw [records, show entriesOf (Value.ofEntries _) = .ok _ from rfl, ok_bind,
    mapM_compactEntry, ok_bind, Env.isTruthy_toValue]
  cases env with
  | nil => rfl
  | cons entry rest =>
    have layered : (Env.toValue (entry :: rest)).layer = .ok (Env.entries (entry :: rest)) := rfl
    rw [layered, ok_bind, valid.ofEntries_eq]
    rfl

theorem IsSound.isPlain_saved [Depths] (sound : registry.IsSound) :
    (ofEntries (keyed registry.savedFields)).IsPlain 1 := by
  refine isPlain_keyed (Depths.le_noting (by decide)) fun entry member => ?_
  rcases List.mem_append.mp member with shared | tasks
  · split at shared
    · cases shared
    · rw [List.mem_singleton.mp shared]
      exact Env.isPlain_toValue registry.env (Depths.le_noting (by decide))
  · rw [List.mem_singleton.mp tasks]
    refine isPlain_keyed (Depths.le_noting (by decide)) fun entry member => ?_
    obtain ⟨⟨name, task⟩, among, rfl⟩ := List.mem_map.mp member
    exact (sound.tasks _ among).isPlain_saved (Or.inr ⟨name, (sound.named _ among).2⟩)

end Registry

end Taskbook
