/-
What is saved for a registry is read again.

The data that are saved for a sound registry are the value of an outline: mappings of names to
texts, to mappings and to a list of steps, a few columns deep. So if all its texts are read as they
were written, what is read of the text of the manifest is a copy of the data.
-/

import Taskbook.Proofs.Manifest.Saving
import Taskbook.Proofs.Yaml.Rereading

namespace Taskbook

open Value
open Manifest (isVoid)
open Yaml (isKeyName isSimpleKey)
open Yaml.Node (IsOutline HasOutlines AreRecords lastColumn itemValues entryValues)

/-! ### Values of outlines -/

namespace Value

/-- Whether a value is that of an outline in a block that begins in a column. -/
def IsLegible (column : Nat) (value : Value) : Prop :=
  ∃ node : Yaml.Node, node.IsOutline column ∧ node.value = value

variable {column : Nat}

theorem isLegible_str {text : String} (restorable : Yaml.IsRestorable text)
    (near : column + 2 ≤ lastColumn) : (str text).IsLegible column :=
  ⟨.scalar none .str text, ⟨rfl, rfl, restorable, near⟩, rfl⟩

theorem mem_entryValues {entries : List (Yaml.Node × Yaml.Node)} {entry : Yaml.Node × Yaml.Node}
    (member : entry ∈ entries) : (entry.1.value, entry.2.value) ∈ entryValues entries := by
  induction entries with
  | nil => cases member
  | cons first rest inductionHypothesis =>
    rw [entryValues.eq_def]
    rcases List.mem_cons.mp member with rfl | further
    · exact List.mem_cons_self
    · exact List.mem_cons_of_mem _ (inductionHypothesis further)

/-- The fields of a record are entries of an outline. -/
theorem exists_hasOutlines {fields : Ordered String Value} (distinct : fields.keys.Nodup)
    (named : ∀ field ∈ fields, isKeyName field.1 = true)
    (legible : ∀ field ∈ fields, field.2.IsLegible column)
    (listed : ∀ field ∈ fields, ∀ items, field.2 = list none items →
      isSimpleKey ⟨true⟩ (.scalar none .str field.1) = true) :
    ∃ entries, HasOutlines column entries ∧ entryValues entries = keyed fields := by
  induction fields with
  | nil => exact ⟨[], trivial, rfl⟩
  | cons first rest inductionHypothesis =>
    obtain ⟨name, value⟩ := first
    obtain ⟨fresh, restDistinct⟩ := List.nodup_cons.mp distinct
    obtain ⟨entries, outlines, values⟩ := inductionHypothesis restDistinct
      (fun field member => named field (List.mem_cons_of_mem _ member))
      (fun field member => legible field (List.mem_cons_of_mem _ member))
      (fun field member => listed field (List.mem_cons_of_mem _ member))
    obtain ⟨node, outline, isValue⟩ := legible (name, value) List.mem_cons_self
    refine ⟨(.scalar none .str name, node) :: entries,
      ⟨⟨name, rfl, named (name, value) List.mem_cons_self⟩, outline, fun sequence => ?_,
        fun entry member same => ?_, outlines⟩, ?_⟩
    · cases node with
      | sequence anchor tag items =>
        obtain ⟨rfl, rfl, -⟩ := outline
        exact listed (name, value) List.mem_cons_self _ isValue.symm
      | mapping anchor tag entries => cases sequence
      | reference name => cases sequence
      | scalar anchor tag text => cases sequence
    · have among := mem_entryValues member
      rw [values, same] at among
      obtain ⟨other, isName, inFields⟩ := mem_keyed among
      obtain rfl : name = other := str.inj isName
      exact fresh (List.mem_map.mpr ⟨_, inFields, rfl⟩)
    · rw [entryValues, values, isValue]
      rfl

/-- A record of names and legible values is legible. -/
theorem isLegible_keyed {fields : Ordered String Value} (near : column + 2 ≤ lastColumn)
    (distinct : fields.keys.Nodup) (named : ∀ field ∈ fields, isKeyName field.1 = true)
    (legible : ∀ field ∈ fields, field.2.IsLegible (column + 2))
    (listed : ∀ field ∈ fields, ∀ items, field.2 = list none items →
      isSimpleKey ⟨true⟩ (.scalar none .str field.1) = true) :
    (ofEntries (keyed fields)).IsLegible column := by
  obtain ⟨entries, outlines, values⟩ := exists_hasOutlines distinct named legible listed
  refine ⟨.mapping none .map entries, ⟨rfl, rfl, near, outlines⟩, ?_⟩
  rw [Yaml.Node.value, values]
  rfl

/-- A record that is not empty has the node of one. -/
theorem isRecord_of_value {node : Yaml.Node} {fields : Ordered String Value} (filled : fields ≠ [])
    (isValue : node.value = ofEntries (keyed fields)) : node.isRecord = true := by
  obtain ⟨field, others, rfl⟩ := List.exists_cons_of_ne_nil filled
  cases node with
  | scalar anchor tag text => cases isValue
  | sequence anchor tag items => cases isValue
  | reference name => cases isValue
  | mapping anchor tag entries =>
    cases entries with
    | nil => cases isValue
    | cons entry rest => rfl

/-- A list of records that are not empty is legible. -/
theorem isLegible_ofItems {records : List (Ordered String Value)} (near : column + 2 ≤ lastColumn)
    (filled : ∀ fields ∈ records, fields ≠ [])
    (legible : ∀ fields ∈ records, (ofEntries (keyed fields)).IsLegible column) :
    (ofItems (records.map fun fields => ofEntries (keyed fields))).IsLegible column := by
  have items : ∃ items, AreRecords column items ∧
      itemValues items = records.map fun fields => ofEntries (keyed fields) := by
    induction records with
    | nil => exact ⟨[], trivial, rfl⟩
    | cons first rest inductionHypothesis =>
      obtain ⟨items, areRecords, values⟩ := inductionHypothesis
        (fun fields member => filled fields (List.mem_cons_of_mem _ member))
        (fun fields member => legible fields (List.mem_cons_of_mem _ member))
      obtain ⟨node, outline, isValue⟩ := legible first List.mem_cons_self
      refine ⟨node :: items,
        ⟨isRecord_of_value (filled first List.mem_cons_self) isValue, outline, areRecords⟩, ?_⟩
      rw [itemValues, values, isValue, List.map_cons]
  obtain ⟨items, areRecords, values⟩ := items
  refine ⟨.sequence none .seq items, ⟨rfl, rfl, near, areRecords⟩, ?_⟩
  rw [Yaml.Node.value, values]
  rfl

end Value

/-! ### Names -/

theorem isKeyName_of_isTaskName {name : String} (named : isTaskName name = true) :
    isKeyName name = true := by
  obtain ⟨letters, isText⟩ : ∃ letters, name.toList = letters := ⟨_, rfl⟩
  rw [isTaskName, isText] at named
  rw [isKeyName, isText]
  cases letters with
  | nil => cases named
  | cons first rest =>
    dsimp only at named ⊢
    rw [Bool.and_eq_true] at named
    rw [named.1, named.2]
    rfl

theorem isKeyName_of_isVariableName {name : String} (named : isVariableName name = true) :
    isKeyName name = true := by
  obtain ⟨letters, isText⟩ : ∃ letters, name.toList = letters := ⟨_, rfl⟩
  rw [isVariableName, isText] at named
  rw [isKeyName, isText]
  cases letters with
  | nil => cases named
  | cons first rest =>
    dsimp only at named ⊢
    rw [Bool.and_eq_true, List.all_eq_true] at named
    obtain ⟨starts, others⟩ := named
    have startsKey : (startsTaskName first || decide (first = '_')) = true := by
      rw [startsVariableName, Bool.or_eq_true] at starts
      rcases starts with letter | line
      · rw [startsTaskName, letter]
        rfl
      · rw [line, Bool.or_true]
    have continues : rest.all continuesTaskName = true := by
      refine List.all_eq_true.mpr fun character member => ?_
      have continues := others character member
      simp only [continuesVariableName, startsVariableName, Bool.or_eq_true] at continues
      simp only [continuesTaskName, startsTaskName, Bool.or_eq_true]
      tauto
    rw [startsKey, continues]
    rfl

/-! ### Restorable texts -/

/-- Whether a value is read as it was written if it is a text. -/
def Value.IsRestorable : Value → Prop
  | .str text => Yaml.IsRestorable text
  | _ => True

/-- Whether the texts of all variables are read as they were written. -/
def Env.IsRestorable (env : Env) : Prop :=
  ∀ entry ∈ env, Yaml.IsRestorable entry.2

/-- Whether the texts of a step are read as they were written. -/
structure Step.IsRestorable (step : Step) : Prop where
  label : step.label.IsRestorable
  operand : step.action.operand.IsRestorable
  env : step.env.IsRestorable

/-- Whether the texts of a task are read as they were written. -/
structure Task.IsRestorable (task : Task) : Prop where
  description : task.description.IsRestorable
  condition : task.condition.IsRestorable
  env : task.env.IsRestorable
  steps : ∀ step ∈ task.steps, step.IsRestorable

/-- Whether the texts of a registry are read as they were written. -/
structure Registry.IsRestorable (registry : Registry) : Prop where
  env : registry.env.IsRestorable
  tasks : ∀ entry ∈ registry.tasks, entry.2.IsRestorable

instance (text : String) : Decidable (Yaml.IsRestorable text) :=
  decidable_of_iff (Text.ofLetters (Text.letters text) = text ∧
      (Yaml.nextLine ∈ text.toList → (Yaml.analyze ⟨true⟩ text.toList).single = false))
    ⟨fun both => ⟨both.1, both.2⟩, fun restorable => ⟨restorable.spelled, restorable.readable⟩⟩

instance : (value : Value) → Decidable value.IsRestorable
  | .str text => inferInstanceAs (Decidable (Yaml.IsRestorable text))
  | .null | .bool _ | .int _ | .float _ | .bytes _ | .date .. | .moment .. | .list .. | .pair ..
  | .set .. | .map .. | .knot .. => isTrue trivial

instance (env : Env) : Decidable env.IsRestorable :=
  inferInstanceAs (Decidable (∀ entry ∈ env, Yaml.IsRestorable entry.2))

instance (step : Step) : Decidable step.IsRestorable :=
  decidable_of_iff
    (step.label.IsRestorable ∧ step.action.operand.IsRestorable ∧ step.env.IsRestorable)
    ⟨fun all => ⟨all.1, all.2.1, all.2.2⟩,
      fun restorable => ⟨restorable.label, restorable.operand, restorable.env⟩⟩

instance (task : Task) : Decidable task.IsRestorable :=
  decidable_of_iff
    (task.description.IsRestorable ∧ task.condition.IsRestorable ∧ task.env.IsRestorable ∧
      ∀ step ∈ task.steps, step.IsRestorable)
    ⟨fun all => ⟨all.1, all.2.1, all.2.2.1, all.2.2.2⟩, fun restorable =>
      ⟨restorable.description, restorable.condition, restorable.env, restorable.steps⟩⟩

instance (registry : Registry) : Decidable registry.IsRestorable :=
  decidable_of_iff
    (registry.env.IsRestorable ∧ ∀ entry ∈ registry.tasks, entry.2.IsRestorable)
    ⟨fun both => ⟨both.1, both.2⟩, fun restorable => ⟨restorable.env, restorable.tasks⟩⟩

/-! ### What is saved -/

theorem Value.IsRestorable.legible {value : Value} (restorable : value.IsRestorable)
    (isText : value.IsText) {column : Nat} (near : column + 2 ≤ lastColumn) :
    value.IsLegible column := by
  obtain ⟨text, rfl⟩ := isText
  exact isLegible_str restorable near

theorem Env.IsRestorable.legible {env : Env} (restorable : env.IsRestorable) (valid : env.IsValid)
    {column : Nat} (near : column + 4 ≤ lastColumn) : env.toValue.IsLegible column := by
  have sameEntries : env.entries = keyed (env.map fun entry => (entry.1, .str entry.2)) := by
    rw [entries, keyed, List.map_map]
    rfl
  have sameKeys : Ordered.keys (env.map fun entry => (entry.1, Value.str entry.2)) = env.keys := by
    rw [Ordered.keys, List.map_map]
    rfl
  rw [toValue, sameEntries]
  refine isLegible_keyed (by omega) (by rw [sameKeys]; exact valid.distinct)
    (fun field member => ?_) (fun field member => ?_) fun field member items isList => ?_
  · obtain ⟨entry, among, rfl⟩ := List.mem_map.mp member
    exact isKeyName_of_isVariableName (valid.named entry among)
  · obtain ⟨entry, among, rfl⟩ := List.mem_map.mp member
    exact isLegible_str (restorable entry among) (by omega)
  · obtain ⟨entry, among, rfl⟩ := List.mem_map.mp member
    cases isList

namespace Step

variable {step : Step}

theorem fields_ne_nil (step : Step) : step.fields ≠ [] := by
  obtain ⟨action, label, env⟩ := step
  rw [fields]
  cases action <;> simp

/-- The values of a step's fields are its label, what it runs or spawns, and its variables. -/
theorem mem_fields_cases {field : String × Value} (member : field ∈ step.fields) :
    field.2 = step.label ∨ field.2 = step.action.operand ∨ field.2 = step.env.toValue := by
  obtain ⟨action, label, env⟩ := step
  rw [fields, List.mem_append, List.mem_append] at member
  rcases member with (inLabel | inAction) | inEnv
  · split at inLabel
    · cases inLabel
    · exact Or.inl (congrArg Prod.snd (List.mem_singleton.mp inLabel))
  · cases action <;> exact Or.inr (Or.inl (congrArg Prod.snd (List.mem_singleton.mp inAction)))
  · split at inEnv
    · cases inEnv
    · exact Or.inr (Or.inr (congrArg Prod.snd (List.mem_singleton.mp inEnv)))

/-- The record of a step is legible. -/
theorem IsSound.isLegible (sound : step.IsSound) (restorable : step.IsRestorable) :
    step.record.IsLegible 6 := by
  have inKeys (field : String × Value) (member : field ∈ step.fields) : field.1 ∈ keys :=
    step.keys_fields.subset (List.mem_map_of_mem member)
  rw [record_eq]
  refine isLegible_keyed (by decide) step.nodup_keys_fields (fun field member => ?_)
    (fun field member => ?_) fun field member items isList => ?_
  · exact (by decide : ∀ key ∈ keys, isKeyName key = true) field.1 (inKeys field member)
  · rcases sound.mem_fields member with isText | ⟨-, same⟩
    · have textRestorable : field.2.IsRestorable := by
        rcases mem_fields_cases member with same | same | same
        · rw [same]
          exact restorable.label
        · rw [same]
          exact restorable.operand
        · rw [same]
          trivial
      exact textRestorable.legible isText (by decide)
    · rw [same]
      exact restorable.env.legible sound.env (by decide)
  · rcases sound.mem_fields member with ⟨text, isText⟩ | ⟨-, same⟩
    · rw [isText] at isList
      cases isList
    · rw [same] at isList
      cases isList

end Step

namespace Task

variable {task : Task}

theorem isKeyName_code (category : Category) : isKeyName category.code = true := by
  cases category <;> decide +kernel

theorem nodup_keys_savedFields (task : Task) : task.savedFields.keys.Nodup :=
  Ordered.nodup_put (task.nodup_keys_fields.sublist (List.filter_sublist.map Prod.fst)) _ _

/-- The code of a band is read as it was written. -/
theorem isRestorable_category (category : Option Category) :
    (Category.toValue category).IsRestorable := by
  cases category with
  | none => trivial
  | some category => exact Yaml.isRestorable_of_isKeyName (isKeyName_code category)

/-- The fields that are saved for a task are legible, and only its steps are a list. -/
theorem IsSound.isLegible_field (sound : task.IsSound) (restorable : task.IsRestorable)
    {name : String} (named : isTaskName name = true) (called : task.name = .str name)
    {field : String × Value} (member : field ∈ task.savedFields) :
    field.2.IsLegible 6 ∧ (field.1 = "steps" ∨ ∀ items, field.2 ≠ list none items) := by
  have ofText {value : Value} (textual : value.IsTextOrNull) (textRestorable : value.IsRestorable)
      (filled : isVoid value = false) :
      value.IsLegible 6 ∧ (field.1 = "steps" ∨ ∀ items, value ≠ list none items) := by
    rcases textual with rfl | ⟨text, rfl⟩
    · cases filled
    · exact ⟨textRestorable.legible ⟨text, rfl⟩ (by decide), Or.inr fun items isList => by cases isList⟩
  have records : task.steps.map Step.saved =
      (task.steps.map Step.fields).map fun fields => ofEntries (keyed fields) := by
    rw [List.map_map]
    exact List.map_congr_left fun step among =>
      (sound.steps step among).saved_eq.trans step.record_eq
  have steps : (ofItems (task.steps.map Step.saved)).IsLegible 6 := by
    rw [records]
    refine isLegible_ofItems (by decide) (fun fields among => ?_) fun fields among => ?_
    · obtain ⟨step, -, rfl⟩ := List.mem_map.mp among
      exact step.fields_ne_nil
    · obtain ⟨step, inSteps, rfl⟩ := List.mem_map.mp among
      rw [← step.record_eq]
      exact (sound.steps step inSteps).isLegible (restorable.steps step inSteps)
  rcases Ordered.mem_put member with kept | ⟨isSteps, same⟩
  · obtain ⟨among, filled⟩ := List.mem_filter.mp kept
    have filled : isVoid field.2 = false := by simpa using filled
    rw [fields] at among
    simp only [List.mem_cons, List.not_mem_nil, or_false] at among
    rcases among with rfl | rfl | rfl | rfl | rfl | rfl
    · refine ofText (Or.inr ⟨name, called⟩) ?_ filled
      rw [called]
      exact Yaml.isRestorable_of_isKeyName (isKeyName_of_isTaskName named)
    · exact ofText (Category.isTextOrNull_toValue task.category)
        (isRestorable_category task.category) filled
    · exact ofText sound.description restorable.description filled
    · exact ⟨restorable.env.legible sound.env (by decide), Or.inr fun items isList => by cases isList⟩
    · have unchanged : task.steps.map Step.record = task.steps.map Step.saved :=
        List.map_congr_left fun step among => (sound.steps step among).saved_eq.symm
      exact ⟨unchanged ▸ steps, Or.inl rfl⟩
    · exact ofText sound.condition restorable.condition filled
  · rw [isSteps]
    exact ⟨steps, Or.inl (same.elim id eq_of_beq)⟩

/-- The record that is saved for a task is legible. -/
theorem IsSound.isLegible (sound : task.IsSound) (restorable : task.IsRestorable)
    {name : String} (named : isTaskName name = true) (called : task.name = .str name) :
    (ofEntries (keyed task.savedFields)).IsLegible 4 := by
  refine isLegible_keyed (by decide) task.nodup_keys_savedFields (fun field member => ?_)
    (fun field member => (sound.isLegible_field restorable named called member).1)
    fun field member items isList => ?_
  · exact (by decide : ∀ key ∈ Registry.taskKeys, isKeyName key = true) field.1
      (task.keys_savedFields (List.mem_map_of_mem member))
  · rcases (sound.isLegible_field restorable named called member).2 with isSteps | notList
    · rw [isSteps]
      decide +kernel
    · exact absurd isList (notList items)

end Task

namespace Registry

variable {registry : Registry}

theorem savedFields_ne_nil (registry : Registry) : registry.savedFields ≠ [] := by
  simp [savedFields]

/-- What is saved for a registry is legible. -/
theorem IsSound.isLegible (sound : registry.IsSound) (restorable : registry.IsRestorable) :
    (ofEntries (keyed registry.savedFields)).IsLegible 0 := by
  have keys : registry.savedFields.keys.Sublist ["env", "tasks"] := by
    rw [savedFields, Ordered.keys, List.map_append]
    split
    · exact List.sublist_append_right ["env"] ["tasks"]
    · exact List.Sublist.refl _
  have names : registry.savedTasks.keys = registry.names := by
    rw [savedTasks, Ordered.keys, List.map_map]
    rfl
  have tasks : (ofEntries (keyed registry.savedTasks)).IsLegible 2 := by
    refine isLegible_keyed (by decide) (names ▸ sound.distinct) (fun field member => ?_)
      (fun field member => ?_) fun field member items isList => ?_
    all_goals obtain ⟨⟨name, task⟩, among, rfl⟩ := List.mem_map.mp member
    · exact isKeyName_of_isTaskName (sound.named _ among).1
    · exact (sound.tasks _ among).isLegible (restorable.tasks _ among) (sound.named _ among).1
        (sound.named _ among).2
    · cases isList
  have cases_of_mem {field : String × Value} (member : field ∈ registry.savedFields) :
      field = ("env", registry.env.toValue) ∨
        field = ("tasks", .ofEntries (keyed registry.savedTasks)) := by
    rcases List.mem_append.mp member with shared | isTasks
    · split at shared
      · cases shared
      · exact Or.inl (List.mem_singleton.mp shared)
    · exact Or.inr (List.mem_singleton.mp isTasks)
  refine isLegible_keyed (by decide) ((by decide : ["env", "tasks"].Nodup).sublist keys)
    (fun field member => ?_) (fun field member => ?_) fun field member items isList => ?_
  · exact (by decide : ∀ key ∈ ["env", "tasks"], isKeyName key = true) field.1
      (keys.subset (List.mem_map_of_mem member))
  · rcases cases_of_mem member with rfl | rfl
    · exact restorable.env.legible sound.env (by decide)
    · exact tasks
  · rcases cases_of_mem member with rfl | rfl <;> cases isList

/-- What is read of the manifest of a restorable registry is a copy of what was saved. -/
theorem IsSound.read_text [Depths] (sound : registry.IsSound) (restorable : registry.IsRestorable)
    {text : String} (written : Manifest.text registry.manifest = .ok text) :
    ∃ copy, Yaml.read text = .ok copy ∧
      copy.isCopy (ofEntries (keyed registry.savedFields)) = true := by
  obtain ⟨root, outline, isValue⟩ := sound.isLegible restorable
  rw [Manifest.text, saved_manifest sound.env, ok_bind, ← isValue] at written
  rw [← isValue]
  exact Yaml.read_of_write (isRecord_of_value registry.savedFields_ne_nil isValue) outline written

end Registry

end Taskbook
