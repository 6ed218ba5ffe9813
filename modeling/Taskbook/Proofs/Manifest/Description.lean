/-
What a manifest describes.

A manifest is read entry by entry. An entry describes a task if its record passes the checks under
the text of its key, and a manifest describes the registry of the tasks that its entries describe,
in their order. What is read is exactly what is described, so that everything about reading
manifests can be said of descriptions.
-/

import Mathlib.Data.List.Forall2
import Taskbook.Proofs.Consistency

namespace Taskbook

/-- What comes of some items one by one comes of one of them. -/
theorem exists_mem_of_forall₂ {α β : Type} {fits : α → β → Prop} {items : List α}
    {results : List β} (each : List.Forall₂ fits items results) {result : β}
    (member : result ∈ results) : ∃ item ∈ items, fits item result := by
  induction each with
  | nil => cases member
  | @cons item other rest others fit _ inductionHypothesis =>
    rcases List.mem_cons.mp member with rfl | inOthers
    · exact ⟨item, List.mem_cons_self, fit⟩
    · obtain ⟨source, inRest, fit⟩ := inductionHypothesis inOthers
      exact ⟨source, List.mem_cons_of_mem _ inRest, fit⟩

/-! ### Fields -/

/-- An environment that the value of a field describes: as the mapping of it, or by saying nothing
where no variable is set. -/
def Env.IsGivenBy (env : Env) (value : Value) : Prop :=
  env = [] ∧ value = .null ∨ ∃ place, value = .map place env.entries

namespace Step

/-- All keys of a mapping are among the given texts. -/
def HasOnly (known : List String) (entries : List (Value × Value)) : Prop :=
  ∀ entry ∈ entries, ∃ name ∈ known, entry.1 = .str name

variable {entries : List (Value × Value)}

theorem checkKeys_of_hasOnly {known : List String} (only : HasOnly known entries)
    (report : List Value → Error) : checkKeys entries known report = .ok () := by
  have supported : unsupported entries known = [] := by
    rw [unsupported, List.filter_eq_nil_iff]
    intro key member
    obtain ⟨entry, among, rfl⟩ := List.mem_map.mp member
    obtain ⟨name, isKnown, same⟩ := only entry among
    rw [same]
    simpa using isKnown
  rw [checkKeys, supported]

/-- The variables of a record are read as they were, also where there are none. -/
theorem mappingField_of_isGivenBy {env : Env} (valid : env.IsValid) {name : String}
    (given : env.IsGivenBy (Value.field entries name)) (error : Error) :
    ∃ value, mappingField entries name error = .ok value ∧ Env.ofValue value = .ok env := by
  rcases given with ⟨rfl, isNull⟩ | ⟨place, isMap⟩
  · refine ⟨.ofEntries [], ?_, rfl⟩
    rw [mappingField, isNull]
    rfl
  · cases env with
    | nil =>
      refine ⟨.ofEntries [], ?_, rfl⟩
      rw [mappingField, isMap]
      rfl
    | cons first rest =>
      refine ⟨.map place (Env.entries (first :: rest)), ?_, valid.ofValue_map place⟩
      rw [mappingField, isMap]
      rfl

/-- What is read from a record is made of its fields. -/
theorem ofRecord_of_fields (place : Option Nat) {env : Env} (only : HasOnly keys entries)
    (valid : env.IsValid) (given : env.IsGivenBy (Value.field entries "env")) :
    ∃ value, ofRecord (.map place entries) = make (Value.field entries "exec")
        (Value.field entries "exec_task") (Value.field entries "name") value ∧
      Env.ofValue value = .ok env := by
  obtain ⟨value, read, described⟩ := mappingField_of_isGivenBy valid given .stepEnv
  refine ⟨value, ?_, described⟩
  rw [ofRecord, show (Value.map place entries).entries? = some entries from rfl]
  dsimp only
  rw [checkKeys_of_hasOnly only, ok_bind, read, ok_bind]

end Step

namespace Registry

/-- The record of a task passes its checks if its fields do. It need not say its name. -/
theorem checkRecord_of_fields (place : Option Nat) {inner : Option Nat} {name : String}
    {env : Env} {fields : List (Value × Value)} {records : List Value}
    (only : Step.HasOnly taskKeys fields)
    (declared : (Value.field? fields "name").getD (.str name) = .str name) (valid : env.IsValid)
    (given : env.IsGivenBy (Value.field fields "env"))
    (listed : Value.field fields "steps" = .list inner records) :
    ∃ value, checkRecord name (.map place fields) = .ok (fields, value, records) ∧
      Env.ofValue value = .ok env := by
  obtain ⟨value, read, described⟩ := Step.mappingField_of_isGivenBy valid given (.taskEnv name)
  have same : Value.same (.str name) (.str name) = true := by
    simp [Value.same, Value.sameScalar]
  have steps : stepRecords name fields = .ok records := by
    rw [stepRecords, listed]
    cases records with
    | nil => rfl
    | cons record rest => rfl
  refine ⟨value, ?_, described⟩
  rw [checkRecord, show (Value.map place fields).entries? = some fields from rfl]
  dsimp only
  rw [Step.checkKeys_of_hasOnly only, ok_bind, declared, same, read, ok_bind, steps, ok_bind]
  rfl

/-! ### Tasks -/

/-- The record of a task passes the checks under a name and describes the task. -/
structure Describes (name : String) (record : Value) (task : Task) : Prop where
  called : task.name = .str name
  fields : ∃ fields env records, checkRecord name record = .ok (fields, env, records) ∧
    task.description = Value.field fields "description" ∧
    Category.parse (Value.field fields "category") = .ok task.category ∧
    task.condition = Value.field fields "condition" ∧
    Env.ofValue env = .ok task.env ∧ records.mapM Step.ofRecord = .ok task.steps

/-- An entry describes a task under a name that a task can have. -/
structure DescribesEntry (entry : Value × Value) (known : String × Task) : Prop where
  key : entry.1.text = .ok known.1
  named : isTaskName known.1 = true
  describes : Describes known.1 entry.2 known.2

variable {registry changed : Registry} {name : String} {task : Task}

theorem Describes.isConsistent {record : Value} (describes : Describes name record task) :
    task.IsConsistent := by
  obtain ⟨fields, env, records, -, -, -, -, described, read⟩ := describes.fields
  exact ⟨Env.isValid_of_ofValue described, Step.isConsistent_of_mapM read⟩

/-- A new task comes last, and there it is put again. -/
theorem put_put_of_fresh (fresh : name ∉ registry.names) (bare : Task) :
    (registry.put name bare).put name task =
      { registry with tasks := registry.tasks ++ [(name, task)] } := by
  rw [put, put]
  dsimp only
  rw [Ordered.put_put, Ordered.put_of_not_mem fresh]

/-- What an entry describes is added after all other tasks, if its name is new. -/
theorem addEntry_eq_ok {entry : Value × Value} :
    (registry.addEntry entry).result = .ok changed ↔
      ∃ known, DescribesEntry entry known ∧ known.1 ∉ registry.names ∧
        changed = { registry with tasks := registry.tasks ++ [known] } := by
  obtain ⟨key, record⟩ := entry
  rw [addEntry, Logged.result_bind, Logged.result_liftFault]
  constructor
  · intro added
    obtain ⟨name, keyText, added⟩ := bind_eq_ok.mp added
    rw [Logged.result_bind, Logged.result_lift] at added
    obtain ⟨⟨fields, env, records⟩, checked, added⟩ := bind_eq_ok.mp added
    rw [Logged.result_bind] at added
    obtain ⟨⟨extended, bare⟩, tasked, added⟩ := bind_eq_ok.mp added
    rw [Logged.result_bind, Logged.result_lift] at added
    obtain ⟨steps, read, same⟩ := bind_eq_ok.mp added
    obtain rfl := Except.ok.inj same
    obtain ⟨text, called, named, fresh, created, rfl⟩ := addTask_eq_ok.mp tasked
    obtain rfl := Value.str.inj called
    obtain ⟨band, parsed, created⟩ := bind_eq_ok.mp created
    obtain ⟨settings, described, created⟩ := bind_eq_ok.mp created
    obtain rfl := Except.ok.inj created
    refine ⟨(name, ⟨.str name, _, band, _, settings, steps⟩), ⟨orFault_eq_ok.mp keyText, named,
      rfl, fields, env, records, checked, rfl, parsed, rfl, described, read⟩, fresh, ?_⟩
    exact put_put_of_fresh fresh _
  · rintro ⟨⟨name, task⟩, ⟨keyText, named, called, fields, env, records, checked, description,
      parsed, condition, described, read⟩, fresh, rfl⟩
    have tasked : (registry.addTask (.str name) .null task.description
        (Value.field fields "category") task.condition env).result =
        .ok (registry.put name { task with steps := [] }, { task with steps := [] }) := by
      refine addTask_eq_ok.mpr ⟨name, rfl, named, fresh, ?_, rfl⟩
      rw [Task.create, parsed, ok_bind, Env.ofArgument_value, described, ok_bind, ← called]
      rfl
    dsimp only at keyText
    rw [keyText, orFault_ok, ok_bind, Logged.result_bind, Logged.result_lift, checked, ok_bind]
    dsimp only
    rw [Logged.result_bind, ← description, ← condition, tasked, ok_bind]
    dsimp only
    rw [Logged.result_bind, Logged.result_lift, read, ok_bind, Logged.result_pure, List.nil_append,
      put_put_of_fresh fresh]

/-! ### Registries -/

/-- Entries add what they describe in their order. -/
theorem foldlM_addEntry_eq_ok {entries : List (Value × Value)} (distinct : registry.names.Nodup) :
    (entries.foldlM addEntry registry).result = .ok changed ↔
      ∃ tasks, List.Forall₂ DescribesEntry entries tasks ∧ changed.names.Nodup ∧
        changed = { registry with tasks := registry.tasks ++ tasks } := by
  induction entries generalizing registry with
  | nil =>
    constructor
    · intro same
      obtain rfl := Except.ok.inj same
      exact ⟨[], .nil, distinct, by rw [List.append_nil]⟩
    · rintro ⟨tasks, described, -, rfl⟩
      cases described
      rw [List.append_nil]
      rfl
  | cons entry rest inductionHypothesis =>
    have distinctWith {known : String × Task} (fresh : known.1 ∉ registry.names) :
        (names { registry with tasks := registry.tasks ++ [known] }).Nodup := by
      rw [names, ← Ordered.put_of_not_mem fresh]
      exact Ordered.nodup_put distinct known.1 known.2
    rw [List.foldlM_cons, Logged.result_bind, bind_eq_ok]
    constructor
    · rintro ⟨extended, added, folded⟩
      obtain ⟨known, describes, fresh, rfl⟩ := addEntry_eq_ok.mp added
      obtain ⟨tasks, described, changedDistinct, rfl⟩ :=
        (inductionHypothesis (distinctWith fresh)).mp folded
      refine ⟨known :: tasks, .cons describes described, changedDistinct, ?_⟩
      dsimp only
      rw [List.append_assoc, List.singleton_append]
    · rintro ⟨tasks, described, changedDistinct, rfl⟩
      obtain _ | @⟨_, known, _, tasks, describes, described⟩ := described
      have fresh : known.1 ∉ registry.names := Ordered.not_mem_keys_of_nodup changedDistinct
      refine ⟨_, addEntry_eq_ok.mpr ⟨known, describes, fresh, rfl⟩,
        (inductionHypothesis (distinctWith fresh)).mpr ⟨tasks, described, changedDistinct, ?_⟩⟩
      dsimp only
      rw [List.append_assoc, List.singleton_append]

/-- A manifest describes a registry: its shared variables, and task by task its entries. -/
structure DescribesRegistry (manifest : Value) (registry : Registry) : Prop where
  distinct : registry.names.Nodup
  fields : ∃ fields env entries, manifest.entries? = some fields ∧
    Step.mappingField fields "env" .manifestEnv = .ok env ∧ Env.ofValue env = .ok registry.env ∧
    ((Value.field fields "tasks").orElse (.ofEntries [])).entries? = some entries ∧
    List.Forall₂ DescribesEntry entries registry.tasks

/-- What is read is what is described. -/
theorem ofManifest_eq_ok {manifest : Value} :
    (ofManifest manifest).result = .ok registry ↔ DescribesRegistry manifest registry := by
  have empty (env : Env) : (names ⟨env, []⟩).Nodup := List.nodup_nil
  rw [ofManifest]
  constructor
  · intro read
    split at read
    · rename_i fields opened
      rw [Logged.result_bind, Logged.result_lift] at read
      obtain ⟨env, given, read⟩ := bind_eq_ok.mp read
      rw [Logged.result_bind, Logged.result_lift] at read
      obtain ⟨bare, created, read⟩ := bind_eq_ok.mp read
      obtain ⟨settings, described, same⟩ := bind_eq_ok.mp created
      obtain rfl := Except.ok.inj same
      split at read
      · rename_i entries found
        obtain ⟨tasks, entriesDescribed, distinct, rfl⟩ :=
          (foldlM_addEntry_eq_ok (empty settings)).mp read
        exact ⟨distinct, fields, env, entries, opened, given, described, found, entriesDescribed⟩
      · cases read
    · cases read
  · rintro ⟨distinct, fields, env, entries, opened, given, described, found, entriesDescribed⟩
    rw [opened]
    dsimp only
    rw [Logged.result_bind, Logged.result_lift, given, ok_bind, Logged.result_bind,
      Logged.result_lift, create, described, ok_bind, found]
    exact (foldlM_addEntry_eq_ok (empty registry.env)).mpr
      ⟨registry.tasks, entriesDescribed, distinct, rfl⟩

/-- What is described is consistent. -/
theorem DescribesRegistry.isConsistent {manifest : Value}
    (describes : DescribesRegistry manifest registry) : registry.IsConsistent := by
  obtain ⟨distinct, fields, env, entries, -, -, described, -, entriesDescribed⟩ := describes
  refine ⟨Env.isValid_of_ofValue described, distinct, fun known member => ?_,
    fun known member => ?_⟩
  · obtain ⟨entry, -, describes⟩ := exists_mem_of_forall₂ entriesDescribed member
    exact ⟨describes.named, describes.describes.called⟩
  · obtain ⟨entry, -, describes⟩ := exists_mem_of_forall₂ entriesDescribed member
    exact describes.describes.isConsistent

/-- A manifest describes a registry if its fields do. -/
theorem describesRegistry_of_fields (place : Option Nat) {inner : Option Nat}
    {fields entries : List (Value × Value)} (valid : registry.env.IsValid)
    (distinct : registry.names.Nodup)
    (given : registry.env.IsGivenBy (Value.field fields "env"))
    (listed : Value.field fields "tasks" = .map inner entries)
    (described : List.Forall₂ DescribesEntry entries registry.tasks) :
    DescribesRegistry (.map place fields) registry := by
  obtain ⟨value, read, env⟩ := Step.mappingField_of_isGivenBy valid given .manifestEnv
  refine ⟨distinct, fields, value, entries, rfl, read, env, ?_, described⟩
  rw [listed]
  cases entries with
  | nil => rfl
  | cons entry rest => rfl

end Registry

end Taskbook
