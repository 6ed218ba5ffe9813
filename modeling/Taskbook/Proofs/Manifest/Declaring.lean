/-
What a manifest declares, and the environments that are read from it.

Variables are declared in three places of a manifest: for all tasks, with a task, and with a step of
a task. Where a rendering makes use of such a place, the layer that is written there has been read
from the entries that are declared there.
-/

import Taskbook.Proofs.Rendering.Layering
import Taskbook.Proofs.Yaml.Keying

namespace Taskbook

/-- Where no two keys are equal, each entry sets its variable to the text of its value. -/
theorem Env.mem_of_ofEntries {entries : List (Value × Value)} {env : Env}
    (keyed : Value.AreKeyed entries) (made : ofEntries entries = .ok env) {key : String}
    {value : Value} (member : (.str key, value) ∈ entries) :
    ∃ text, value.text = .ok text ∧ (key, text) ∈ env := by
  have set := ofEntries_isOk.mp ⟨env, made⟩
  have distinct : (entries.map Prod.fst).Nodup := by
    refine List.pairwise_map.mpr (keyed.imp_of_mem fun first _ differ same => ?_)
    obtain ⟨name, isName, -⟩ := (set _ first).1
    rw [← same, isName, Value.same_str] at differ
    cases differ
  obtain ⟨⟨name, text⟩, assigned, sameName, written⟩ :=
    exists_mem_of_forall₂ (forall₂_of_ofEntries distinct made).flip member
  obtain rfl := Value.str.inj sameName
  exact ⟨text, written, assigned⟩

/-- The variables of a field that is a mapping are those of its entries. -/
theorem Step.ofValue_of_mappingField {fields entries : List (Value × Value)} {name : String}
    {error : Error} {value : Value} (read : mappingField fields name error = .ok value)
    (given : Value.mappingAt? fields name = some entries) :
    Env.ofValue value = Env.ofEntries entries := by
  obtain ⟨rfl, -⟩ := mappingField_eq_ok.mp read
  exact Env.ofValue_of_entries? given

theorem Step.ofEntries_of_ofRecord {record : Value} {step : Step}
    {fields entries : List (Value × Value)} (read : ofRecord record = .ok step)
    (opened : record.entries? = some fields)
    (given : Value.mappingAt? fields "env" = some entries) :
    Env.ofEntries entries = .ok step.env := by
  rw [ofRecord, opened] at read
  obtain ⟨⟨⟩, -, read⟩ := bind_eq_ok.mp read
  obtain ⟨value, mapped, made⟩ := bind_eq_ok.mp read
  obtain ⟨-, -, -, -, described⟩ := make_eq_ok.mp made
  rwa [ofValue_of_mappingField mapped given] at described

namespace Registry

variable {registry : Registry} {manifest : Value} {fields : List (Value × Value)}

/-- Among the fields of a manifest a task has a record, which has some fields itself. -/
def HasRecord (fields : List (Value × Value)) (name : String) (record : Value)
    (inner : List (Value × Value)) : Prop :=
  ∃ tasks key, Value.mappingAt? fields "tasks" = some tasks ∧ (key, record) ∈ tasks ∧
    key.text = .ok name ∧ record.entries? = some inner

/-- The entries for variables at a place of a manifest. -/
inductive Declares (fields : List (Value × Value)) : Origin → List (Value × Value) → Prop
  | manifest {entries : List (Value × Value)}
      (given : Value.mappingAt? fields "env" = some entries) :
      Declares fields .manifest entries
  | task {name : String} {record : Value} {inner entries : List (Value × Value)}
      (recorded : HasRecord fields name record inner)
      (given : Value.mappingAt? inner "env" = some entries) :
      Declares fields (.task name) entries
  | step {name : String} {record step : Value} {inner parts entries : List (Value × Value)}
      {steps : List Value} {index : Nat} (recorded : HasRecord fields name record inner)
      (listed : Value.listAt? inner "steps" = some steps) (there : steps[index]? = some step)
      (opened : step.entries? = some parts)
      (given : Value.mappingAt? parts "env" = some entries) :
      Declares fields (.step name index) entries

/-- What is declared has no equal keys if nothing in the manifest has. -/
theorem Declares.areKeyed (keyed : manifest.IsKeyed) (opened : manifest.entries? = some fields)
    {origin : Origin} {entries : List (Value × Value)} (declares : Declares fields origin entries) :
    Value.AreKeyed entries := by
  cases declares with
  | manifest given => exact keyed.areKeyed opened given
  | task recorded given =>
    obtain ⟨tasks, key, listed, member, -, recordOpened⟩ := recorded
    exact (keyed.inside (Value.isInside_of_mappingAt? opened listed member)).areKeyed
      recordOpened given
  | step recorded stepsListed there stepOpened given =>
    obtain ⟨tasks, key, listed, member, -, recordOpened⟩ := recorded
    have inRecord := Value.isInside_of_listAt? recordOpened stepsListed (List.mem_of_getElem? there)
    have inManifest := Value.isInside_of_mappingAt? opened listed member
    exact (keyed.inside (inManifest.trans inRecord)).areKeyed stepOpened given

/-- The variables of a task are those of its record, and so are its steps. -/
theorem Describes.read {name : String} {record : Value} {task : Task}
    {inner : List (Value × Value)} (describes : Describes name record task)
    (opened : record.entries? = some inner) :
    (∀ entries, Value.mappingAt? inner "env" = some entries →
      Env.ofEntries entries = .ok task.env) ∧
    ∀ steps, Value.listAt? inner "steps" = some steps →
      steps.mapM Step.ofRecord = .ok task.steps := by
  obtain ⟨otherInner, value, records, checked, -, -, -, described, read⟩ := describes.fields
  obtain ⟨settings, isMap, shaped⟩ := isRecord_of_checkRecord checked
  obtain rfl := Option.some.inj (opened.symm.trans shaped.opened)
  rw [Env.ofValue_of_entries? isMap] at described
  refine ⟨fun entries given => ?_, fun steps listed => ?_⟩
  · obtain rfl := Option.some.inj (given.symm.trans shaped.given)
    exact described
  · obtain rfl := Option.some.inj (listed.symm.trans shaped.listed)
    exact read

/-- A task that is read under a name is the one that its record describes. -/
theorem DescribesRegistry.describes_of_hasRecord (describes : DescribesRegistry manifest registry)
    (opened : manifest.entries? = some fields) {name : String} {record : Value}
    {inner : List (Value × Value)} (recorded : HasRecord fields name record inner) {task : Task}
    (known : registry.IsKnown task) (called : task.name = .str name) :
    Describes name record task := by
  have consistent := describes.isConsistent
  obtain ⟨tasks, key, listed, member, keyText, -⟩ := recorded
  obtain ⟨-, otherFields, value, entries, otherOpened, -, -, otherListed, each⟩ := describes
  obtain rfl := Option.some.inj (opened.symm.trans otherOpened)
  obtain rfl := Option.some.inj (listed.symm.trans otherListed)
  obtain ⟨⟨text, other⟩, otherMember, describesEntry⟩ := exists_mem_of_forall₂ each.flip member
  have otherDescribed := describesEntry.describes
  obtain rfl := Except.ok.inj (keyText.symm.trans describesEntry.key)
  obtain rfl := known.unique consistent ⟨_, otherMember, rfl⟩ called
    otherDescribed.called
  exact otherDescribed

/-- A layer of a rendering is read from what is declared where it is written. -/
theorem Declares.ofEntries (describes : DescribesRegistry manifest registry)
    (opened : manifest.entries? = some fields) {origin : Origin} {entries : List (Value × Value)}
    (declares : Declares fields origin entries) {base env : Env} {root : Task}
    (known : registry.IsKnown root) (layer : Layer registry base root origin env) :
    Env.ofEntries entries = .ok env := by
  cases declares with
  | manifest given =>
    cases layer
    obtain ⟨-, otherFields, value, -, otherOpened, mapped, described, -, -⟩ := describes
    obtain rfl := Option.some.inj (opened.symm.trans otherOpened)
    rwa [Step.ofValue_of_mappingField mapped given] at described
  | task recorded given =>
    cases layer with
    | task descent called =>
      have own := describes.describes_of_hasRecord opened recorded (descent.isKnown known).1 called
      obtain ⟨-, -, -, -, -, recordOpened⟩ := recorded
      exact (own.read recordOpened).1 _ given
  | step recorded listed there stepOpened given =>
    cases layer with
    | step descent called located =>
      have own := describes.describes_of_hasRecord opened recorded (descent.isKnown known).1 called
      obtain ⟨-, -, -, -, -, recordOpened⟩ := recorded
      obtain ⟨step, otherLocated, read⟩ :=
        getElem?_of_mapM ((own.read recordOpened).2 _ listed) there
      obtain rfl := Option.some.inj (located.symm.trans otherLocated)
      exact Step.ofEntries_of_ofRecord read stepOpened given

end Registry

end Taskbook
