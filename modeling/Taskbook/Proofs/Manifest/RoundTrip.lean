/-
Manifests that are written and read.

A consistent registry is what its own manifest describes: reading the manifest gives back the same
registry, with all tasks, steps and variables in their order. So reading undoes writing after any
changes in memory. The manifest that is saved leaves out what says nothing. Of a registry of texts
nothing gets lost by that, so what is saved is read as the same registry, too.
-/

import Taskbook.Proofs.Changing
import Taskbook.Proofs.Manifest.Resaving

namespace Taskbook

open Manifest Value

/-! ### Full manifests -/

namespace Step

variable {step : Step}

theorem IsConsistent.ofRecord_record (consistent : step.IsConsistent) :
    ofRecord step.record = .ok step := by
  obtain ⟨command, target, label, given⟩ := step.field_fields
  obtain ⟨value, read, described⟩ := ofRecord_of_fields none
    (hasOnly_keyed step.keys_fields.subset) consistent.env given
  rw [record_eq, ofEntries, read, command, target, label]
  exact make_eq_ok.mpr ⟨rfl, rfl, rfl, consistent.acts, described⟩

end Step

namespace Registry

theorem describes_record {name : String} {task : Task} (consistent : task.IsConsistent)
    (called : task.name = .str name) : Describes name task.record task := by
  have declared : field? (keyed task.fields) "name" = some (.str name) := by
    rw [← called]
    rfl
  have listed : field (keyed task.fields) "steps" = .ofItems (task.steps.map Step.record) := rfl
  have within : task.fields.keys ⊆ taskKeys :=
    (by decide : ["name", "category", "description", "env", "steps", "condition"] ⊆ taskKeys)
  obtain ⟨value, checked, described⟩ := checkRecord_of_fields none
    (hasOnly_keyed within) (by rw [declared, Option.getD_some]) consistent.env
    (Env.isGivenBy_toValue task.env) listed
  have recordsRead : (task.steps.map Step.record).mapM Step.ofRecord = .ok task.steps := by
    have each : (task.steps.map Step.record).mapM Step.ofRecord = .ok (task.steps.map id) :=
      mapM_map_eq_ok fun step member => (consistent.steps step member).ofRecord_record
    rwa [List.map_id] at each
  exact ⟨called, _, value, _, checked, rfl, Category.parse_toValue task.category, rfl, described,
    recordsRead⟩

variable {registry : Registry}

/-- A consistent registry is read from its own manifest. -/
theorem IsOf.ofManifest_manifest (consistent : registry.IsConsistent) :
    (ofManifest registry.manifest).result = .ok registry := by
  refine ofManifest_eq_ok.mpr (describesRegistry_of_fields none consistent.env consistent.distinct
    (Env.isGivenBy_toValue registry.env) rfl ?_)
  rw [List.forall₂_map_left_iff, List.forall₂_same]
  intro entry member
  obtain ⟨named, called⟩ := consistent.named entry member
  exact ⟨rfl, named, describes_record (consistent.tasks entry member) called⟩

end Registry

/-! ### Saved manifests of texts -/

theorem Step.IsSound.tells {step : Step} (sound : step.IsSound) : step.Tells := by
  obtain ⟨action, label, env⟩ := step
  cases action with
  | run command =>
    obtain ⟨text, rfl⟩ := sound.textual.command command rfl
    rfl
  | spawn target =>
    obtain ⟨name, rfl⟩ := sound.textual.target target rfl
    rfl

theorem Step.IsSound.kept_eq {step : Step} (sound : step.IsSound) : step.kept = step := by
  rw [kept, sound.textual.label.kept_eq]

theorem Task.IsSound.kept_eq {task : Task} (sound : task.IsSound) : task.kept = task := by
  have steps : task.steps.map Step.kept = task.steps :=
    (List.map_congr_left fun step member => (sound.steps step member).kept_eq).trans
      (List.map_id task.steps)
  rw [kept, sound.description.kept_eq, sound.condition.kept_eq, steps]

namespace Registry

variable {registry : Registry}

theorem IsSound.tells (sound : registry.IsSound) : registry.Tells :=
  fun entry member step inside => ((sound.tasks entry member).steps step inside).tells

theorem IsSound.kept_eq (sound : registry.IsSound) : registry.kept = registry := by
  have each (entry : String × Task) (member : entry ∈ registry.tasks) :
      (entry.1, entry.2.kept) = id entry := by
    rw [(sound.tasks entry member).kept_eq]
    rfl
  rw [kept, List.map_congr_left each, List.map_id]

theorem IsSound.isConsistent (sound : registry.IsSound) : registry.IsConsistent where
  env := sound.env
  distinct := sound.distinct
  named := sound.named
  tasks := fun entry member => ⟨(sound.tasks entry member).env,
    fun step inside => ((sound.tasks entry member).steps step inside).isConsistent⟩

/-! ### After any changes -/

/-- A change that is made of texts, as far as it is kept as it is, and does not replace the
registry. -/
structure Change.IsTextual (change : Change) : Prop where
  parts : change.IsMadeOf IsTextOrNull
  inPlace : ∀ manifest, change ≠ .replace manifest

/-- From an empty registry on, and after any changes of texts, successful or not, the registry is
read from its own manifest, and from what is saved for that manifest. -/
theorem ofManifest_after {env : Value} {start : Registry} (created : create env = .ok start)
    (records : List Record) (changes : List Change)
    (textual : ∀ change ∈ changes, change.IsTextual) :
    let reached := (Memory.after ⟨start, records⟩ changes).registry
    (ofManifest reached.manifest).result = .ok reached ∧
      ∃ data, saved reached.manifest = .ok data ∧ (ofManifest data).result = .ok reached := by
  intro reached
  have sound : reached.IsSound := by
    refine isSound_iff.mpr (Memory.holds_after (IsOf Task.IsSound) ?_
      (isOf_of_create created))
    intro change member registry changed before makes
    have changeTextual := textual change member
    exact before.made Task.isKept_isSound changeTextual.parts
      (fun manifest same => (changeTextual.inPlace manifest same).elim) makes
  have consistent := sound.isConsistent
  refine ⟨consistent.ofManifest_manifest, _, saved_manifest consistent.env, ?_⟩
  exact consistent.ofManifest_saved.mpr ⟨sound.tells, sound.kept_eq.symm⟩

/-- Changes to tasks that spawn each other and one that is not there, with an empty label and a
blank command. The last one fails. -/
def crossedChanges : List Change :=
  [.add (.str "lint") (Value.str " ") (.str "") (.str "test") .null (Value.ofEntries []),
    .edit (.str "lint") (.spawn (some (.str "all")) (.str "") .null),
    .add (.str "all") .null .null .null (.str "true") (Value.ofEntries [(.str "CI", .str "1")]),
    .edit (.str "all") (.addStep (Value.ofEntries [(.str "exec_task", .str "lint")])),
    .edit (.str "all") (.spawn (some (.str "lost")) .null (Value.ofEntries [(.str "A", .str "")])),
    .remove (.str "lost")]

/-- The registry that these changes lead to. -/
def crossed : Registry :=
  ⟨[],
    [("lint", ⟨.str "lint", .str "", some .test, .null, [],
        [⟨.run (.str " "), .null, []⟩, ⟨.spawn (.str "all"), .str "", []⟩]⟩),
      ("all", ⟨.str "all", .null, none, .str "true", [("CI", "1")],
        [⟨.spawn (.str "lint"), .null, []⟩, ⟨.spawn (.str "lost"), .null, [("A", "")]⟩]⟩)]⟩

theorem crossed_ofManifest_after :
    let reached := (Memory.after ⟨blank, []⟩ crossedChanges).registry
    create .null = .ok blank ∧ reached = crossed ∧
      (∀ change ∈ crossedChanges, change.IsTextual) ∧
      (ofManifest reached.manifest).result = .ok reached ∧
      ∃ data, saved reached.manifest = .ok data ∧ (ofManifest data).result = .ok reached := by
  have created : create .null = .ok blank := rfl
  have textual : ∀ change ∈ crossedChanges, change.IsTextual := by
    intro change member
    simp only [crossedChanges, List.mem_cons, List.not_mem_nil, or_false] at member
    refine ⟨?_, by rcases member with rfl | rfl | rfl | rfl | rfl | rfl <;> simp⟩
    rcases member with rfl | rfl | rfl | rfl | rfl | rfl <;>
      simp [Change.IsMadeOf, Task.Change.parts, Argument.value?, Step.partsOf, IsTextOrNull, IsText,
        entries?, opened, ofEntries, field, field?]
  exact ⟨created, rfl, textual, ofManifest_after created [] crossedChanges textual⟩

end Registry

end Taskbook
