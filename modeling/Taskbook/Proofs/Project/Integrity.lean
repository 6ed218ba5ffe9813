/-
Projects without references that lead nowhere.

Whatever changes without force are made to a project without a manifest, its files hold a closed
registry: all that a task spawns is there, and a task is rendered to a text or refused for a cycle.

The settings of the project stand in the way of that only where its variables cannot be read, since
a rendering starts from them. It fails with the same fault then, before any task is rendered.
-/

import Taskbook.Proofs.Closed

namespace Taskbook

/-! ### Variables that a rendering starts from -/

theorem Env.isWritableLayer_toValue (env : Env) : env.toValue.IsWritableLayer := by
  refine ⟨env.entries, env.layer_toValue, fun entry member => ?_⟩
  obtain ⟨⟨name, text⟩, -, rfl⟩ := List.mem_map.mp member
  exact ⟨Value.isWritable_str name, Value.isWritable_str text⟩

namespace Project

variable [Depths] {project : Project} {files : Files} {registry : Registry}

theorem Holds.render_eq (holds : project.Holds files registry) (name : Value)
    (reports : List Report) : (project.render name ⟨files, reports⟩).1 =
      orFault (project.baseEnv files).outcome >>= fun base =>
        (registry.render name base.toValue).result :=
  render_eq_of_load holds.loads name reports

/-! ### Changes without force -/

/-- After any changes without force the files hold a closed registry. All that its tasks spawn is
there. Each is rendered to a text or refused for a cycle, unless the variables of the settings
cannot be read, which is what the rendering fails with then. -/
theorem closed_after (fresh : project.IsFresh files) (changes : List Edit)
    (textual : ∀ change ∈ changes, change.IsTextual)
    (unforced : ∀ change ∈ changes, change.IsUnforced)
    (restored : ∀ run, run <+: changes → (Registry.after run).isRestored = true) :
    let left := project.filesAfter files changes
    ∃ registry, (project.load left).result = .ok registry ∧ registry.IsClosed ∧
      ∀ name task, (name, task) ∈ registry.tasks →
        (project.spawnedBy task left).result =
          .ok ((task.steps.filterMap Step.target?).map fun target =>
            ⟨target, .str View.present⟩) ∧
        ∀ reports,
          let rendered := (project.render (.str name) ⟨left, reports⟩).1
          match (project.baseEnv left).outcome with
          | .ok _ => (∃ text, rendered = .ok text) ∨
              ∃ error message, rendered = .error error ∧ error.notice = .ok ⟨.cycle, message⟩
          | .error fault => rendered = .error (.fault fault) := by
  obtain ⟨sound, holds⟩ := fresh.holds_after textual restored
  have closed := Registry.isClosed_after unforced
  refine ⟨_, holds.loads, closed, fun name task member => ⟨?_, fun reports => ?_⟩⟩
  · rw [spawnedBy, Logged.result_bind, holds.loads, ok_bind, Logged.result_liftFault,
      closed.spawned_eq member, orFault_ok]
  · dsimp only
    rw [holds.render_eq]
    cases outcome : (project.baseEnv (project.filesAfter files changes)).outcome with
    | error fault => rfl
    | ok base =>
      exact closed.render_cases sound base.isWritableLayer_toValue
        (List.mem_map_of_mem member)

end Project

namespace Project

/-- A task is created that spawns the one that is there, which cannot be removed then. -/
def sampleUnforced : List Edit :=
  sampleChanges ++
    [.create (.str "all") .null (.str "") .null .null .null,
      .addSubtask (.str "all") (.str "lint") .null .null,
      .remove (.str "lint") false]

theorem sampleUnforced_isTextual : ∀ change ∈ sampleUnforced, change.IsTextual := by
  simp [sampleUnforced, sampleChanges, Edit.IsTextual, Value.IsTextOrNull, Value.IsText]

theorem sampleUnforced_isUnforced : ∀ change ∈ sampleUnforced, change.IsUnforced := by
  simp [sampleUnforced, sampleChanges, Edit.IsUnforced]

theorem sampleUnforced_isRestored :
    ∀ run, run <+: sampleUnforced → (Registry.after run).isRestored = true := by
  have restored : ∀ run ∈ sampleUnforced.inits, (Registry.after run).isRestored = true := by
    decide +kernel
  exact fun run starts => restored run ((List.mem_inits _ _).mpr starts)

theorem sample_closed_after :
    let left := sample.filesAfter .empty sampleUnforced
    ∃ registry, (sample.load left).result = .ok registry ∧ registry.IsClosed ∧
      ∀ name task, (name, task) ∈ registry.tasks →
        (sample.spawnedBy task left).result =
          .ok ((task.steps.filterMap Step.target?).map fun target =>
            ⟨target, .str View.present⟩) ∧
        ∀ reports,
          let rendered := (sample.render (.str name) ⟨left, reports⟩).1
          match (sample.baseEnv left).outcome with
          | .ok _ => (∃ text, rendered = .ok text) ∨
              ∃ error message, rendered = .error error ∧ error.notice = .ok ⟨.cycle, message⟩
          | .error fault => rendered = .error (.fault fault) :=
  closed_after ⟨⟨by decide, rfl⟩, rfl, rfl⟩ sampleUnforced sampleUnforced_isTextual
    sampleUnforced_isUnforced sampleUnforced_isRestored

/-- The sample project with settings that are no text. -/
def garbled : Files :=
  ⟨.directory [("work", .directory [(directoryName,
    .directory [("config.yaml", .file ⟨#[0xff]⟩)])])]⟩

theorem baseEnv_garbled :
    (sample.baseEnv (sample.filesAfter garbled sampleChanges)).outcome =
      .error .undecodable := by
  have undecodable : (match (sample.baseEnv (sample.filesAfter garbled sampleChanges)).outcome with
      | .error .undecodable => true
      | _ => false) = true := by
    decide +kernel
  split at undecodable
  · assumption
  · cases undecodable

/-- Where the settings are no text, a task that is there is neither rendered nor refused for a
cycle. -/
theorem not_rendered_of_garbled :
    ¬ ∀ (project : Project) (files : Files) (changes : List Edit), project.IsFresh files →
      (∀ change ∈ changes, change.IsTextual) → (∀ change ∈ changes, change.IsUnforced) →
      (∀ run, run <+: changes → (Registry.after run).isRestored = true) →
      ∀ registry, (project.load (project.filesAfter files changes)).result = .ok registry →
      ∀ name task, (name, task) ∈ registry.tasks → ∀ reports,
        let rendered := (project.render (.str name) ⟨project.filesAfter files changes, reports⟩).1
        (∃ text, rendered = .ok text) ∨
          ∃ error message, rendered = .error error ∧ error.notice = .ok ⟨.cycle, message⟩ := by
  intro always
  have fresh : sample.IsFresh garbled :=
    ⟨⟨by decide, rfl⟩, rfl, rfl⟩
  have starts : sampleChanges <+: sampleUnforced :=
    List.prefix_append _ _
  have textual : ∀ change ∈ sampleChanges, change.IsTextual :=
    fun change member => sampleUnforced_isTextual change (starts.subset member)
  have unforced : ∀ change ∈ sampleChanges, change.IsUnforced :=
    fun change member => sampleUnforced_isUnforced change (starts.subset member)
  have restored : ∀ run, run <+: sampleChanges → (Registry.after run).isRestored = true :=
    fun run earlier => sampleUnforced_isRestored run (earlier.trans starts)
  have holds := (fresh.holds_after textual restored).2
  obtain ⟨⟨name, task⟩, member, -⟩ :
      ∃ entry ∈ (Registry.after sampleChanges).tasks, entry.1 = "lint" :=
    List.mem_map.mp (by decide +kernel)
  have outcome := always sample garbled sampleChanges fresh textual unforced restored _
    holds.loads name task member []
  rw [holds.render_eq, baseEnv_garbled] at outcome
  rcases outcome with ⟨text, given⟩ | ⟨error, message, given, noticed⟩
  · cases given
  · cases given
    cases noticed

end Project

end Taskbook
