/-
Changes to the files of a project and to a registry in memory.

Every change to a project loads the registry from the files and saves it again. Carried out on the
files one after the other, from a project without a manifest on, changes have the outcomes that
they have on one registry that is kept in memory. After each of them the registry in memory is the
one that the files hold, and a task that was created or edited is the one that is found then.

Names, bands and environments may be any values, since they are checked. What is read of a manifest
is taken to be a copy of what was written, for each registry on the way.
-/

import Mathlib.Data.List.Infix
import Taskbook.Edit
import Taskbook.Project.Viewing
import Taskbook.Proofs.Project.Keeping

namespace Taskbook

namespace Registry

/-- A registry after a change; one that cannot be made leaves it as it is. -/
def edited (registry : Registry) (change : Edit) : Registry :=
  match change.outcome registry with
  | .ok (changed, _) => changed
  | .error _ => registry

/-- What changes make of the empty registry, one after the other. -/
def after (changes : List Edit) : Registry :=
  changes.foldl edited blank

theorem after_concat (changes : List Edit) (change : Edit) :
    after (changes ++ [change]) = (after changes).edited change := by
  rw [after, List.foldl_append]
  rfl

variable {registry changed : Registry} {change : Edit}

theorem edited_of_ok {task? : Option Task} (made : change.outcome registry = .ok (changed, task?)) :
    registry.edited change = changed := by
  rw [edited, made]

theorem edited_of_error {error : Error} (failed : change.outcome registry = .error error) :
    registry.edited change = registry := by
  rw [edited, failed]

theorem IsSound.edited (sound : registry.IsSound) (textual : change.IsTextual) :
    (registry.edited change).IsSound := by
  cases outcome : change.outcome registry with
  | error error =>
    rwa [edited_of_error outcome]
  | ok result =>
    rw [edited_of_ok outcome]
    exact (Edit.leaves_of_outcome sound textual outcome).1

end Registry

namespace Project

variable [Depths]

/-- The files after a change to a project. -/
def carryOut (project : Project) (files : Files) (change : Edit) : Files :=
  (project.edit change ⟨files, []⟩).2.files

/-- The files after changes to a project, each carried out by itself. -/
def filesAfter (project : Project) (files : Files) (changes : List Edit) : Files :=
  changes.foldl project.carryOut files

theorem filesAfter_concat (project : Project) (files : Files) (changes : List Edit)
    (change : Edit) : project.filesAfter files (changes ++ [change]) =
      project.carryOut (project.filesAfter files changes) change := by
  rw [filesAfter, List.foldl_append]
  rfl

variable {project : Project} {files : Files} {registry : Registry} {change : Edit}

/-- A change has the same outcome on files that hold a registry as on the registry, and the files
hold the changed one then. -/
theorem Holds.edit (holds : project.Holds files registry) (placed : project.IsPlaced)
    (sound : registry.IsSound) (textual : change.IsTextual)
    (restored : (registry.edited change).isRestored = true) (reports : List Report) :
    ∃ left, project.edit change ⟨files, reports⟩ =
        ((change.outcome registry).map Prod.snd, left) ∧
      project.Holds left.files (registry.edited change) := by
  cases checked : change.check with
  | error error =>
    have checking : (liftM change.check : Operation Unit) ⟨files, reports⟩ =
        (.error error, ⟨files, reports⟩) := by
      rw [Operation.lift_apply, checked]
    have failed : change.outcome registry = .error error := by
      rw [Edit.outcome, checked, error_bind]
    rw [Registry.edited_of_error failed, failed]
    exact ⟨⟨files, reports⟩, Operation.bind_of_error checking _, holds⟩
  | ok passed =>
    have checking : (liftM change.check : Operation Unit) ⟨files, reports⟩ =
        (.ok (), ⟨files, reports⟩) := by
      rw [Operation.lift_apply, checked]
    have loading : (liftM (project.load files) : Operation Registry) ⟨files, reports⟩ =
        (.ok registry, ⟨files, reports ++ (project.load files).records.map .record⟩) := by
      rw [Operation.liftLogged_apply, holds.loads]
    have applying := @Operation.liftLogged_apply _
      ⟨files, reports ++ (project.load files).records.map .record⟩ (change.apply registry)
    have outcome : change.outcome registry = (change.apply registry).result := by
      rw [Edit.outcome, checked, ok_bind]
    rw [← outcome] at applying
    rw [Project.edit, Operation.bind_of_ok checking, Operation.bind_of_ok Operation.files_apply,
      Operation.bind_of_ok loading]
    cases made : change.outcome registry with
    | error error =>
      rw [made] at applying
      rw [Registry.edited_of_error made]
      exact ⟨_, Operation.bind_of_error applying _, holds⟩
    | ok result =>
      obtain ⟨changed, task?⟩ := result
      rw [made] at applying
      rw [Registry.edited_of_ok made] at restored ⊢
      obtain ⟨changedSound, ⟨records, worded⟩, -⟩ :=
        Edit.leaves_of_outcome sound textual made
      obtain ⟨left, saved, held⟩ := holds.save placed changedSound restored _
      rw [Operation.bind_of_ok applying]
      dsimp only
      rw [Operation.bind_of_ok saved, worded]
      exact ⟨_, rfl, held⟩

/-- After any changes the files hold the registry that the same changes make in memory, and it is
sound. -/
theorem IsFresh.holds_after (fresh : project.IsFresh files) {changes : List Edit}
    (textual : ∀ change ∈ changes, change.IsTextual)
    (restored : ∀ run, run <+: changes → (Registry.after run).isRestored = true) :
    (Registry.after changes).IsSound ∧
      project.Holds (project.filesAfter files changes) (Registry.after changes) := by
  induction changes using List.reverseRecOn with
  | nil => exact ⟨Registry.isSound_blank, fresh.holds_blank⟩
  | append_singleton changes change inductionHypothesis =>
    have changeTextual := textual change (List.mem_append_right _ List.mem_cons_self)
    obtain ⟨sound, holds⟩ := inductionHypothesis
      (fun other member => textual other (List.mem_append_left _ member))
      fun run starts => restored run (starts.trans (List.prefix_append changes [change]))
    have changedRestored := restored _ (List.prefix_refl _)
    rw [Registry.after_concat] at changedRestored ⊢
    obtain ⟨left, ran, held⟩ :=
      holds.edit fresh.toIsPlaced sound changeTextual changedRestored []
    refine ⟨sound.edited changeTextual, ?_⟩
    rw [filesAfter_concat, carryOut, ran]
    exact held

/-- Changes to the files of a project have the outcomes that they have in memory. Whatever changes
came before, the next one fails on the files exactly if it fails in memory, and then with the same
error; the files hold the registry in memory before it and after it; and the task that it gives is
the one that is found under its name then. -/
theorem edit_after (fresh : project.IsFresh files) (changes : List Edit) (change : Edit)
    (textual : ∀ made ∈ changes ++ [change], made.IsTextual)
    (restored : ∀ run, run <+: changes ++ [change] → (Registry.after run).isRestored = true) :
    let before := project.filesAfter files changes
    let after := project.filesAfter files (changes ++ [change])
    let outcome := (project.edit change ⟨before, []⟩).1
    (project.load before).result = .ok (Registry.after changes) ∧
      outcome = (change.outcome (Registry.after changes)).map Prod.snd ∧
      (project.load after).result = .ok (Registry.after (changes ++ [change])) ∧
      ∀ task, outcome = .ok (some task) → (project.view change.target after).result = .ok task := by
  have changeTextual := textual change (List.mem_append_right _ List.mem_cons_self)
  obtain ⟨sound, holds⟩ := fresh.holds_after
    (fun made member => textual made (List.mem_append_left _ member))
    fun run starts => restored run (starts.trans (List.prefix_append changes [change]))
  have holdsAfter := (fresh.holds_after textual restored).2
  have changedRestored := restored _ (List.prefix_refl _)
  rw [Registry.after_concat] at changedRestored
  obtain ⟨left, ran, -⟩ := holds.edit fresh.toIsPlaced sound changeTextual changedRestored []
  refine ⟨holds.loads, by rw [ran], holdsAfter.loads, fun task given => ?_⟩
  rw [ran] at given
  obtain ⟨⟨changed, task?⟩, made, rfl⟩ := map_eq_ok.mp given
  obtain ⟨-, -, found⟩ := Edit.leaves_of_outcome sound changeTextual made
  obtain ⟨key, resolved⟩ := found task rfl
  have loads := holdsAfter.loads
  rw [Registry.after_concat, Registry.edited_of_ok made] at loads
  rw [view, Logged.result_bind, loads, ok_bind, Logged.result_bind, Logged.result_lift,
    Registry.find_eq_ok.mpr resolved, ok_bind]
  rfl

end Project

namespace Project

/-- A project that is not there yet. -/
def sample : Project :=
  ⟨⟨["work", directoryName]⟩⟩

/-- A task is created, and then it cannot spawn one that is not there. -/
def sampleChanges : List Edit :=
  [.create (.str "lint") .null (.str "") .null .null .null,
    .addSubtask (.str "lint") (.str "test") .null .null]

/-- A command is added to the task that is there. -/
theorem sample_edit_after :
    let change := Edit.addCommand (.str "lint") (.str "ruff check") true .null .null
    let before := sample.filesAfter .empty sampleChanges
    let after := sample.filesAfter .empty (sampleChanges ++ [change])
    let outcome := (sample.edit change ⟨before, []⟩).1
    (sample.load before).result = .ok (Registry.after sampleChanges) ∧
      outcome = (change.outcome (Registry.after sampleChanges)).map Prod.snd ∧
      (sample.load after).result = .ok (Registry.after (sampleChanges ++ [change])) ∧
      ∀ task, outcome = .ok (some task) → (sample.view change.target after).result = .ok task := by
  have fresh : sample.IsFresh .empty :=
    ⟨⟨by decide, rfl⟩, rfl, rfl⟩
  have restored : ∀ run ∈ (sampleChanges ++
      [Edit.addCommand (.str "lint") (.str "ruff check") true .null .null]).inits,
      (Registry.after run).isRestored = true := by
    decide +kernel
  refine edit_after fresh sampleChanges _ ?_ fun run starts =>
    restored run ((List.mem_inits _ _).mpr starts)
  simp [sampleChanges, Edit.IsTextual, Value.IsTextOrNull, Value.IsText]

end Project

end Taskbook
