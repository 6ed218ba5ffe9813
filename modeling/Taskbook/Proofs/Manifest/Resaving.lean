/-
Manifests that are saved and read again.

A registry that has been read is saved without the fields that say nothing, and what was left out
is read as null. Labels, descriptions and conditions that say nothing do not matter: the registry
that is read again has the same tasks with the same number of steps, and it renders alike. But a
step must run or spawn something, and an empty list or mapping counts as something when a step is
read, while it is left out when the step is saved. So a registry is read again exactly if no step
of it runs or spawns an empty list or mapping.
-/

import Taskbook.Proofs.Manifest.Saving
import Taskbook.Proofs.Rendering.Likeness

namespace Taskbook

open Manifest Value

/-! ### What is kept -/

/-- A step as it is read after it has been saved, if it can be read. -/
def Step.kept (step : Step) : Step :=
  { step with label := step.label.kept }

/-- A task as it is read after it has been saved. -/
def Task.kept (task : Task) : Task :=
  { task with
    description := task.description.kept
    condition := task.condition.kept
    steps := task.steps.map Step.kept }

/-- A registry as it is read after it has been saved. -/
def Registry.kept (registry : Registry) : Registry :=
  { registry with tasks := registry.tasks.map fun entry => (entry.1, entry.2.kept) }

/-- A step that does not run or spawn an empty list or mapping. -/
def Step.Tells (step : Step) : Prop :=
  isVoid step.action.operand = false

/-- A registry in which no step runs or spawns an empty list or mapping. -/
def Registry.Tells (registry : Registry) : Prop :=
  ∀ entry ∈ registry.tasks, ∀ step ∈ entry.2.steps, step.Tells

/-! ### Renderings -/

namespace Value

variable {value : Value}

theorem isTruthy_of_isVoid (void : isVoid value = true) : value.isTruthy = false := by
  unfold isVoid at void
  unfold isTruthy
  split at void
  · rename_i opened
    rw [opened]
  · rename_i opened
    rw [opened]
    rfl
  · rename_i opened
    rw [opened]
    rfl
  · cases void

theorem kept_cases (value : Value) :
    value.kept = value ∨ value.isTruthy = false ∧ value.kept = .null := by
  cases void : isVoid value with
  | true => exact Or.inr ⟨isTruthy_of_isVoid void, kept_of_void void⟩
  | false => exact Or.inl (kept_of_not_void void)

theorem labelScript_kept (label : Value) :
    Registry.labelScript label.kept = Registry.labelScript label := by
  rcases label.kept_cases with same | ⟨absent, same⟩
  · rw [same]
  · rw [same]
    unfold Registry.labelScript
    rw [absent]
    rfl

theorem gated_kept (condition : Value) :
    Registry.gated condition.kept = Registry.gated condition := by
  rcases condition.kept_cases with same | ⟨absent, same⟩
  · rw [same]
  · funext steps
    rw [same, Registry.gated, Registry.gated, absent]
    rfl

end Value

theorem Task.kept_rendersLike (task : Task) : task.kept.RendersLike task where
  name := rfl
  env := rfl
  condition := gated_kept task.condition
  steps := by
    rw [kept, List.forall₂_map_left_iff, List.forall₂_same]
    exact fun step _ => ⟨rfl, rfl, labelScript_kept step.label⟩

theorem Registry.kept_rendersLike (registry : Registry) : registry.kept.RendersLike registry where
  env := rfl
  tasks := by
    rw [kept, List.forall₂_map_left_iff, List.forall₂_same]
    exact fun entry _ => ⟨rfl, entry.2.kept_rendersLike⟩

/-! ### Steps -/

namespace Step

variable {step : Step}

/-- Only one of the command and the target can get lost, since null is kept as it is. -/
theorem kept_of_not_tells (void : isVoid step.action.operand = true) :
    step.command.kept = .null ∧ (step.target?.getD .null).kept = .null := by
  obtain ⟨action, label, env⟩ := step
  cases action with
  | run operand => exact ⟨kept_of_void void, rfl⟩
  | spawn operand => exact ⟨rfl, kept_of_void void⟩

theorem Tells.kept (tells : step.Tells) :
    step.command.kept = step.command ∧
      (step.target?.getD .null).kept = step.target?.getD .null := by
  obtain ⟨action, label, env⟩ := step
  cases action with
  | run operand => exact ⟨kept_of_not_void tells, rfl⟩
  | spawn operand => exact ⟨rfl, kept_of_not_void tells⟩

theorem IsConsistent.make_kept (consistent : step.IsConsistent) {value : Value}
    (described : Env.ofValue value = .ok step.env) (again : Step) :
    make step.command.kept (step.target?.getD .null).kept step.label.kept value = .ok again ↔
      step.Tells ∧ again = step.kept := by
  cases void : isVoid step.action.operand with
  | true =>
    obtain ⟨noCommand, noTarget⟩ := kept_of_not_tells void
    rw [noCommand, noTarget, Tells, void]
    constructor
    · intro made
      cases made
    · rintro ⟨tells, -⟩
      cases tells
  | false =>
    obtain ⟨command, target⟩ := Tells.kept void
    have made : make step.command (step.target?.getD .null) step.label.kept value =
        .ok step.kept :=
      make_eq_ok.mpr ⟨rfl, rfl, rfl, consistent.acts, described⟩
    rw [command, target, made]
    constructor
    · intro same
      exact ⟨void, (Except.ok.inj same).symm⟩
    · rintro ⟨-, rfl⟩
      rfl

/-- A saved step is read exactly if it tells what it does, and then it is what has been kept. -/
theorem IsConsistent.ofRecord_saved (consistent : step.IsConsistent) (again : Step) :
    ofRecord step.saved = .ok again ↔ step.Tells ∧ again = step.kept := by
  obtain ⟨command, target, label, given⟩ := step.field_fields
  have held (name : String) : field (keyed step.savedFields) name =
      (field (keyed step.fields) name).kept := field_keyed_filter step.nodup_keys_fields name
  have givenSaved : step.env.IsGivenBy (field (keyed step.savedFields) "env") := by
    rw [held]
    exact given.kept
  obtain ⟨value, read, described⟩ := ofRecord_of_fields none
    (hasOnly_keyed step.keys_savedFields) consistent.env givenSaved
  rw [held, held, held, command, target, label] at read
  rw [saved, ofEntries, read]
  exact consistent.make_kept described again

theorem mapM_ofRecord_saved {steps : List Step}
    (consistent : ∀ step ∈ steps, step.IsConsistent) (again : List Step) :
    (steps.map saved).mapM ofRecord = .ok again ↔
      (∀ step ∈ steps, step.Tells) ∧ again = steps.map kept := by
  induction steps generalizing again with
  | nil =>
    constructor
    · intro same
      exact ⟨fun step member => (List.not_mem_nil member).elim, (Except.ok.inj same).symm⟩
    · rintro ⟨-, rfl⟩
      rfl
  | cons step rest inductionHypothesis =>
    have first := (consistent step List.mem_cons_self).ofRecord_saved
    have others := inductionHypothesis fun other member =>
      consistent other (List.mem_cons_of_mem _ member)
    rw [List.map_cons, List.mapM_cons, List.map_cons, List.forall_mem_cons]
    constructor
    · intro read
      obtain ⟨head, made, read⟩ := bind_eq_ok.mp read
      obtain ⟨tail, further, same⟩ := bind_eq_ok.mp read
      obtain rfl := Except.ok.inj same
      obtain ⟨tells, rfl⟩ := (first head).mp made
      obtain ⟨othersTell, rfl⟩ := (others tail).mp further
      exact ⟨⟨tells, othersTell⟩, rfl⟩
    · rintro ⟨⟨tells, othersTell⟩, rfl⟩
      rw [(first _).mpr ⟨tells, rfl⟩, ok_bind, (others _).mpr ⟨othersTell, rfl⟩]
      rfl

end Step

/-! ### Tasks -/

namespace Registry

section Tasks

variable {name : String} {task : Task}

theorem checkRecord_saved (consistent : task.IsConsistent) (called : task.name = .str name) :
    ∃ value, checkRecord name (.ofEntries (keyed task.savedFields)) =
        .ok (keyed task.savedFields, value, task.steps.map Step.saved) ∧
      Env.ofValue value = .ok task.env := by
  have given : task.env.IsGivenBy (field (keyed task.savedFields) "env") := by
    rw [task.field_savedFields (by decide)]
    exact (Env.isGivenBy_toValue task.env).kept
  exact checkRecord_of_fields none (hasOnly_keyed task.keys_savedFields)
    (by rw [Task.field?_name_savedFields called, Option.getD_some]) consistent.env given
    task.field_steps_savedFields

theorem describes_saved (consistent : task.IsConsistent) (called : task.name = .str name)
    (tells : ∀ step ∈ task.steps, step.Tells) :
    Describes name (.ofEntries (keyed task.savedFields)) task.kept := by
  obtain ⟨value, checked, described⟩ := checkRecord_saved consistent called
  have description : field (keyed task.savedFields) "description" = task.description.kept :=
    task.field_savedFields (by decide)
  have condition : field (keyed task.savedFields) "condition" = task.condition.kept :=
    task.field_savedFields (by decide)
  have category : field (keyed task.savedFields) "category" =
      (Category.toValue task.category).kept := task.field_savedFields (by decide)
  rw [(Category.isTextOrNull_toValue task.category).kept_eq] at category
  refine ⟨called, _, value, _, checked, description.symm, ?_, condition.symm, described,
    (Step.mapM_ofRecord_saved consistent.steps _).mpr ⟨tells, rfl⟩⟩
  rw [category, Category.parse_toValue]
  rfl

theorem tells_of_describes (consistent : task.IsConsistent) (called : task.name = .str name)
    {again : Task} (describes : Describes name (.ofEntries (keyed task.savedFields)) again) :
    ∀ step ∈ task.steps, step.Tells := by
  obtain ⟨value, checked, -⟩ := checkRecord_saved consistent called
  obtain ⟨fields, env, records, passed, -, -, -, -, read⟩ := describes.fields
  rw [checked] at passed
  obtain ⟨-, same⟩ := Prod.mk.inj (Except.ok.inj passed)
  obtain ⟨-, rfl⟩ := Prod.mk.inj same
  exact ((Step.mapM_ofRecord_saved consistent.steps _).mp read).1

end Tasks

/-! ### Registries -/

variable {registry : Registry}

theorem describesEntry_saved {tasks : Ordered String Task}
    (named : ∀ entry ∈ tasks, isTaskName entry.1 = true ∧ entry.2.name = .str entry.1)
    (consistent : ∀ entry ∈ tasks, entry.2.IsConsistent)
    (tells : ∀ entry ∈ tasks, ∀ step ∈ entry.2.steps, step.Tells) :
    List.Forall₂ DescribesEntry
      (keyed (tasks.map fun entry => (entry.1, .ofEntries (keyed entry.2.savedFields))))
      (tasks.map fun entry => (entry.1, entry.2.kept)) := by
  rw [keyed, List.map_map, List.forall₂_map_left_iff, List.forall₂_map_right_iff,
    List.forall₂_same]
  intro entry member
  obtain ⟨taskNamed, called⟩ := named entry member
  exact ⟨rfl, taskNamed, describes_saved (consistent entry member) called (tells entry member)⟩

theorem tells_of_describesEntry {tasks again : Ordered String Task}
    (named : ∀ entry ∈ tasks, isTaskName entry.1 = true ∧ entry.2.name = .str entry.1)
    (consistent : ∀ entry ∈ tasks, entry.2.IsConsistent)
    (described : List.Forall₂ DescribesEntry
      (keyed (tasks.map fun entry => (entry.1, .ofEntries (keyed entry.2.savedFields)))) again) :
    ∀ entry ∈ tasks, ∀ step ∈ entry.2.steps, step.Tells := by
  rw [keyed, List.map_map, List.forall₂_map_left_iff] at described
  intro entry member
  obtain ⟨index, inside, rfl⟩ := List.getElem_of_mem member
  have describes := described.get inside (by rw [← described.length_eq]; exact inside)
  have keySame := Except.ok.inj describes.key
  have describesTask := describes.describes
  rw [← keySame] at describesTask
  exact tells_of_describes (consistent _ member) (named _ member).2 describesTask

theorem names_kept (registry : Registry) : registry.kept.names = registry.names := by
  rw [names, names, kept, Ordered.keys, List.map_map]
  rfl

/-- What has been saved for a consistent registry is read exactly if every step tells what it does,
and then it is read as what has been kept. -/
theorem IsOf.ofManifest_saved (consistent : registry.IsConsistent) {again : Registry} :
    (ofManifest (.ofEntries (keyed registry.savedFields))).result = .ok again ↔
      registry.Tells ∧ again = registry.kept := by
  obtain ⟨given, listed⟩ := registry.field_savedFields
  have read (tells : registry.Tells) :
      (ofManifest (.ofEntries (keyed registry.savedFields))).result = .ok registry.kept :=
    ofManifest_eq_ok.mpr (describesRegistry_of_fields none consistent.env
      (by rw [names_kept]; exact consistent.distinct) given listed
      (describesEntry_saved consistent.named consistent.tasks tells))
  constructor
  · intro readAgain
    obtain ⟨-, fields, env, entries, opened, -, -, found, described⟩ :=
      ofManifest_eq_ok.mp readAgain
    obtain rfl : keyed registry.savedFields = fields := Option.some.inj opened
    rw [listed, orElse_ofEntries] at found
    obtain rfl : keyed registry.savedTasks = entries := Option.some.inj found
    have tells := tells_of_describesEntry consistent.named consistent.tasks described
    rw [read tells] at readAgain
    exact ⟨tells, (Except.ok.inj readAgain).symm⟩
  · rintro ⟨tells, rfl⟩
    exact read tells

/-- A manifest that has been read can be saved. What is saved is read again exactly if every step
tells what it does, and then there are the same names in the same order, each task has as many
steps as before, and every name renders over every base to the same text or the same error. -/
theorem saved_reread_iff {manifest : Value} (read : (ofManifest manifest).result = .ok registry) :
    ∃ data, Manifest.saved registry.manifest = .ok data ∧
      ((∃ again, (ofManifest data).result = .ok again) ↔ registry.Tells) ∧
      ∀ again, (ofManifest data).result = .ok again →
        again.names = registry.names ∧
        again.tasks.map (fun entry => entry.2.steps.length) =
          registry.tasks.map (fun entry => entry.2.steps.length) ∧
        ∀ name base, (again.render name base).result = (registry.render name base).result := by
  have consistent := (ofManifest_eq_ok.mp read).isConsistent
  refine ⟨_, saved_manifest consistent.env, ⟨?_, fun tells => ⟨registry.kept, ?_⟩⟩, ?_⟩
  · rintro ⟨again, readAgain⟩
    exact (consistent.ofManifest_saved.mp readAgain).1
  · exact consistent.ofManifest_saved.mpr ⟨tells, rfl⟩
  · intro again readAgain
    obtain ⟨-, rfl⟩ := consistent.ofManifest_saved.mp readAgain
    refine ⟨registry.names_kept, ?_, registry.kept_rendersLike.render_eq⟩
    rw [kept, List.map_map]
    refine List.map_congr_left fun entry _ => ?_
    exact List.length_map Step.kept

/-- A manifest with a task whose key, description, condition and label are no texts. -/
def loose : Value :=
  .ofEntries [(.str "tasks", .ofEntries [(.bool true, .ofEntries
    [(.str "description", .ofItems []), (.str "condition", .ofEntries []),
      (.str "steps", .ofItems
        [.ofEntries [(.str "name", .ofItems []), (.str "exec", .str "make")],
          .ofEntries [(.str "exec_task", .bool false)]])])])]

/-- The registry that it describes. -/
def looseTasks : Registry :=
  ⟨[], [("True", ⟨.str "True", .ofItems [], none, .ofEntries [], [],
    [⟨.run (.str "make"), .ofItems [], []⟩, ⟨.spawn (.bool false), .null, []⟩]⟩)]⟩

theorem loose_saved_reread_iff :
    (ofManifest loose).result = .ok looseTasks ∧
      ∃ data, Manifest.saved looseTasks.manifest = .ok data ∧
        ((∃ again, (ofManifest data).result = .ok again) ↔ looseTasks.Tells) ∧
        ∀ again, (ofManifest data).result = .ok again →
          again.names = looseTasks.names ∧
          again.tasks.map (fun entry => entry.2.steps.length) =
            looseTasks.tasks.map (fun entry => entry.2.steps.length) ∧
          ∀ name base, (again.render name base).result = (looseTasks.render name base).result := by
  have only (steps : Value) : Step.HasOnly taskKeys
      [(.str "description", .ofItems []), (.str "condition", .ofEntries []),
        (.str "steps", steps)] := by
    simp [Step.HasOnly, taskKeys]
  obtain ⟨env, checked, described⟩ := checkRecord_of_fields none (only _) rfl Env.isValid_nil
    (.inl ⟨rfl, rfl⟩) rfl
  have read : (ofManifest loose).result = .ok looseTasks :=
    ofManifest_eq_ok.mpr ⟨List.nodup_singleton _, _, _, _, rfl, rfl, rfl, rfl,
      .cons ⟨rfl, by decide, rfl, _, _, _, checked, rfl, rfl, rfl, described, rfl⟩ .nil⟩
  exact ⟨read, saved_reread_iff read⟩

/-- A manifest with a task whose only step runs an empty list. -/
def idle : Value :=
  .ofEntries [(.str "tasks", .ofEntries [(.str "a", .ofEntries
    [(.str "steps", .ofItems [.ofEntries [(.str "exec", .ofItems [])]])])])]

def idleTasks : Registry :=
  ⟨[], [("a", ⟨.str "a", .null, none, .null, [], [⟨.run (.ofItems []), .null, []⟩]⟩)]⟩

/-- Such a manifest is read, but what is saved for it is not. -/
theorem not_reread_of_empty_command :
    ¬ ∀ manifest registry, (ofManifest manifest).result = .ok registry →
      ∃ data again, Manifest.saved registry.manifest = .ok data ∧
        (ofManifest data).result = .ok again := by
  intro all
  have only (steps : Value) : Step.HasOnly taskKeys [(.str "steps", steps)] := by
    simp [Step.HasOnly, taskKeys]
  obtain ⟨env, checked, described⟩ := checkRecord_of_fields none (only _) rfl Env.isValid_nil
    (.inl ⟨rfl, rfl⟩) rfl
  have read : (ofManifest idle).result = .ok idleTasks :=
    ofManifest_eq_ok.mpr ⟨List.nodup_singleton _, _, _, _, rfl, rfl, rfl, rfl,
      .cons ⟨rfl, by decide, rfl, _, _, _, checked, rfl, rfl, rfl, described, rfl⟩ .nil⟩
  obtain ⟨data, again, saved, readAgain⟩ := all idle idleTasks read
  have consistent := (ofManifest_eq_ok.mp read).isConsistent
  rw [saved_manifest consistent.env] at saved
  obtain rfl := Except.ok.inj saved
  obtain ⟨tells, -⟩ := consistent.ofManifest_saved.mp readAgain
  have telling := tells _ (List.mem_singleton_self _) _ (List.mem_singleton_self _)
  cases telling

end Registry

end Taskbook
