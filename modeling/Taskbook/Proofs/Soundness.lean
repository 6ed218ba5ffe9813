/-
Sound registries, and how changes keep them so.

A registry is sound if its tasks are known by their own names, each of which can name a task
and occurs once, if its environments are valid, and if what else its tasks hold are texts. The
empty registry is sound. A change that is made of texts and can be applied leaves a sound
registry behind, and the task that it gives is the one that is found there under its name.
-/

import Taskbook.Edit
import Taskbook.Proofs.Consistency
import Taskbook.Proofs.Textual

namespace Taskbook

/-! ### Steps -/

/-- A step of texts with a valid environment. -/
structure Step.IsSound (step : Step) : Prop where
  textual : step.IsTextual
  env : step.env.IsValid

namespace Step

variable {step : Step}

theorem IsMadeOf.isSound (made : step.IsMadeOf Value.IsTextOrNull) : step.IsSound := by
  obtain ⟨command, target, label, env, commandTextual, targetTextual, labelTextual, made⟩ := made
  obtain ⟨rfl, rfl, rfl, acts, described⟩ := make_eq_ok.mp made
  refine ⟨⟨labelTextual, fun command runs => ?_, fun target spawns => ?_⟩,
    Env.isValid_of_ofValue described⟩
  · rw [runs] at acts
    rw [Step.command, runs] at commandTextual
    rcases commandTextual with rfl | isText
    · cases acts
    · exact isText
  · rw [spawns] at acts
    rw [target?, spawns] at targetTextual
    rcases targetTextual with rfl | isText
    · cases acts
    · exact isText

theorem IsSound.isConsistent (sound : step.IsSound) : step.IsConsistent := by
  refine ⟨?_, sound.env⟩
  obtain ⟨action, label, settings⟩ := step
  cases action with
  | run command =>
    obtain ⟨text, rfl⟩ := sound.textual.command command rfl
    rfl
  | spawn target =>
    obtain ⟨name, rfl⟩ := sound.textual.target target rfl
    rfl

end Step

/-! ### Tasks -/

/-- A task of texts with valid environments. -/
structure Task.IsSound (task : Task) : Prop where
  description : task.description.IsTextOrNull
  condition : task.condition.IsTextOrNull
  env : task.env.IsValid
  steps : ∀ step ∈ task.steps, step.IsSound

namespace Task

variable {task changed : Task}

/-- A task that gains steps of texts stays sound. -/
theorem IsSound.gains (sound : task.IsSound)
    (gains : task.Gains (Step.IsMadeOf Value.IsTextOrNull) changed) : changed.IsSound := by
  obtain ⟨steps, rfl, known⟩ := gains
  refine ⟨sound.description, sound.condition, sound.env, fun step member => ?_⟩
  rcases known step member with before | made
  · exact sound.steps step before
  · exact made.isSound

theorem IsSound.setVariable (sound : task.IsSound) {name value : Value}
    (set : task.setVariable name value = .ok changed) :
    changed.IsSound ∧ changed.name = task.name := by
  obtain ⟨env, assigned, rfl⟩ := setVariable_eq_ok set
  exact ⟨⟨sound.description, sound.condition, sound.env.assign assigned, sound.steps⟩, rfl⟩

theorem isSound_of_create {name description category condition env command : Value}
    (descriptionTextual : description.IsTextOrNull) (conditionTextual : condition.IsTextOrNull)
    (commandTextual : command.IsTextOrNull)
    (made : create name description category condition env command = .ok task) :
    task.IsSound ∧ task.name = name := by
  obtain ⟨band, settings, -, described, gains⟩ :=
    create_eq_ok (fun given same => Step.isMadeOf_running Value.isTextOrNull_null
      (Argument.value.inj same ▸ commandTextual) Value.isTextOrNull_null .null) made
  have bare : (Task.mk name description band condition settings []).IsSound :=
    ⟨descriptionTextual, conditionTextual, Env.isValid_of_ofArgument described,
      fun _ member => by cases member⟩
  exact ⟨bare.gains gains, gains.name⟩

end Task

/-! ### Registries -/

/-- A registry of sound tasks, each known by its own name. -/
structure Registry.IsSound (registry : Registry) : Prop where
  env : registry.env.IsValid
  distinct : registry.names.Nodup
  named : ∀ entry ∈ registry.tasks,
    isTaskName entry.1 = true ∧ entry.2.name = .str entry.1
  tasks : ∀ entry ∈ registry.tasks, entry.2.IsSound

namespace Registry

/-- The registry that a project starts with. -/
def blank : Registry :=
  ⟨[], []⟩

theorem isSound_blank : blank.IsSound where
  env := Env.isValid_nil
  distinct := List.nodup_nil
  named := fun _ member => (List.not_mem_nil member).elim
  tasks := fun _ member => (List.not_mem_nil member).elim

variable {registry changed : Registry}

/-- Only texts are names of tasks. -/
theorem eq_str_of_resolve {name : Value} {key : String} {task : Task}
    (found : registry.resolve name = .ok (some (key, task))) : name = .str key := by
  cases name with
  | str text => rw [eq_of_resolve found]
  | _ =>
    unfold resolve at found
    dsimp only at found
    split at found <;> cases found

/-- A task that is put into a registry is the one that its name resolves to. -/
theorem resolve_put (registry : Registry) (name : String) (task : Task) :
    (registry.put name task).resolve (.str name) = .ok (some (name, task)) := by
  show Except.ok (List.find? (fun entry => entry.1 = name) (registry.tasks.put name task)) = _
  generalize registry.tasks = entries
  induction entries with
  | nil => simp [Ordered.put]
  | cons first rest inductionHypothesis =>
    obtain ⟨other, old⟩ := first
    rw [Ordered.put]
    split
    · rename_i same
      obtain rfl := eq_of_beq same
      simp
    · rename_i different
      have different : other ≠ name := by simpa using different
      rw [List.find?_cons_of_neg (by simpa using different)]
      exact inductionHypothesis

theorem isSound_iff : registry.IsSound ↔ registry.IsOf Task.IsSound :=
  ⟨fun sound => ⟨sound.env, sound.distinct, sound.named, sound.tasks⟩,
    fun holds => ⟨holds.env, holds.distinct, holds.named, holds.tasks⟩⟩

/-- A consistent registry of texts is sound. -/
theorem IsOf.isSound (consistent : registry.IsConsistent) (textual : registry.IsTextual) :
    registry.IsSound where
  env := consistent.env
  distinct := consistent.distinct
  named := consistent.named
  tasks entry member :=
    ⟨textual.descriptions entry member, textual.conditions entry member,
      (consistent.tasks entry member).env, fun step inside =>
        ⟨textual.steps entry member step inside,
          ((consistent.tasks entry member).steps step inside).env⟩⟩

theorem IsSound.put (sound : registry.IsSound) {name : String} (named : isTaskName name = true)
    {task : Task} (taskSound : task.IsSound) (called : task.name = .str name) :
    (registry.put name task).IsSound :=
  isSound_iff.mpr ((isSound_iff.mp sound).put named taskSound called)

theorem removeTask_eq_ok {name : Value} {task : Task}
    (removed : (registry.removeTask name).result = .ok (changed, task)) :
    ∃ text, registry.find name = .ok (text, task) ∧
      changed = { registry with tasks := registry.tasks.filter fun entry => entry.1 ≠ text } := by
  rw [removeTask, Logged.result_bind, Logged.result_lift] at removed
  obtain ⟨⟨text, found⟩, looked, removed⟩ := bind_eq_ok.mp removed
  obtain ⟨rfl, rfl⟩ := Prod.mk.inj (Except.ok.inj removed)
  exact ⟨text, looked, rfl⟩

theorem IsSound.without (sound : registry.IsSound) (text : String) :
    Registry.IsSound { registry with
      tasks := registry.tasks.filter fun entry => entry.1 ≠ text } :=
  isSound_iff.mpr ((isSound_iff.mp sound).without text)

theorem IsSound.setVariable (sound : registry.IsSound) {name value : Value}
    (set : registry.setVariable name value = .ok changed) : changed.IsSound :=
  isSound_iff.mpr ((isSound_iff.mp sound).setVariable set)

end Registry

/-! ### Changes -/

namespace Edit

/-- A change that is made of texts, as far as it is kept as it is. Names, bands and environments
are checked when they are taken in. -/
def IsTextual : Edit → Prop
  | create _ command description _ condition _ =>
    command.IsTextOrNull ∧ description.IsTextOrNull ∧ condition.IsTextOrNull
  | addCommand _ command _ label _ => command.IsTextOrNull ∧ label.IsTextOrNull
  | addSubtask _ _ label _ => label.IsTextOrNull
  | reset _ command => command.IsTextOrNull
  | _ => True

/-- The name of the task that a change is about, if it is about one. -/
def target : Edit → Value
  | create name .. => name
  | addCommand name .. => name
  | addSubtask name .. => name
  | reset name _ => name
  | setVariable name .. => name
  | setSharedVariable .. => .null
  | remove name _ => name

/-- What a change makes of a registry, once it has been checked. -/
def outcome (registry : Registry) (edit : Edit) : Except Error (Registry × Option Task) := do
  edit.check
  (edit.apply registry).result

variable {registry changed : Registry}

theorem changeTask_eq_ok {name : Value} {change : Task → Except Error Task} {task? : Option Task}
    (applied : changeTask registry name change = .ok (changed, task?)) :
    ∃ text task task', registry.resolve name = .ok (some (text, task)) ∧ change task = .ok task' ∧
      changed = registry.put text task' ∧ task? = some task' := by
  obtain ⟨⟨text, task⟩, found, applied⟩ := bind_eq_ok.mp applied
  obtain ⟨task', made, same⟩ := bind_eq_ok.mp applied
  obtain ⟨rfl, rfl⟩ := Prod.mk.inj (Except.ok.inj same)
  exact ⟨text, task, task', Registry.find_eq_ok.mp found, made, rfl, rfl⟩

theorem create_eq_ok {name command description category condition env : Value}
    {task? : Option Task}
    (applied : ((create name command description category condition env).apply registry).result =
      .ok (changed, task?)) :
    ∃ text task, name = .str text ∧ isTaskName text = true ∧
      Task.create name (description.orElse .null) category (condition.orElse .null) env command =
        .ok task ∧
      changed = registry.put text task ∧ task? = some task := by
  rw [apply, Logged.result_bind] at applied
  obtain ⟨band, -, applied⟩ := bind_eq_ok.mp applied
  rw [Logged.result_bind] at applied
  obtain ⟨⟨extended, task⟩, added, same⟩ := bind_eq_ok.mp applied
  obtain ⟨rfl, rfl⟩ := Prod.mk.inj (Except.ok.inj same)
  obtain ⟨text, rfl, named, -, created, rfl⟩ := Registry.addTask_eq_ok.mp added
  exact ⟨text, task, rfl, named, created, rfl, rfl⟩

/-- A task that is removed was there, and without force no other spawned it. -/
theorem remove_eq_ok {name : Value} {forced : Bool} {task? : Option Task}
    (applied : ((remove name forced).apply registry).result = .ok (changed, task?)) :
    ∃ text task, registry.resolve name = .ok (some (text, task)) ∧
      (forced = false → checkUnspawned registry text = .ok ()) ∧
      changed = { registry with tasks := registry.tasks.filter fun entry => entry.1 ≠ text } ∧
      task? = none := by
  rw [apply, Logged.result_bind, Logged.result_lift] at applied
  obtain ⟨⟨text, task⟩, found, applied⟩ := bind_eq_ok.mp applied
  have removal (removed : (registry.removeTask name >>= fun taken =>
      pure (taken.1, (none : Option Task))).result = .ok (changed, task?)) :
      changed = { registry with tasks := registry.tasks.filter fun entry => entry.1 ≠ text } ∧
        task? = none := by
    rw [Logged.result_bind] at removed
    obtain ⟨⟨remaining, taken⟩, succeeded, same⟩ := bind_eq_ok.mp removed
    obtain ⟨rfl, rfl⟩ := Prod.mk.inj (Except.ok.inj same)
    obtain ⟨key, foundAgain, rfl⟩ := Registry.removeTask_eq_ok succeeded
    rw [found] at foundAgain
    obtain ⟨rfl, -⟩ := Prod.mk.inj (Except.ok.inj foundAgain)
    exact ⟨rfl, rfl⟩
  refine ⟨text, task, Registry.find_eq_ok.mp found, ?_⟩
  cases forced with
  | true => exact ⟨fun unforced => (Bool.noConfusion unforced), removal applied⟩
  | false =>
    dsimp only at applied
    rw [if_pos (by rfl), Logged.result_bind, Logged.result_lift] at applied
    obtain ⟨⟨⟩, checked, applied⟩ := bind_eq_ok.mp applied
    exact ⟨fun _ => checked, removal applied⟩

/-- What a change of one task makes of the task. -/
inductive Alters (registry : Registry) : Edit → Task → Task → Prop where
  | addCommand {name command label env : Value} {first : Bool} {task task' : Task}
      (ran : (if first then task.runFirst command label env else task.run command label env) =
        .ok task') :
      Alters registry (.addCommand name command first label env) task task'
  | addSubtask {name target label env : Value} {subtask : String × Task} {task task' : Task}
      (found : registry.find target = .ok subtask)
      (spawned : task.spawn (.str subtask.1) label env = .ok task') :
      Alters registry (.addSubtask name target label env) task task'
  | reset {name command : Value} {task task' : Task} (emptied : task.reset command = .ok task') :
      Alters registry (.reset name command) task task'
  | setVariable {name key text : Value} {task task' : Task}
      (set : task.setVariable key text = .ok task') :
      Alters registry (.setVariable name key text) task task'

/-- What a change that can be applied makes of a registry, and the task that it gives. -/
inductive Makes (registry : Registry) : Edit → Registry → Option Task → Prop where
  | create {text : String} {command description category condition env : Value} {task : Task}
      (named : isTaskName text = true)
      (created : Task.create (.str text) (description.orElse .null) category
        (condition.orElse .null) env command = .ok task) :
      Makes registry (.create (.str text) command description category condition env)
        (registry.put text task) (some task)
  | alter {edit : Edit} {text : String} {task task' : Task} (about : edit.target = .str text)
      (found : registry.resolve (.str text) = .ok (some (text, task)))
      (alters : edit.Alters registry task task') :
      Makes registry edit (registry.put text task') (some task')
  | setSharedVariable {key text : Value} {changed : Registry}
      (set : registry.setVariable key text = .ok changed) :
      Makes registry (.setSharedVariable key text) changed none
  | remove {text : String} {forced : Bool}
      (unspawned : forced = false → checkUnspawned registry text = .ok ()) :
      Makes registry (.remove (.str text) forced)
        { registry with tasks := registry.tasks.filter fun entry => entry.1 ≠ text } none

variable {edit : Edit} {task? : Option Task}

theorem makes_of_changeTask {change : Task → Except Error Task}
    (alters : ∀ task task', change task = .ok task' → edit.Alters registry task task')
    (applied : changeTask registry edit.target change = .ok (changed, task?)) :
    edit.Makes registry changed task? := by
  obtain ⟨text, task, task', found, made, rfl, rfl⟩ := changeTask_eq_ok applied
  have about := Registry.eq_str_of_resolve found
  rw [about] at found
  exact .alter about found (alters task task' made)

theorem makes_of_apply (applied : (edit.apply registry).result = .ok (changed, task?)) :
    edit.Makes registry changed task? := by
  cases edit with
  | create name command description category condition env =>
    obtain ⟨text, task, rfl, named, created, rfl, rfl⟩ := create_eq_ok applied
    exact .create named created
  | addCommand name command first label env =>
    exact makes_of_changeTask (fun _ _ ran => .addCommand ran) applied
  | addSubtask name target label env =>
    have applied : changeTask registry name (fun task => registry.find target >>= fun subtask =>
        task.spawn (.str subtask.1) label env) = .ok (changed, task?) := applied
    refine makes_of_changeTask (fun task task' made => ?_) applied
    obtain ⟨subtask, found, spawned⟩ := bind_eq_ok.mp made
    exact .addSubtask found spawned
  | reset name command => exact makes_of_changeTask (fun _ _ emptied => .reset emptied) applied
  | setVariable name key text => exact makes_of_changeTask (fun _ _ set => .setVariable set) applied
  | setSharedVariable key text =>
    rw [apply, Logged.result_bind, Logged.result_lift] at applied
    obtain ⟨extended, set, same⟩ := bind_eq_ok.mp applied
    obtain ⟨rfl, rfl⟩ := Prod.mk.inj (Except.ok.inj same)
    exact .setSharedVariable set
  | remove name forced =>
    obtain ⟨text, task, found, unspawned, rfl, rfl⟩ := remove_eq_ok applied
    obtain rfl := Registry.eq_str_of_resolve found
    exact .remove unspawned

/-! ### Sound changes -/

/-- What a change that has been applied leaves behind: a sound registry, in which the task that it
gives has the name that the change is about. -/
def Leaves (edit : Edit) (changed : Registry) (task? : Option Task) : Prop :=
  changed.IsSound ∧ (∃ records, edit.records = .ok records) ∧
    ∀ task, task? = some task →
      ∃ key, changed.resolve edit.target = .ok (some (key, task))

theorem isTextOrNull_orElse {value : Value} (textual : value.IsTextOrNull) :
    (value.orElse .null).IsTextOrNull := by
  unfold Value.orElse
  split
  · exact textual
  · exact Value.isTextOrNull_null

theorem Alters.records {task task' : Task} (alters : edit.Alters registry task task') :
    edit.records = .ok [] := by
  cases alters <;> rfl

/-- The records of a change that has been applied can be worded: it is about a text. -/
theorem Makes.records (makes : edit.Makes registry changed task?) :
    ∃ records, edit.records = .ok records := by
  cases makes with
  | create named created => exact ⟨_, rfl⟩
  | alter about found alters => exact ⟨[], alters.records⟩
  | setSharedVariable set => exact ⟨[], rfl⟩
  | remove unspawned => exact ⟨_, rfl⟩

/-- A change of one task that is made of texts leaves a sound task of the same name. -/
theorem Alters.isSound {task task' : Task} (alters : edit.Alters registry task task')
    (textual : edit.IsTextual) (sound : task.IsSound) : task'.IsSound ∧ task'.name = task.name := by
  have gaining (gains : task.Gains (Step.IsMadeOf Value.IsTextOrNull) task') :
      task'.IsSound ∧ task'.name = task.name :=
    ⟨sound.gains gains, gains.name⟩
  have running {command label : Value} := @Step.isMadeOf_running _ Value.isTextOrNull_null
    command label
  cases alters with
  | addCommand ran =>
    obtain ⟨commandTextual, labelTextual⟩ := textual
    split at ran
    · exact gaining (Task.gains_of_runFirst (running commandTextual labelTextual _) ran)
    · exact gaining (Task.gains_of_run (running commandTextual labelTextual _) ran)
  | addSubtask found spawned =>
    exact gaining (Task.gains_of_spawn (Step.isMadeOf_spawning Value.isTextOrNull_null
      (Value.isTextOrNull_str _) textual _) spawned)
  | reset emptied =>
    exact gaining (Task.gains_of_reset (fun given same =>
      running (Argument.value.inj same ▸ textual) Value.isTextOrNull_null .null) emptied)
  | setVariable set => exact sound.setVariable set

/-- A change made of texts that can be applied to a sound registry leaves one behind. -/
theorem leaves_of_outcome (sound : registry.IsSound) (textual : edit.IsTextual)
    (applied : edit.outcome registry = .ok (changed, task?)) : edit.Leaves changed task? := by
  obtain ⟨⟨⟩, checked, applied⟩ := bind_eq_ok.mp applied
  have makes := makes_of_apply applied
  have worded := makes.records
  cases makes with
  | @create text _ _ _ _ _ task named created =>
    obtain ⟨commandTextual, descriptionTextual, conditionTextual⟩ := textual
    obtain ⟨taskSound, called⟩ := Task.isSound_of_create
      (isTextOrNull_orElse descriptionTextual) (isTextOrNull_orElse conditionTextual)
      commandTextual created
    refine ⟨sound.put named taskSound called, worded, ?_⟩
    rintro other same
    obtain rfl := Option.some.inj same
    exact ⟨text, Registry.resolve_put registry text task⟩
  | @alter _ text task task' about found alters =>
    have member := Registry.mem_of_resolve found
    obtain ⟨named, called⟩ := sound.named _ member
    obtain ⟨soundAfter, sameName⟩ := alters.isSound textual (sound.tasks _ member)
    refine ⟨sound.put named soundAfter (sameName.trans called), worded, ?_⟩
    rintro other same
    obtain rfl := Option.some.inj same
    rw [about]
    exact ⟨text, Registry.resolve_put registry text task'⟩
  | setSharedVariable set =>
    exact ⟨sound.setVariable set, worded, fun task same => by cases same⟩
  | @remove text forced unspawned =>
    exact ⟨sound.without text, worded, fun task same => by cases same⟩

end Edit

end Taskbook
