/-
Consistent registries.

Much of a task may be of any type, but some things always hold of the tasks of a registry. Each of
them is known by its own name, which can name a task and occurs once; a step either runs something
or spawns something, and that is not null; and the variables of the registry, of its tasks and of
their steps have valid names, each of them once. Reading a manifest gives a consistent registry.

What is asked of each task is a parameter, since more can be asked of the tasks of some
registries: that they are made of texts, for instance.
-/

import Taskbook.Manifest.Record
import Taskbook.Proofs.Environment
import Taskbook.Proofs.Registry

namespace Taskbook

theorem Value.eq_null_of_isNull {value : Value} (isNull : value.isNull = true) : value = .null := by
  cases value with
  | null => rfl
  | _ => cases isNull

/-! ### Steps -/

/-- The command that an action runs, or what it spawns. -/
def Action.operand : Action → Value
  | run command => command
  | spawn target => target

/-- A step that runs or spawns something, with a valid environment. -/
structure Step.IsConsistent (step : Step) : Prop where
  acts : step.action.operand.isNull = false
  env : step.env.IsValid

namespace Step

/-- The command of a step, null if it has none. -/
def command (step : Step) : Value :=
  match step.action with
  | .run command => command
  | .spawn _ => .null

variable {step : Step} {kind : Value → Prop}

theorem IsConsistent.command_or_target (consistent : step.IsConsistent) :
    step.command.isNull = !(step.target?.getD .null).isNull := by
  have acts := consistent.acts
  obtain ⟨action, label, env⟩ := step
  cases action with
  | run command =>
    have given : command.isNull = false := acts
    rw [Step.command, given]
    rfl
  | spawn target =>
    have given : target.isNull = false := acts
    rw [target?, Option.getD_some, given]
    rfl

/-- A step is made exactly of its own command or target, of its label, and of what its variables
are described by. -/
theorem make_eq_ok {command target label env : Value} :
    make command target label env = .ok step ↔
      step.command = command ∧ step.target?.getD .null = target ∧ step.label = label ∧
        step.action.operand.isNull = false ∧ Env.ofValue env = .ok step.env := by
  constructor
  · intro made
    have parts {action : Action}
        (made : (Env.ofValue env).map (Step.mk action label) = .ok step) :
        step.action = action ∧ step.label = label ∧ Env.ofValue env = .ok step.env := by
      obtain ⟨settings, described, rfl⟩ := map_eq_ok.mp made
      exact ⟨rfl, rfl, described⟩
    unfold make at made
    split at made
    · rename_i noCommand
      obtain rfl := Value.eq_null_of_isNull noCommand
      split at made
      · cases made
      · rename_i given
        obtain ⟨acts, labelled, described⟩ := parts made
        rw [Step.command, target?, acts, Action.operand]
        exact ⟨rfl, rfl, labelled, by simpa using given, described⟩
    · rename_i given
      split at made
      · rename_i noTarget
        obtain rfl := Value.eq_null_of_isNull noTarget
        obtain ⟨acts, labelled, described⟩ := parts made
        rw [Step.command, target?, acts, Action.operand]
        exact ⟨rfl, rfl, labelled, by simpa using given, described⟩
      · cases made
  · obtain ⟨action, stepLabel, settings⟩ := step
    rintro ⟨rfl, rfl, rfl, acts, described⟩
    rw [make, described]
    cases action with
    | run command =>
      have given : command.isNull = false := acts
      simp only [Step.command, given]
      rfl
    | spawn target =>
      have given : target.isNull = false := acts
      simp only [target?, Option.getD_some, given]
      rfl

theorem target?_of_running {command label env : Value}
    (made : make command .null label env = .ok step) : step.target? = none := by
  obtain ⟨-, noTarget, -, acts, -⟩ := make_eq_ok.mp made
  obtain ⟨action, label, settings⟩ := step
  cases action with
  | run command => rfl
  | spawn target =>
    have isNull : target = .null := noTarget
    rw [isNull] at acts
    cases acts

/-- A step that has been made of a command or a target and of a label of some kind. -/
def IsMadeOf (kind : Value → Prop) (step : Step) : Prop :=
  ∃ command target label env, kind command ∧ kind target ∧ kind label ∧
    make command target label env = .ok step

theorem isMadeOf_running (kindNull : kind .null) {command label : Value}
    (kindCommand : kind command) (kindLabel : kind label) (env : Value) (step : Step)
    (made : make command .null label env = .ok step) : step.IsMadeOf kind :=
  ⟨command, .null, label, env, kindCommand, kindNull, kindLabel, made⟩

theorem isMadeOf_spawning (kindNull : kind .null) {target label : Value} (kindTarget : kind target)
    (kindLabel : kind label) (env : Value) (step : Step)
    (made : make .null target label env = .ok step) : step.IsMadeOf kind :=
  ⟨.null, target, label, env, kindNull, kindTarget, kindLabel, made⟩

theorem IsMadeOf.isConsistent (made : step.IsMadeOf kind) : step.IsConsistent := by
  obtain ⟨command, target, label, env, -, -, -, made⟩ := made
  obtain ⟨-, -, -, acts, described⟩ := make_eq_ok.mp made
  exact ⟨acts, Env.isValid_of_ofValue described⟩

/-- The fields of a record that are kept in a step as they are. -/
def partsOf (record : Value) : List Value :=
  match record.entries? with
  | some entries =>
    [Value.field entries "exec", Value.field entries "exec_task", Value.field entries "name"]
  | none => []

/-- A step that is read has been made of the fields of its record. -/
theorem isMadeOf_of_ofRecord (kind : Value → Prop) {record : Value}
    (ofKind : ∀ field ∈ partsOf record, kind field)
    (read : ofRecord record = .ok step) : step.IsMadeOf kind := by
  unfold ofRecord at read
  unfold partsOf at ofKind
  split at read
  · rename_i entries opened
    rw [opened] at ofKind
    obtain ⟨⟨⟩, -, read⟩ := bind_eq_ok.mp read
    obtain ⟨env, -, made⟩ := bind_eq_ok.mp read
    simp only [List.mem_cons, List.not_mem_nil, or_false, forall_eq_or_imp, forall_eq] at ofKind
    exact ⟨_, _, _, env, ofKind.1, ofKind.2.1, ofKind.2.2, made⟩
  · cases read

/-- What is read from records one after the other is consistent. -/
theorem isConsistent_of_mapM {records : List Value} {steps : List Step}
    (read : records.mapM ofRecord = .ok steps) : ∀ step ∈ steps, step.IsConsistent := by
  induction records generalizing steps with
  | nil =>
    obtain rfl := Except.ok.inj read
    exact fun step member => by cases member
  | cons record rest inductionHypothesis =>
    rw [List.mapM_cons] at read
    obtain ⟨first, made, read⟩ := bind_eq_ok.mp read
    obtain ⟨others, further, same⟩ := bind_eq_ok.mp read
    obtain rfl := Except.ok.inj same
    intro step member
    rcases List.mem_cons.mp member with rfl | inRest
    · exact (isMadeOf_of_ofRecord (fun _ => True) (fun _ _ => trivial) made).isConsistent
    · exact inductionHypothesis further step inRest

end Step

/-! ### Tasks -/

/-- A task whose variables are valid and whose steps are consistent. -/
structure Task.IsConsistent (task : Task) : Prop where
  env : task.env.IsValid
  steps : ∀ step ∈ task.steps, step.IsConsistent

namespace Task

variable {task changed : Task} {fits : Step → Prop}

/-- A task that is changed in its steps only, each of which it had before or fits. -/
def Gains (fits : Step → Prop) (task changed : Task) : Prop :=
  ∃ steps, changed = { task with steps := steps } ∧ ∀ step ∈ steps, step ∈ task.steps ∨ fits step

theorem Gains.name (gains : task.Gains fits changed) : changed.name = task.name := by
  obtain ⟨steps, rfl, -⟩ := gains
  rfl

theorem Gains.steps (gains : task.Gains fits changed) :
    ∀ step ∈ changed.steps, step ∈ task.steps ∨ fits step := by
  obtain ⟨steps, rfl, known⟩ := gains
  exact known

theorem IsConsistent.gains {kind : Value → Prop} (consistent : task.IsConsistent)
    (gains : task.Gains (Step.IsMadeOf kind) changed) : changed.IsConsistent := by
  obtain ⟨steps, rfl, known⟩ := gains
  refine ⟨consistent.env, fun step member => ?_⟩
  rcases known step member with before | made
  · exact consistent.steps step before
  · exact made.isConsistent

theorem gains_addStep {step : Step} (fitting : fits step) :
    task.Gains fits (task.addStep step) := by
  refine ⟨task.steps ++ [step], rfl, fun other member => ?_⟩
  rcases List.mem_append.mp member with before | last
  · exact Or.inl before
  · rw [List.mem_singleton.mp last]
    exact Or.inr fitting

/-- Setting a variable changes nothing but the variables. -/
theorem setVariable_eq_ok {name value : Value} (set : task.setVariable name value = .ok changed) :
    ∃ env, task.env.assign name value = .ok env ∧ changed = { task with env := env } := by
  obtain ⟨env, assigned, same⟩ := bind_eq_ok.mp set
  exact ⟨env, assigned, (Except.ok.inj same).symm⟩

section

variable {command target label env : Value}

theorem gains_of_run (fitting : ∀ step, Step.make command .null label env = .ok step → fits step)
    (run : task.run command label env = .ok changed) : task.Gains fits changed := by
  obtain ⟨step, made, same⟩ := bind_eq_ok.mp run
  obtain rfl := Except.ok.inj same
  exact gains_addStep (fitting step made)

theorem gains_of_runFirst
    (fitting : ∀ step, Step.make command .null label env = .ok step → fits step)
    (run : task.runFirst command label env = .ok changed) : task.Gains fits changed := by
  obtain ⟨step, made, same⟩ := bind_eq_ok.mp run
  obtain rfl := Except.ok.inj same
  refine ⟨step :: task.steps, rfl, fun other member => ?_⟩
  rcases List.mem_cons.mp member with rfl | before
  · exact Or.inr (fitting _ made)
  · exact Or.inl before

theorem gains_of_spawn (fitting : ∀ step, Step.make .null target label env = .ok step → fits step)
    (spawned : task.spawn target label env = .ok changed) : task.Gains fits changed := by
  obtain ⟨step, made, same⟩ := bind_eq_ok.mp spawned
  obtain rfl := Except.ok.inj same
  exact gains_addStep (fitting step made)

end

section

variable {command : Argument}

theorem gains_of_seed (fitting : ∀ given, command = .value given →
      ∀ step, Step.make given .null .null .null = .ok step → fits step)
    (seeded : task.seed command = .ok changed) : task.Gains fits changed := by
  obtain ⟨given, rfl, ran⟩ := Argument.asked_bind_eq_ok.mp seeded
  split at ran
  · exact gains_of_run (fitting given rfl) ran
  · obtain rfl := Except.ok.inj ran
    exact ⟨task.steps, rfl, fun _ before => Or.inl before⟩

theorem gains_of_reset (fitting : ∀ given, command = .value given →
      ∀ step, Step.make given .null .null .null = .ok step → fits step)
    (reset : task.reset command = .ok changed) : task.Gains fits changed := by
  obtain ⟨steps, rfl, known⟩ := gains_of_seed fitting reset
  refine ⟨steps, rfl, fun step member => Or.inr ?_⟩
  rcases known step member with before | made
  · cases before
  · exact made

/-- A task that is created has the given fields, and gains its first command. -/
theorem create_eq_ok {name description category condition : Value} {env : Argument}
    (fitting : ∀ given, command = .value given →
      ∀ step, Step.make given .null .null .null = .ok step → fits step)
    (made : create name description category condition env command = .ok task) :
    ∃ band settings, Category.parse category = .ok band ∧ Env.ofArgument env = .ok settings ∧
      Gains fits ⟨name, description, band, condition, settings, []⟩ task := by
  obtain ⟨band, parsed, made⟩ := bind_eq_ok.mp made
  obtain ⟨settings, described, made⟩ := bind_eq_ok.mp made
  exact ⟨band, settings, parsed, described, gains_of_seed fitting made⟩

end

end Task

/-! ### Registries -/

/-- A registry of tasks of some kind, each of them known by its own name. -/
structure Registry.IsOf (kind : Task → Prop) (registry : Registry) : Prop where
  env : registry.env.IsValid
  distinct : registry.names.Nodup
  named : ∀ entry ∈ registry.tasks,
    isTaskName entry.1 = true ∧ entry.2.name = .str entry.1
  tasks : ∀ entry ∈ registry.tasks, kind entry.2

/-- A registry of consistent tasks. -/
abbrev Registry.IsConsistent (registry : Registry) : Prop :=
  registry.IsOf Task.IsConsistent

namespace Registry

variable {kind : Task → Prop} {registry changed : Registry}

theorem checkName_eq_ok {name : Value} {text : String} :
    checkName name = .ok text ↔ name = .str text ∧ isTaskName text = true := by
  constructor
  · intro checked
    unfold checkName at checked
    split at checked
    · split at checked
      · rename_i named
        obtain rfl := Except.ok.inj checked
        exact ⟨rfl, named⟩
      · cases checked
    · cases checked
  · rintro ⟨rfl, named⟩
    rw [checkName, if_pos named]

/-- A task that is added is new, and it is put into the registry. -/
theorem addTask_eq_ok {name description category condition : Value} {command env : Argument}
    {task : Task} : (registry.addTask name command description category condition env).result =
        .ok (changed, task) ↔
      ∃ text, name = .str text ∧ isTaskName text = true ∧ text ∉ registry.names ∧
        Task.create name description category condition env command = .ok task ∧
        changed = registry.put text task := by
  rw [addTask, Logged.result_bind, Logged.result_lift]
  constructor
  · intro added
    obtain ⟨text, checked, added⟩ := bind_eq_ok.mp added
    obtain ⟨rfl, named⟩ := checkName_eq_ok.mp checked
    dsimp only at added
    split at added
    · cases added
    · rename_i unknown
      rw [Logged.result_bind, Logged.result_lift] at added
      obtain ⟨made, created, added⟩ := bind_eq_ok.mp added
      obtain ⟨rfl, rfl⟩ := Prod.mk.inj (Except.ok.inj added)
      exact ⟨text, rfl, named, by simpa using unknown, created, rfl⟩
  · rintro ⟨text, rfl, named, fresh, created, rfl⟩
    have unknown : registry.names.contains text = false := by simpa using fresh
    rw [checkName_eq_ok.mpr ⟨rfl, named⟩, ok_bind, unknown]
    dsimp only
    rw [if_neg Bool.false_ne_true, Logged.result_bind, Logged.result_lift, created, ok_bind]
    rfl

theorem isOf_of_create {env : Value} (created : create env = .ok registry) :
    registry.IsOf kind := by
  obtain ⟨settings, described, same⟩ := bind_eq_ok.mp created
  obtain rfl := Except.ok.inj same
  exact ⟨Env.isValid_of_ofValue described, List.nodup_nil,
    fun _ member => (List.not_mem_nil member).elim, fun _ member => (List.not_mem_nil member).elim⟩

theorem IsOf.put (holds : registry.IsOf kind) {name : String} (named : isTaskName name = true)
    {task : Task} (ofKind : kind task) (called : task.name = .str name) :
    (registry.put name task).IsOf kind where
  env := holds.env
  distinct := Ordered.nodup_put holds.distinct name task
  named := by
    rintro ⟨key, other⟩ member
    rcases Ordered.mem_put member with before | ⟨rfl, rfl | same⟩
    · exact holds.named _ before
    · exact ⟨named, called⟩
    · obtain rfl := eq_of_beq same
      exact ⟨named, called⟩
  tasks := by
    rintro ⟨key, other⟩ member
    rcases Ordered.mem_put member with before | ⟨rfl, -⟩
    · exact holds.tasks _ before
    · exact ofKind

theorem IsOf.without (holds : registry.IsOf kind) (text : String) :
    IsOf kind { registry with
      tasks := registry.tasks.filter fun entry => entry.1 ≠ text } where
  env := holds.env
  distinct := holds.distinct.sublist (List.filter_sublist.map Prod.fst)
  named := fun entry member => holds.named entry (List.mem_filter.mp member).1
  tasks := fun entry member => holds.tasks entry (List.mem_filter.mp member).1

theorem IsOf.setVariable (holds : registry.IsOf kind) {name value : Value}
    (set : registry.setVariable name value = .ok changed) : changed.IsOf kind := by
  obtain ⟨env, assigned, same⟩ := bind_eq_ok.mp set
  obtain rfl := Except.ok.inj same
  exact ⟨holds.env.assign assigned, holds.distinct, holds.named, holds.tasks⟩

end Registry

end Taskbook
