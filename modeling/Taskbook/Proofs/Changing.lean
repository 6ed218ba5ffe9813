/-
Changes in memory, all or nothing but for one.

A change in memory is carried out step by step, and nothing is undone where a step fails. Still
each change is checked before anything is changed: what it makes of a task or of a registry is a
function of that alone, and where there is none the task or the registry is left as it was.

The exception is to remove all steps of a task and to add a command then. Adding a command cannot
fail, but the command is asked only then whether it counts as given. If it refuses that, the change
fails and the steps are gone.

What holds of the tasks of a registry and is kept when they lose all steps or gain some, and when a
variable of theirs is set, is kept by every change, and so it holds after any changes.
-/

import Mathlib.Data.List.Nodup
import Taskbook.Change
import Taskbook.Proofs.Manifest.Description
import Taskbook.Proofs.Soundness

namespace Taskbook

namespace InPlace

variable {State : Type}

/-- A state is replaced by an outcome as a whole, or something is left. -/
def settled (left : State) : Except Error State → Except Error Unit × State
  | .ok changed => (.ok (), changed)
  | .error error => (.error error, left)

theorem get_bind_apply {α : Type} (next : State → InPlace State α) (state : State) :
    ((get : InPlace State State) >>= next) state = next state state :=
  rfl

theorem revise_apply (change : State → Except Error State) (state : State) :
    revise change state = settled state (change state) := by
  unfold revise
  rw [get_bind_apply]
  cases change state with
  | ok changed => rfl
  | error error => rfl

end InPlace

/-! ### Changes to a task -/

namespace Task

/-- What a change makes of a task. -/
def Change.outcome (task : Task) : Change → Except Error Task
  | run command label env => do
    let env ← env.asked
    task.run command label env
  | runFirst command label env => do
    let env ← env.asked
    task.runFirst command label env
  | spawn target? label env => task.spawnTask target? label env
  | addStep record => task.addRecord record
  | reset command => task.reset command
  | setVariable name text => task.setVariable name text
  | commit message username email add label env =>
    task.commit message username email add label env
  | push branch tags label env => task.push branch tags label env

/-- What a change that fails leaves of a task: all of it, but for its steps if it is to be reset to
what cannot be asked whether it is a command. -/
def Change.leftBy (task : Task) : Change → Task
  | reset (.refusing _) => { task with steps := [] }
  | _ => task

/-- What a change puts into the steps of a task as it is. -/
def Change.parts : Change → List Value
  | run command label _ => [command, label]
  | runFirst command label _ => [command, label]
  | spawn target? label _ => label :: target?.toList
  | addStep record => record.value?.toList.flatMap Step.partsOf
  | reset command => command.value?.toList
  | setVariable .. => []
  | commit _ _ _ _ label _ => [label]
  | push _ _ label _ => [label]

variable {task changed : Task} {change : Change}

/-- The steps of a task that has just been reset. -/
def seeds : Argument → List Step
  | .value command => if command.isTruthy then [⟨.run command, .null, []⟩] else []
  | .refusing _ => []

/-- A command that counts as given can be added to a task, and it becomes the last step. -/
theorem seed_value (task : Task) (command : Value) :
    task.seed command = .ok { task with steps := task.steps ++ seeds command } := by
  show (if command.isTruthy then task.run command .null .null else .ok task) = _
  rw [seeds]
  split
  · rename_i given
    have notNull : command.isNull = false := by
      cases command with
      | null => cases given
      | _ => rfl
    have made : Step.running command .null .null = .ok ⟨.run command, .null, []⟩ :=
      Step.make_eq_ok.mpr ⟨rfl, rfl, rfl, notNull, rfl⟩
    rw [run, made]
    rfl
  · rw [List.append_nil]

/-- A change is carried out as a whole, or it leaves what it leaves. -/
theorem Change.perform_apply (change : Change) (task : Task) :
    change.perform task = InPlace.settled (change.leftBy task) (change.outcome task) := by
  cases change with
  | reset command =>
    show InPlace.revise (·.seed command) { task with steps := [] } = _
    rw [InPlace.revise_apply, outcome, Task.reset]
    cases command with
    | value given =>
      rw [seed_value]
      rfl
    | refusing fault => rfl
  | _ => exact InPlace.revise_apply _ task

/-- A change to a task adds and removes steps, or it sets a variable. -/
theorem Change.gains_or_sets {kind : Value → Prop} (kindNull : kind .null)
    (kindText : ∀ text, kind (.str text)) (ofKind : ∀ part ∈ change.parts, kind part)
    (made : change.outcome task = .ok changed) :
    task.Gains (Step.IsMadeOf kind) changed ∨
      ∃ name value, task.setVariable name value = .ok changed := by
  have running {command label : Value} (ofCommand : kind command) (ofLabel : kind label) :=
    Step.isMadeOf_running kindNull ofCommand ofLabel
  cases change with
  | run command label env =>
    obtain ⟨env, -, ran⟩ := Argument.asked_bind_eq_ok.mp made
    exact Or.inl (gains_of_run
      (running (ofKind _ (by simp [parts])) (ofKind _ (by simp [parts])) env) ran)
  | runFirst command label env =>
    obtain ⟨env, -, ran⟩ := Argument.asked_bind_eq_ok.mp made
    exact Or.inl (gains_of_runFirst
      (running (ofKind _ (by simp [parts])) (ofKind _ (by simp [parts])) env) ran)
  | spawn target? label env =>
    cases target? with
    | none => cases made
    | some target =>
      obtain ⟨env, -, spawned⟩ := Argument.asked_bind_eq_ok.mp made
      exact Or.inl (gains_of_spawn (Step.isMadeOf_spawning kindNull (ofKind _ (by simp [parts]))
        (ofKind _ (by simp [parts])) env) spawned)
  | addStep record =>
    obtain ⟨given, rfl, added⟩ := Argument.asked_bind_eq_ok.mp made
    obtain ⟨step, read, same⟩ := bind_eq_ok.mp added
    obtain rfl := Except.ok.inj same
    have ofRecord : ∀ field ∈ Step.partsOf given, kind field := fun field member =>
      ofKind field (List.mem_flatMap_of_mem (List.mem_singleton_self given) member)
    exact Or.inl (gains_addStep (Step.isMadeOf_of_ofRecord kind ofRecord read))
  | reset command =>
    refine Or.inl (gains_of_reset (fun given same => running (ofKind given ?_) kindNull .null) made)
    subst same
    exact List.mem_singleton_self given
  | setVariable name text => exact Or.inr ⟨name, text, made⟩
  | commit message username email add label env =>
    obtain ⟨command, -, made⟩ := bind_eq_ok.mp made
    obtain ⟨env, -, ran⟩ := Argument.asked_bind_eq_ok.mp made
    exact Or.inl (gains_of_run (running (kindText command) (ofKind _ (by simp [parts])) env) ran)
  | push branch tags label env =>
    obtain ⟨command, -, made⟩ := bind_eq_ok.mp made
    obtain ⟨env, -, ran⟩ := Argument.asked_bind_eq_ok.mp made
    exact Or.inl (gains_of_run (running (kindText command) (ofKind _ (by simp [parts])) env) ran)

/-- What holds of tasks that are made of some kind of values: it holds of those without steps, and
a task keeps it when it gains steps and when a variable of it is set. -/
structure IsKept (kind : Value → Prop) (holds : Task → Prop) : Prop where
  null : kind .null
  text : ∀ text, kind (.str text)
  bare : ∀ {name description : Value} {band : Option Category} {condition : Value} {env : Env},
    kind description → kind condition → env.IsValid →
      holds ⟨name, description, band, condition, env, []⟩
  gains : ∀ {task changed : Task}, holds task →
    task.Gains (Step.IsMadeOf kind) changed → holds changed
  sets : ∀ {task changed : Task} {name value : Value}, holds task →
    task.setVariable name value = .ok changed → holds changed

theorem isKept_isConsistent : IsKept (fun _ => True) IsConsistent where
  null := trivial
  text := fun _ => trivial
  bare := fun _ _ valid => ⟨valid, fun _ member => (List.not_mem_nil member).elim⟩
  gains := IsConsistent.gains
  sets := by
    intro task changed name value consistent set
    obtain ⟨env, assigned, rfl⟩ := setVariable_eq_ok set
    exact ⟨consistent.env.assign assigned, consistent.steps⟩

theorem isKept_isSound : IsKept Value.IsTextOrNull IsSound where
  null := Value.isTextOrNull_null
  text := Value.isTextOrNull_str
  bare := fun description condition valid =>
    ⟨description, condition, valid, fun _ member => (List.not_mem_nil member).elim⟩
  gains := IsSound.gains
  sets := fun sound set => (sound.setVariable set).1

section Keeping

variable {kind : Value → Prop} {holds : Task → Prop}

theorem IsKept.outcome (kept : IsKept kind holds) (before : holds task)
    (ofKind : ∀ part ∈ change.parts, kind part) (made : change.outcome task = .ok changed) :
    holds changed ∧ changed.name = task.name := by
  rcases Change.gains_or_sets kept.null kept.text ofKind made with gains | ⟨name, value, set⟩
  · exact ⟨kept.gains before gains, gains.name⟩
  · obtain ⟨env, -, same⟩ := setVariable_eq_ok set
    exact ⟨kept.sets before set, by rw [same]⟩

/-- A task without its steps gains none. -/
theorem gains_nil {fits : Step → Prop} (task : Task) :
    task.Gains fits { task with steps := [] } :=
  ⟨[], rfl, fun _ member => (List.not_mem_nil member).elim⟩

theorem IsKept.create (kept : IsKept kind holds)
    {name description category condition : Value} {command env : Argument}
    (ofCommand : ∀ given ∈ command.value?, kind given)
    (ofDescription : kind description) (ofCondition : kind condition)
    (made : create name description category condition env command = .ok task) :
    holds task ∧ task.name = name := by
  have fitting (given : Value) (same : command = .value given) :=
    Step.isMadeOf_running kept.null (ofCommand given (same ▸ rfl)) kept.null .null
  obtain ⟨band, settings, -, described, gains⟩ := create_eq_ok fitting made
  have bare : holds ⟨name, description, band, condition, settings, []⟩ :=
    kept.bare ofDescription ofCondition (Env.isValid_of_ofArgument described)
  exact ⟨kept.gains bare gains, gains.name⟩

end Keeping

end Task

/-! ### Changes to a registry -/

/-- A memory whose registry is replaced by an outcome as a whole, or of which something is left. -/
def Memory.settled (left : Registry) (records : List Record) :
    Except Error (Registry × Option Task) → Except Error (Option Task) × Memory
  | .ok (changed, task?) => (.ok task?, ⟨changed, records⟩)
  | .error error => (.error error, ⟨left, records⟩)

theorem Memory.revise_apply (change : Registry → Logged (Registry × Option Task))
    (memory : Memory) : Memory.revise change memory =
      settled memory.registry (memory.records ++ (change memory.registry).records)
        (change memory.registry).result := by
  unfold revise
  rw [InPlace.get_bind_apply]
  cases (change memory.registry).result with
  | ok result => rfl
  | error error => rfl

namespace Registry

/-- What a change makes of a registry, with the task that is added, taken out or changed. -/
def Change.outcome (registry : Registry) : Change → Except Error (Registry × Option Task)
  | add name command description category condition env =>
    (registry.addTask name command description category condition env).result.map
      fun added => (added.1, some added.2)
  | setVariable name text =>
    (registry.setVariable name text).map fun changed => (changed, none)
  | remove name =>
    (registry.removeTask name).result.map fun removed => (removed.1, some removed.2)
  | replace manifest => do
    let manifest ← manifest.asked
    (ofManifest manifest).result.map fun changed => (changed, none)
  | edit name change => do
    let (text, task) ← registry.find name
    let changed ← change.outcome task
    return (registry.put text changed, some changed)

/-- What a change that fails leaves of a registry: all of it, but for the steps of a task that is to
be reset to what cannot be asked whether it is a command. -/
def Change.leftBy (registry : Registry) : Change → Registry
  | edit name (.reset (.refusing _)) =>
    match registry.find name with
    | .ok (text, task) => registry.put text { task with steps := [] }
    | .error _ => registry
  | _ => registry

variable {registry changed : Registry} {change : Change}

/-- A task that is put where it was found changes nothing. -/
theorem put_of_resolve {text : String} {task : Task}
    (found : registry.resolve (.str text) = .ok (some (text, task))) :
    registry.put text task = registry := by
  obtain ⟨env, tasks⟩ := registry
  exact congrArg (Registry.mk env) (Ordered.put_of_first (Except.ok.inj found))

/-- What is left of a registry is what is left of the task that was to be changed. -/
theorem Change.leftBy_edit {name : Value} {text : String} {task : Task}
    (found : registry.find name = .ok (text, task)) (change : Task.Change) :
    leftBy registry (.edit name change) = registry.put text (change.leftBy task) := by
  have resolved := find_eq_ok.mp found
  obtain rfl := eq_str_of_resolve resolved
  have same := (put_of_resolve resolved).symm
  cases change with
  | reset command =>
    cases command with
    | value given => exact same
    | refusing fault =>
      rw [leftBy, found]
      rfl
  | _ => exact same

theorem Change.leftBy_edit_of_error {name : Value} {error : Error}
    (missing : registry.find name = .error error) (change : Task.Change) :
    leftBy registry (.edit name change) = registry := by
  cases change with
  | reset command =>
    cases command with
    | value given => rfl
    | refusing fault => rw [leftBy, missing]
  | _ => rfl

/-- A change is carried out on a registry as a whole, or it leaves what it leaves. -/
theorem Change.perform_apply (change : Change) (memory : Memory) :
    ∃ records, change.perform memory =
      Memory.settled (change.leftBy memory.registry) records
        (change.outcome memory.registry) := by
  have revised {α : Type} (made : Registry → Logged α) (result : α → Registry × Option Task) :
      ∃ records, Memory.revise (fun registry => made registry >>= fun value => pure (result value))
          memory = Memory.settled memory.registry records
            ((made memory.registry).result.map result) := by
    refine ⟨_, (Memory.revise_apply _ memory).trans (congrArg _ ?_)⟩
    rw [Logged.result_bind]
    cases (made memory.registry).result with
    | ok value => rfl
    | error error => rfl
  cases change with
  | add name command description category condition env =>
    exact revised (·.addTask name command description category condition env)
      fun added => (added.1, some added.2)
  | setVariable name text =>
    exact revised (fun registry => liftM (registry.setVariable name text))
      fun changed => (changed, none)
  | remove name => exact revised (·.removeTask name) fun removed => (removed.1, some removed.2)
  | replace manifest =>
    cases manifest with
    | value given => exact revised (fun _ => ofManifest given) fun changed => (changed, none)
    | refusing fault =>
      exact revised (fun _ => (Logged.fail (.fault fault) : Logged Registry))
        fun changed => (changed, none)
  | edit name change =>
    refine ⟨memory.records, ?_⟩
    rw [perform, outcome, performOn, bind_assoc, InPlace.get_bind_apply]
    cases found : memory.registry.find name with
    | error error => rw [leftBy_edit_of_error found]; rfl
    | ok entry =>
      obtain ⟨text, task⟩ := entry
      rw [ok_bind, leftBy_edit found]
      dsimp only
      rw [change.perform_apply]
      cases change.outcome task with
      | ok changed => rfl
      | error error => rfl

/-- What a change makes of a registry that it does not leave as it was. -/
inductive Change.Makes (registry : Registry) : Change → Registry → Prop where
  | add {text : String} {description category condition : Value} {command env : Argument}
      {task : Task} (named : isTaskName text = true) (fresh : text ∉ registry.names)
      (created : Task.create (.str text) description category condition env command = .ok task) :
      Makes registry (.add (.str text) command description category condition env)
        (registry.put text task)
  | setVariable {name value : Value} {changed : Registry}
      (set : registry.setVariable name value = .ok changed) :
      Makes registry (.setVariable name value) changed
  | remove {text : String} (known : text ∈ registry.names) :
      Makes registry (.remove (.str text))
        { registry with tasks := registry.tasks.filter fun entry => entry.1 ≠ text }
  | replace {manifest : Value} {read : Registry}
      (succeeded : (ofManifest manifest).result = .ok read) :
      Makes registry (.replace (.value manifest)) read
  | edit {text : String} {task task' : Task} {change : Task.Change}
      (known : (text, task) ∈ registry.tasks) (made : change.outcome task = .ok task') :
      Makes registry (.edit (.str text) change) (registry.put text task')
  /-- A reset to what cannot be asked whether it is a command fails with all steps removed. -/
  | empty {text : String} {task : Task} {fault : Fault} (known : (text, task) ∈ registry.tasks) :
      Makes registry (.edit (.str text) (.reset (.refusing fault)))
        (registry.put text { task with steps := [] })

theorem Change.makes_of_outcome {task? : Option Task}
    (made : change.outcome registry = .ok (changed, task?)) : change.Makes registry changed := by
  cases change with
  | add name command description category condition env =>
    obtain ⟨⟨extended, task⟩, added, same⟩ := map_eq_ok.mp made
    obtain ⟨rfl, -⟩ := Prod.mk.inj same
    obtain ⟨text, rfl, named, fresh, created, rfl⟩ := addTask_eq_ok.mp added
    exact .add named fresh created
  | setVariable name text =>
    obtain ⟨extended, set, same⟩ := map_eq_ok.mp made
    obtain ⟨rfl, -⟩ := Prod.mk.inj same
    exact .setVariable set
  | remove name =>
    obtain ⟨⟨rest, task⟩, removed, same⟩ := map_eq_ok.mp made
    obtain ⟨rfl, -⟩ := Prod.mk.inj same
    obtain ⟨text, found, rfl⟩ := removeTask_eq_ok removed
    have resolved := find_eq_ok.mp found
    obtain rfl := eq_str_of_resolve resolved
    exact .remove (mem_names_of_resolve resolved)
  | replace manifest =>
    obtain ⟨given, rfl, made⟩ := Argument.asked_bind_eq_ok.mp made
    obtain ⟨read, succeeded, same⟩ := map_eq_ok.mp made
    obtain ⟨rfl, -⟩ := Prod.mk.inj same
    exact .replace succeeded
  | edit name change =>
    obtain ⟨⟨text, task⟩, found, made⟩ := bind_eq_ok.mp made
    obtain ⟨task', edited, same⟩ := bind_eq_ok.mp made
    obtain ⟨rfl, -⟩ := Prod.mk.inj (Except.ok.inj same)
    have resolved := find_eq_ok.mp found
    obtain rfl := eq_str_of_resolve resolved
    exact .edit (mem_of_resolve resolved) edited

theorem Change.leftBy_eq_or_makes (change : Change) (registry : Registry) :
    change.leftBy registry = registry ∨ change.Makes registry (change.leftBy registry) := by
  cases change with
  | edit name change =>
    cases found : registry.find name with
    | error error => exact Or.inl (leftBy_edit_of_error found change)
    | ok entry =>
      obtain ⟨text, task⟩ := entry
      have resolved := find_eq_ok.mp found
      obtain rfl := eq_str_of_resolve resolved
      rw [leftBy_edit found]
      cases change with
      | reset command =>
        cases command with
        | value given => exact Or.inl (put_of_resolve resolved)
        | refusing fault => exact Or.inr (.empty (mem_of_resolve resolved))
      | _ => exact Or.inl (put_of_resolve resolved)
  | _ => exact Or.inl rfl

/-- A change whose parts that are kept as they are all are of some kind. -/
def Change.IsMadeOf (kind : Value → Prop) : Change → Prop
  | add _ command description _ condition _ =>
    (∀ given ∈ command.value?, kind given) ∧ kind description ∧ kind condition
  | edit _ change => ∀ part ∈ change.parts, kind part
  | _ => True

/-- A change of a registry keeps what is kept by its tasks, as long as it holds of the tasks of a
manifest that is read. -/
theorem IsOf.made {kind : Value → Prop} {holds : Task → Prop} (before : registry.IsOf holds)
    (kept : Task.IsKept kind holds) (ofKind : change.IsMadeOf kind)
    (reads : ∀ manifest : Value, change = .replace manifest →
      ∀ read, (ofManifest manifest).result = .ok read → read.IsOf holds)
    (makes : change.Makes registry changed) : changed.IsOf holds := by
  cases makes with
  | add named fresh created =>
    obtain ⟨ofCommand, ofDescription, ofCondition⟩ := ofKind
    obtain ⟨taskHolds, called⟩ := kept.create ofCommand ofDescription ofCondition created
    exact before.put named taskHolds called
  | setVariable set => exact before.setVariable set
  | @remove text known => exact before.without text
  | replace succeeded => exact reads _ rfl _ succeeded
  | edit known edited =>
    obtain ⟨named, called⟩ := before.named _ known
    obtain ⟨taskHolds, sameName⟩ := kept.outcome (before.tasks _ known) ofKind edited
    exact before.put named taskHolds (sameName.trans called)
  | @empty text task _ known =>
    obtain ⟨named, called⟩ := before.named _ known
    exact before.put named (kept.gains (before.tasks _ known) (Task.gains_nil task)) called

end Registry

/-- What every one of some changes keeps holds after them. -/
theorem Memory.holds_after (holds : Registry → Prop) {changes : List Registry.Change}
    (keeps : ∀ change ∈ changes, ∀ registry changed, holds registry →
      change.Makes registry changed → holds changed)
    {memory : Memory} (start : holds memory.registry) : holds (memory.after changes).registry := by
  unfold after
  induction changes generalizing memory with
  | nil => exact start
  | cons change rest inductionHypothesis =>
    refine inductionHypothesis (fun other member => keeps other (List.mem_cons_of_mem _ member)) ?_
    obtain ⟨records, performed⟩ := change.perform_apply memory
    dsimp only
    rw [performed]
    cases outcome : change.outcome memory.registry with
    | error error =>
      show holds (change.leftBy memory.registry)
      rcases change.leftBy_eq_or_makes memory.registry with same | makes
      · rwa [same]
      · exact keeps change List.mem_cons_self _ _ start makes
    | ok result =>
      exact keeps change List.mem_cons_self _ _ start (Registry.Change.makes_of_outcome outcome)

/-! ### The tasks of a registry in their order -/

namespace Registry

variable {registry changed : Registry} {change : Change}

/-- What a change that can be made does to the names: a new one comes last, one is taken out, or
those of a manifest take the place of all; otherwise they stay as they are. -/
def Change.Orders (change : Change) (before after : List String) : Prop :=
  match change with
  | add name .. => ∃ text, name = .str text ∧ text ∉ before ∧ after = before ++ [text]
  | remove name => ∃ text, name = .str text ∧ text ∈ before ∧
      after = before.filter fun other => other ≠ text
  | replace manifest => ∃ given fields entries, manifest = .value given ∧
      given.entries? = some fields ∧
      ((Value.field fields "tasks").orElse (.ofEntries [])).entries? = some entries ∧
      List.Forall₂ (fun entry name => entry.1.text = .ok name) entries after
  | _ => after = before

theorem Change.Makes.orders (makes : change.Makes registry changed) :
    change.Orders registry.names changed.names := by
  cases makes with
  | @add text _ _ _ _ _ task named fresh created =>
    refine ⟨text, rfl, fresh, ?_⟩
    show Ordered.keys (registry.tasks.put text task) = registry.tasks.keys ++ [text]
    rw [Ordered.put_of_not_mem fresh, Ordered.keys, List.map_append]
    rfl
  | setVariable set =>
    obtain ⟨env, -, same⟩ := bind_eq_ok.mp set
    obtain rfl := Except.ok.inj same
    rfl
  | @remove text known =>
    refine ⟨text, rfl, known, ?_⟩
    show Ordered.keys (registry.tasks.filter _) = registry.tasks.keys.filter _
    rw [Ordered.keys, Ordered.keys, List.filter_map]
    rfl
  | replace succeeded =>
    obtain ⟨-, fields, env, entries, opened, -, -, found, described⟩ :=
      ofManifest_eq_ok.mp succeeded
    refine ⟨_, fields, entries, rfl, opened, found, ?_⟩
    exact List.forall₂_map_right_iff.mpr (described.imp fun entry known describes => describes.key)
  | @edit text task task' _ known edited =>
    exact Ordered.keys_put_of_mem (List.mem_map_of_mem known) task'
  | @empty text task _ known =>
    exact Ordered.keys_put_of_mem (List.mem_map_of_mem known) { task with steps := [] }

/-- A task is found by its name alone. -/
theorem find_eq_ok_iff_mem (distinct : registry.names.Nodup) {value : Value} {name : String}
    {task : Task} : registry.find value = .ok (name, task) ↔
      value = .str name ∧ (name, task) ∈ registry.tasks := by
  rw [find_eq_ok]
  constructor
  · intro resolved
    exact ⟨eq_str_of_resolve resolved, mem_of_resolve resolved⟩
  · rintro ⟨rfl, member⟩
    obtain ⟨other, resolved⟩ := resolve_of_mem_names (List.mem_map_of_mem (f := Prod.fst) member)
    have same : (name, other) = (name, task) :=
      List.inj_on_of_nodup_map distinct (mem_of_resolve resolved) member rfl
    rw [resolved, same]

theorem contains_eq_true_iff_mem (distinct : registry.names.Nodup) {value : Value} :
    registry.contains value = .ok true ↔
      ∃ name task, value = .str name ∧ (name, task) ∈ registry.tasks := by
  constructor
  · intro contained
    obtain ⟨found?, resolved, same⟩ := bind_eq_ok.mp contained
    obtain ⟨⟨name, task⟩, rfl⟩ := Option.isSome_iff_exists.mp (Except.ok.inj same)
    exact ⟨name, task, eq_str_of_resolve resolved, mem_of_resolve resolved⟩
  · rintro ⟨name, task, rfl, member⟩
    have found := (find_eq_ok_iff_mem distinct).mpr ⟨rfl, member⟩
    rw [contains, find_eq_ok.mp found]
    rfl

/-- What a value cannot be looked up by is neither found nor missed. -/
theorem find_of_not_isKey {value : Value} (collected : value.isKey = false) :
    registry.find value = .error (.fault .wrongType) ∧
      registry.contains value = .error .wrongType := by
  have refused : registry.resolve value = .error .wrongType := by
    unfold resolve
    split
    · cases collected
    · exact if_neg (Bool.eq_false_iff.mp collected)
  rw [find, contains, refused]
  exact ⟨rfl, rfl⟩

theorem contains_isOk {value : Value} (known : value.isKey = true) :
    ∃ answer, registry.contains value = .ok answer := by
  have resolved : ∃ found?, registry.resolve value = .ok found? := by
    unfold resolve
    split
    · exact ⟨_, rfl⟩
    · exact ⟨none, if_pos known⟩
  obtain ⟨found?, resolved⟩ := resolved
  rw [contains, resolved]
  exact ⟨_, rfl⟩

/-- What is found by a value, and that there is something, is exactly what the registry has under
the name that the value is. A collection that cannot be looked up is refused by both. -/
structure FindsTasks (registry : Registry) : Prop where
  find : ∀ value name task, registry.find value = .ok (name, task) ↔
    value = .str name ∧ (name, task) ∈ registry.tasks
  contains : ∀ value, registry.contains value = .ok true ↔
    ∃ name task, value = .str name ∧ (name, task) ∈ registry.tasks
  answers : ∀ value, value.isKey = true → ∃ answer, registry.contains value = .ok answer
  refuses : ∀ value, value.isKey = false → registry.find value = .error (.fault .wrongType) ∧
    registry.contains value = .error .wrongType

/-- A change that succeeds keeps the order of the names that stay. One that fails leaves the
registry as it was, but for a reset to what cannot be asked whether it is a command. -/
def Change.IsWhole (change : Change) (memory : Memory) : Prop :=
  match change.perform memory with
  | (.ok _, after) => change.Orders memory.registry.names after.registry.names
  | (.error _, after) => after.registry = change.leftBy memory.registry

theorem Change.isWhole (change : Change) (memory : Memory) : change.IsWhole memory := by
  obtain ⟨records, performed⟩ := change.perform_apply memory
  rw [IsWhole, performed]
  cases outcome : change.outcome memory.registry with
  | error error => rfl
  | ok result => exact (Change.makes_of_outcome outcome).orders

/-- From an empty registry on, and after any changes with any arguments, the registry is
consistent. -/
theorem isConsistent_after {env : Value} {start : Registry} (created : create env = .ok start)
    (records : List Record) (changes : List Change) :
    (Memory.after ⟨start, records⟩ changes).registry.IsConsistent := by
  refine Memory.holds_after IsConsistent ?_ (isOf_of_create created)
  intro made _ registry changed before makes
  have ofKind : made.IsMadeOf fun _ => True := by
    cases made with
    | add => exact ⟨fun _ _ => trivial, trivial, trivial⟩
    | edit => exact fun _ _ => trivial
    | _ => trivial
  exact before.made Task.isKept_isConsistent ofKind
    (fun _ _ read succeeded => (ofManifest_eq_ok.mp succeeded).isConsistent) makes

/-- From an empty registry on, whatever its shared variables are described by, and after any changes
with any arguments, successful or not, the registry is consistent, each step has either a command or
a target, the tasks are those that are found by their names, and the next change is made as a whole
or leaves everything but the steps that a reset removes. -/
theorem consistent_after {env : Value} {start : Registry} (created : create env = .ok start)
    (records : List Record) (changes : List Change) (change : Change) :
    let memory := Memory.after ⟨start, records⟩ changes
    start.names = [] ∧ memory.registry.IsConsistent ∧
      (∀ entry ∈ memory.registry.tasks, ∀ step ∈ entry.2.steps,
        step.command.isNull = !(step.target?.getD .null).isNull) ∧
      memory.registry.FindsTasks ∧ change.IsWhole memory := by
  intro memory
  have consistent : memory.registry.IsConsistent := isConsistent_after created records changes
  obtain ⟨settings, -, same⟩ := bind_eq_ok.mp created
  refine ⟨by rw [← Except.ok.inj same]; rfl, consistent, fun entry member step inside => ?_,
    ⟨fun _ _ _ => find_eq_ok_iff_mem consistent.distinct,
      fun _ => contains_eq_true_iff_mem consistent.distinct, fun _ => contains_isOk,
      fun _ => find_of_not_isKey⟩, change.isWhole memory⟩
  exact ((consistent.tasks entry member).steps step inside).command_or_target

/-- Changes of which the second and the third fail. -/
def sampleChanges : List Change :=
  [.add (.str "build") (Value.str "make") .null (.str "build") .null .null,
    .edit (.str "build")
      (.addStep (Value.ofEntries [(.str "exec", .str "a"), (.str "exec_task", .str "b")])),
    .replace (Value.ofEntries [(.str "tasks", .str "build")]),
    .setVariable (.str "STAGE") .null,
    .add (.str "check") .null (.int 3) (.str "TEST") (.str "true")
      (Value.ofEntries [(.str "CI", .bool true)]),
    .edit (.str "check") (.spawn (some (.str "build")) (.str "Build") .null),
    .edit (.str "build") (.runFirst (.bool true) .null .null)]

/-- The registry that these changes lead to. -/
def sampleReached : Registry :=
  ⟨[("HOME", "/tmp"), ("STAGE", "None")],
    [("build", ⟨.str "build", .null, some .build, .null, [],
        [⟨.run (.bool true), .null, []⟩, ⟨.run (.str "make"), .null, []⟩]⟩),
      ("check", ⟨.str "check", .int 3, some .test, .str "true", [("CI", "True")],
        [⟨.spawn (.str "build"), .str "Build", []⟩]⟩)]⟩

/-- A reset of a task of the sample to what cannot be asked whether it is a command. -/
def refusedReset : Change :=
  .edit (.str "build") (.reset (.refusing .wrongValue))

/-- The registry that is reached has what `consistent_after` says of it. -/
theorem sample_consistent_after :
    let memory := Memory.after ⟨⟨[("HOME", "/tmp")], []⟩, []⟩ sampleChanges
    create (.ofEntries [(.str "HOME", .str "/tmp")]) = .ok ⟨[("HOME", "/tmp")], []⟩ ∧
      memory.registry = sampleReached ∧
      names ⟨[("HOME", "/tmp")], []⟩ = [] ∧ memory.registry.IsConsistent ∧
      (∀ entry ∈ memory.registry.tasks, ∀ step ∈ entry.2.steps,
        step.command.isNull = !(step.target?.getD .null).isNull) ∧
      memory.registry.FindsTasks ∧ refusedReset.IsWhole memory := by
  have created : create (.ofEntries [(.str "HOME", .str "/tmp")]) = .ok ⟨[("HOME", "/tmp")], []⟩ :=
    rfl
  exact ⟨created, rfl, consistent_after created [] sampleChanges refusedReset⟩

/-- The reset fails with the steps of the task gone. What is asked by a list is refused instead of
being answered. -/
theorem refusedReset_loses_steps :
    let performed := refusedReset.perform ⟨sampleReached, []⟩
    performed.1.toOption.isNone ∧
      (performed.2.registry.tasks.map fun entry => (entry.1, entry.2.steps.length)) =
        [("build", 0), ("check", 1)] ∧
      (sampleReached.tasks.map fun entry => (entry.1, entry.2.steps.length)) =
        [("build", 2), ("check", 1)] ∧
      performed.2.registry ≠ sampleReached ∧
      sampleReached.contains (.ofItems [.str "build"]) = .error .wrongType := by
  intro performed
  refine ⟨rfl, rfl, rfl, fun same => ?_, rfl⟩
  have gone : (performed.2.registry.tasks.map fun entry => entry.2.steps.length) =
      sampleReached.tasks.map fun entry => entry.2.steps.length := by
    rw [same]
  have differ : [0, 1] = [2, 1] := gone
  simp at differ

end Registry

end Taskbook
