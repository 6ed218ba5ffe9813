/-
Where the variables of a rendering come from.

What a rendering makes use of are environments: that of the configuration, which is the base, that
of the manifest, and those of the tasks that legs lead to and of their steps. Each of them is a
layer of the rendering, known by where it is written. Whatever a subshell of the rendering sets, it
has from a layer, name and text, and the names of every layer are set by some subshell.

So where one layer alone sets a variable, all subshells that set it set it to the text that it has
in that layer. The layers that a subshell merges do not come into it any more.
-/

import Taskbook.Proofs.Consistency
import Taskbook.Proofs.Rendering.Contents

namespace Taskbook

/-- Where an environment is written: in the configuration, in the manifest for all tasks, with a
task, or with a step of a task. -/
inductive Origin where
  | configuration
  | manifest
  | task (name : String)
  | step (name : String) (index : Nat)

/-- There are subshells in a command that set a variable, and they all set it to one text. -/
structure Shell.Command.Exports (command : Command) (key text : String) : Prop where
  somewhere : ∃ bindings body, .subshell (.exports bindings body) ∈ command.contents ∧
    (key, text) ∈ bindings
  everywhere : ∀ bindings body, .subshell (.exports bindings body) ∈ command.contents →
    ∀ other, (key, other) ∈ bindings → other = text

namespace Registry

open Shell

/-- A layer of the rendering of a task over a base. -/
inductive Layer (registry : Registry) (base : Env) (root : Task) : Origin → Env → Prop
  | configuration : Layer registry base root .configuration base
  | manifest : Layer registry base root .manifest registry.env
  | task {legs : List Leg} {task : Task} {name : String}
      (descent : Descent registry root legs task) (called : task.name = .str name) :
      Layer registry base root (.task name) task.env
  | step {legs : List Leg} {task : Task} {name : String} {index : Nat} {step : Step}
      (descent : Descent registry root legs task) (called : task.name = .str name)
      (there : task.steps[index]? = some step) :
      Layer registry base root (.step name index) step.env

variable {registry : Registry} {base env : Env} {root task : Task} {origin : Origin}

/-! ### Tasks and their names -/

/-- In a consistent registry tasks with one name are one task. -/
theorem IsKnown.unique (consistent : registry.IsConsistent) {other : Task} {name : String}
    (known : registry.IsKnown task) (otherKnown : registry.IsKnown other)
    (called : task.name = .str name) (otherCalled : other.name = .str name) : task = other := by
  have entryOf {task : Task} (known : registry.IsKnown task) (called : task.name = .str name) :
      (name, task) ∈ registry.tasks := by
    obtain ⟨⟨key, own⟩, member, rfl⟩ := known
    have same := (consistent.named _ member).2
    rw [called] at same
    obtain rfl := Value.str.inj same
    exact member
  exact Ordered.eq_of_mem_of_nodup consistent.distinct (entryOf known called)
    (entryOf otherKnown otherCalled)

theorem IsKnown.called (consistent : registry.IsConsistent) (known : registry.IsKnown task) :
    ∃ name, task.name = .str name := by
  obtain ⟨entry, member, rfl⟩ := known
  exact ⟨entry.1, (consistent.named entry member).2⟩

/-- Each leg is a step of a task that the legs before it lead to. -/
theorem Descent.exists_spawning {legs : List Leg} (descent : Descent registry root legs task) :
    ∀ leg ∈ legs, ∃ before spawning, Descent registry root before spawning ∧
      spawning.steps[leg.index]? = some leg.step := by
  induction descent with
  | here => exact fun leg member => (List.not_mem_nil member).elim
  | @down first last leg legs target name there spawns found further inductionHypothesis =>
    intro other member
    rcases List.mem_cons.mp member with rfl | inRest
    · exact ⟨[], first, .here, there⟩
    · obtain ⟨before, spawning, below, located⟩ := inductionHypothesis other inRest
      exact ⟨_, spawning, .down there spawns found below, located⟩

/-! ### Layers -/

/-- Where a layer is written there is no other. -/
theorem Layer.unique (consistent : registry.IsConsistent) (known : registry.IsKnown root)
    {other : Env} (layer : Layer registry base root origin env)
    (also : Layer registry base root origin other) : env = other := by
  cases layer with
  | configuration => cases also; rfl
  | manifest => cases also; rfl
  | task descent called =>
    cases also with
    | task otherDescent otherCalled =>
      rw [(descent.isKnown known).1.unique consistent (otherDescent.isKnown known).1 called
        otherCalled]
  | step descent called there =>
    cases also with
    | step otherDescent otherCalled otherThere =>
      obtain rfl := (descent.isKnown known).1.unique consistent (otherDescent.isKnown known).1
        called otherCalled
      rw [there] at otherThere
      rw [Option.some.inj otherThere]

/-- All layers are valid if the base is. -/
theorem Layer.isValid (consistent : registry.IsConsistent) (known : registry.IsKnown root)
    (valid : base.IsValid) (layer : Layer registry base root origin env) : env.IsValid := by
  cases layer with
  | configuration => exact valid
  | manifest => exact consistent.env
  | task descent called =>
    obtain ⟨entry, member, rfl⟩ := (descent.isKnown known).1
    exact (consistent.tasks entry member).env
  | step descent called there =>
    obtain ⟨entry, member, rfl⟩ := (descent.isKnown known).1
    exact ((consistent.tasks entry member).steps _ (List.mem_of_getElem? there)).env

/-! ### What subshells set -/

/-- What a subshell of a rendering sets, it has from a layer. -/
theorem Arises.exists_layer (consistent : registry.IsConsistent) (known : registry.IsKnown root)
    {bindings : List (String × String)} {body : Row}
    (arises : Arises registry base.toValue root (.subshell (.exports bindings body)))
    {key text : String} (sets : (key, text) ∈ bindings) :
    ∃ origin env, Layer registry base root origin env ∧ (key, text) ∈ env := by
  -- Steps and tasks of the rendering are layers under the name of their task.
  have ofStep {legs : List Leg} {task : Task} {index : Nat} {step : Step}
      (descent : Descent registry root legs task) (there : task.steps[index]? = some step) :
      ∃ origin, Layer registry base root origin step.env := by
    obtain ⟨name, called⟩ := (descent.isKnown known).1.called consistent
    exact ⟨_, .step descent called there⟩
  cases arises with
  | @task legs task _ _ descent bound =>
    rw [bindings_eq_mergeAll base.layer_toValue] at bound
    obtain rfl := Except.ok.inj bound
    obtain ⟨layer, among, inLayer⟩ := Ordered.mem_of_mem_mergeAll sets
    simp only [List.mem_cons, List.not_mem_nil, or_false] at among
    rcases among with rfl | rfl | rfl | rfl
    · exact ⟨_, _, .configuration, inLayer⟩
    · exact ⟨_, _, .manifest, inLayer⟩
    · obtain ⟨name, called⟩ := (descent.isKnown known).1.called consistent
      exact ⟨_, _, .task descent called, inLayer⟩
    · obtain ⟨_, among, inStep⟩ := Ordered.mem_of_mem_mergeAll inLayer
      obtain ⟨_, stepMember, rfl⟩ := List.mem_map.mp among
      obtain ⟨leg, legMember, rfl⟩ := List.mem_map.mp stepMember
      obtain ⟨before, spawning, above, there⟩ := descent.exists_spawning leg legMember
      obtain ⟨origin, layer⟩ := ofStep above there
      exact ⟨origin, _, layer, inStep⟩
  | step descent member =>
    obtain ⟨index, there⟩ := List.getElem?_of_mem member
    obtain ⟨origin, layer⟩ := ofStep descent there
    exact ⟨origin, _, layer, sets⟩
  | group => cases sets

variable {command : Command}

/-- The subshell of a task that legs lead to sets the names of the layers that it merges. -/
theorem exists_exports_of_descent
    (commanded : (registry.taskCommand base.toValue root).result = .ok command)
    {legs : List Leg} (descent : Descent registry root legs task)
    (merged : env ∈ [base, registry.env, task.env, pushed (legs.map Leg.step)]) :
    ∃ bindings body, .subshell (.exports bindings body) ∈ command.contents ∧
      ∀ key ∈ Ordered.keys env, key ∈ Ordered.keys bindings := by
  obtain ⟨below, inner, nested, -, framed, inside⟩ := exists_framed_of_descent commanded descent
  obtain ⟨body, bindings, -, bound, rfl⟩ := frame_eq_ok framed
  rw [bindings_eq_mergeAll base.layer_toValue] at bound
  obtain rfl := Except.ok.inj bound
  exact ⟨_, body, inside, fun key sets => Ordered.mem_keys_mergeAll merged sets⟩

/-- The names of a layer are set by a subshell. -/
theorem Layer.exists_exports
    (commanded : (registry.taskCommand base.toValue root).result = .ok command)
    (layer : Layer registry base root origin env) :
    ∃ bindings body, .subshell (.exports bindings body) ∈ command.contents ∧
      ∀ key ∈ Ordered.keys env, key ∈ Ordered.keys bindings := by
  cases layer with
  | configuration => exact exists_exports_of_descent commanded .here (by simp)
  | manifest => exact exists_exports_of_descent commanded .here (by simp)
  | task descent called => exact exists_exports_of_descent commanded descent (by simp)
  | @step legs task name index step descent called there =>
    obtain ⟨below, inner, nested, unfolds, framed, inside⟩ :=
      exists_framed_of_descent commanded descent
    obtain ⟨fragment, located, stepUnfolds⟩ := unfolds.getElem? there
    cases stepUnfolds with
    | run runs worded =>
      have contained := mem_contents_frame framed (List.mem_of_getElem? located)
        (Command.mem_contents_self _)
      exact ⟨step.env, _, Command.mem_contents_trans inside contained, fun _ sets => sets⟩
    | @spawn target spawnedName spawned fragments _ spawns found fresh _ _ =>
      -- What the step sets is on top of what the task sets that it spawns.
      let leg : Leg := ⟨index, step, spawned⟩
      have longer : Descent registry root (legs ++ [leg]) spawned :=
        descent.concat there spawns found
      have merged : pushed ((legs ++ [leg]).map Leg.step) ∈
          [base, registry.env, spawned.env, pushed ((legs ++ [leg]).map Leg.step)] := by simp
      obtain ⟨bindings, body, contained, sets⟩ :=
        exists_exports_of_descent commanded longer merged
      refine ⟨bindings, body, contained, fun key among => sets key ?_⟩
      refine Ordered.mem_keys_mergeAll (List.mem_map_of_mem ?_) among
      simp [leg]

/-- Where one layer alone sets a variable, the rendering sets it to the text of that layer. -/
theorem Layer.exports (consistent : registry.IsConsistent) (known : registry.IsKnown root)
    (valid : base.IsValid)
    (commanded : (registry.taskCommand base.toValue root).result = .ok command)
    (layer : Layer registry base root origin env) {key text : String}
    (sets : (key, text) ∈ env)
    (alone : ∀ other further, Layer registry base root other further → other ≠ origin →
      key ∉ Ordered.keys further) :
    command.Exports key text := by
  have same (bindings : List (String × String)) (body : Row)
      (inside : .subshell (.exports bindings body) ∈ command.contents) (value : String)
      (member : (key, value) ∈ bindings) : value = text := by
    obtain ⟨other, further, otherLayer, inFurther⟩ :=
      (arises_of_mem_contents commanded _ inside).exists_layer consistent known member
    have isOrigin : other = origin := by
      by_contra elsewhere
      exact alone _ _ otherLayer elsewhere (List.mem_map_of_mem inFurther)
    subst isOrigin
    obtain rfl := otherLayer.unique consistent known layer
    exact Ordered.eq_of_mem_of_nodup (layer.isValid consistent known valid).distinct inFurther sets
  obtain ⟨bindings, body, inside, names⟩ := layer.exists_exports commanded
  obtain ⟨⟨_, value⟩, member, rfl⟩ := List.mem_map.mp (names key (List.mem_map_of_mem sets))
  obtain rfl := same bindings body inside value member
  exact ⟨⟨bindings, body, inside, member⟩, same⟩

end Registry

end Taskbook
