/-
Which tasks a rendering looks at.

A rendering looks up the task that it starts from and what is spawned from there, step by step.
So it depends on nothing else: where two registries share their variables and agree on every name
that is reached, they render to the same text or the same error, and what is written to the log on
the way is the same. What they agree on are steps, variables and conditions. Other tasks, the order
of all tasks, descriptions and bands have no part in it.

The renderer is followed on the first registry, step by step, with what it writes to the log. The
names that are reached from a spawned task are reached from the one that spawns it.
-/

import Mathlib.Data.List.Nodup
import Mathlib.Logic.Relation
import Taskbook.Proofs.Rendering.References
import Taskbook.Proofs.Soundness

namespace Taskbook.Registry

open Shell Relation

/-! ### Agreement -/

/-- Tasks that are rendered by the same steps, variables and condition. -/
structure IsAlike (task other : Task) : Prop where
  steps : task.steps = other.steps
  env : task.env = other.env
  condition : task.condition = other.condition

/-- Both registries lack a name, or both have tasks for it that are rendered alike. -/
def AgreeOn (registry other : Registry) (name : String) : Prop :=
  Option.Rel (fun entry counterpart => IsAlike entry.2 counterpart.2)
    (List.find? (fun entry => entry.1 = name) registry.tasks)
    (List.find? (fun entry => entry.1 = name) other.tasks)

/-- Registries with the same variables that agree on every name that is reached from one. -/
structure AgreeFrom (registry other : Registry) (name : String) : Prop where
  env : registry.env = other.env
  reached : ∀ next, ReflTransGen registry.Spawns name next → AgreeOn registry other next

variable {registry other : Registry} {base : Value} {name : String}

theorem AgreeFrom.next (agree : AgreeFrom registry other name) {next : String}
    (spawns : registry.Spawns name next) : AgreeFrom registry other next :=
  ⟨agree.env, fun further reaches => agree.reached further (.head spawns reaches)⟩

/-- A name resolves in both registries, to tasks that are alike, or in neither. -/
theorem AgreeOn.resolve_cases (agree : AgreeOn registry other name) (named : registry.HasOwnNames)
    (otherNamed : other.HasOwnNames) :
    (∃ task counterpart, registry.resolve (.str name) = .ok (some (name, task)) ∧
        other.resolve (.str name) = .ok (some (name, counterpart)) ∧
        IsAlike task counterpart ∧ task.name = .str name ∧ counterpart.name = .str name) ∨
      registry.resolve (.str name) = .ok none ∧ other.resolve (.str name) = .ok none := by
  have related := agree
  rw [AgreeOn] at related
  rw [resolve, resolve]
  cases found : List.find? (fun entry => decide (entry.1 = name)) registry.tasks with
  | none =>
    rw [found] at related
    cases foundOther : List.find? (fun entry => decide (entry.1 = name)) other.tasks with
    | none => exact Or.inr ⟨rfl, rfl⟩
    | some counterpart =>
      rw [foundOther] at related
      cases related
  | some entry =>
    rw [found] at related
    cases foundOther : List.find? (fun entry => decide (entry.1 = name)) other.tasks with
    | none =>
      rw [foundOther] at related
      cases related
    | some counterpart =>
      rw [foundOther] at related
      obtain ⟨alike⟩ := related
      have key : entry.1 = name := by simpa using List.find?_some found
      have otherKey : counterpart.1 = name := by simpa using List.find?_some foundOther
      obtain ⟨entryName, task⟩ := entry
      obtain ⟨counterpartName, further⟩ := counterpart
      subst key
      subst otherKey
      exact Or.inl ⟨task, further, rfl, rfl, alike, named _ (List.mem_of_find?_eq_some found),
        otherNamed _ (List.mem_of_find?_eq_some foundOther)⟩

/-! ### Renderings that agree -/

/-- Steps whose spawned names are all agreed from are rendered alike. The induction follows the
renderer on the first registry. -/
theorem stepScripts_eq_of_agree (named : registry.HasOwnNames) (otherNamed : other.HasOwnNames)
    (overlay : Env) (path : List Value) (owner : Value) (steps : List Step)
    (agree : ∀ step ∈ steps, ∀ next, step.action = .spawn (.str next) →
      AgreeFrom registry other next) :
    stepScripts registry base overlay path owner steps =
      stepScripts other base overlay path owner steps := by
  induction overlay, path, owner, steps using stepScripts.induct registry with
  | case1 overlay path owner => rw [stepScripts_nil, stepScripts_nil]
  | case2 overlay path owner step rest restHypothesis insideHypothesis =>
    have acts : loggedAction registry base overlay path owner step =
        loggedAction other base overlay path owner step := by
      rw [loggedAction, loggedAction]
      cases action : step.action with
      | run command => rfl
      | spawn target =>
        dsimp only
        by_cases textual : ∃ text, target = .str text
        · obtain ⟨next, rfl⟩ := textual
          have from_ := agree step List.mem_cons_self next action
          rcases (from_.reached next .refl).resolve_cases named otherNamed with
            ⟨task, counterpart, found, foundOther, alike, own, otherOwn⟩ | ⟨missing, missingOther⟩
          · rw [found, foundOther]
            dsimp only
            split
            · rfl
            · rename_i fresh
              have inside := insideHypothesis (.str next) next task found fresh
                fun further member spawned spawns =>
                  from_.next ⟨task, found, further, member, spawns⟩
              rw [inside, alike.steps, own, otherOwn]
              simp only [frame, alike.condition, alike.env, from_.env]
          · rw [missing, missingOther]
        · rcases registry.resolve_of_not_str other fun text same => textual ⟨text, same⟩ with
            ⟨missing, missingOther⟩ | ⟨fault, refused, refusedOther⟩
          · rw [missing, missingOther]
          · rw [refused, refusedOther]
    rw [stepScripts_cons, stepScripts_cons, acts,
      restHypothesis fun further member => agree further (List.mem_cons_of_mem _ member)]

/-- A name that two registries agree from is rendered alike by both. -/
theorem AgreeFrom.render_eq (agree : AgreeFrom registry other name) (named : registry.HasOwnNames)
    (otherNamed : other.HasOwnNames) :
    registry.render (.str name) base = other.render (.str name) base := by
  rw [render, render, find, find]
  rcases (agree.reached name .refl).resolve_cases named otherNamed with
    ⟨task, counterpart, found, foundOther, alike, own, otherOwn⟩ | ⟨missing, missingOther⟩
  · have steps (owner : Value) : stepScripts registry base [] [.str name] owner task.steps =
        stepScripts other base [] [.str name] owner task.steps :=
      stepScripts_eq_of_agree named otherNamed _ _ _ _ fun step member next spawns =>
        agree.next ⟨task, found, step, member, spawns⟩
    rw [found, foundOther]
    show registry.renderTask base task = other.renderTask base counterpart
    rw [renderTask, renderTask, taskCommand, taskCommand, own, otherOwn, steps, alike.steps]
    simp only [frame, alike.condition, alike.env, agree.env]
  · rw [missing, missingOther]
    rfl

/-! ### Changes elsewhere -/

theorem agreeOn_of_find?_eq
    (same : List.find? (fun entry => decide (entry.1 = name)) registry.tasks =
      List.find? (fun entry => decide (entry.1 = name)) other.tasks) :
    AgreeOn registry other name := by
  rw [AgreeOn, same]
  cases List.find? (fun entry => decide (entry.1 = name)) other.tasks with
  | none => exact .none
  | some entry => exact .some ⟨rfl, rfl, rfl⟩

theorem find?_put_elsewhere (entries : Ordered String Task) {text : String} (elsewhere : text ≠ name)
    (task : Task) :
    List.find? (fun entry => decide (entry.1 = name)) (entries.put text task) =
      List.find? (fun entry => decide (entry.1 = name)) entries := by
  induction entries with
  | nil => simp [Ordered.put, elsewhere]
  | cons first rest inductionHypothesis =>
    rw [Ordered.put]
    split
    · rename_i same
      obtain rfl := eq_of_beq same
      simp [elsewhere]
    · rw [List.find?_cons, List.find?_cons, inductionHypothesis]

/-- A registry agrees with itself after a task has been put into it that is not reached. -/
theorem agreeFrom_put {text : String} (elsewhere : ¬ ReflTransGen registry.Spawns name text)
    (task : Task) : AgreeFrom registry (registry.put text task) name := by
  refine ⟨rfl, fun next reaches => agreeOn_of_find?_eq (find?_put_elsewhere _ ?_ task).symm⟩
  rintro rfl
  exact elsewhere reaches

theorem agreeFrom_without {text : String} (elsewhere : ¬ ReflTransGen registry.Spawns name text) :
    AgreeFrom registry { registry with tasks := registry.tasks.filter fun entry => entry.1 ≠ text }
      name := by
  refine ⟨rfl, fun next reaches => agreeOn_of_find?_eq ?_⟩
  have differ : next ≠ text := by
    rintro rfl
    exact elsewhere reaches
  rw [List.find?_filter]
  congr 1
  funext entry
  by_cases same : entry.1 = next
  · simp [same, differ]
  · simp [same]

/-- The order of the tasks is of no account, if they have different names. -/
theorem agreeFrom_perm (distinct : registry.names.Nodup) {tasks : Ordered String Task}
    (permuted : registry.tasks.Perm tasks) :
    AgreeFrom registry { registry with tasks := tasks } name := by
  refine ⟨rfl, fun next _ => agreeOn_of_find?_eq ?_⟩
  cases found : List.find? (fun entry => decide (entry.1 = next)) tasks with
  | none =>
    rw [List.find?_eq_none] at found ⊢
    exact fun entry member => found entry (permuted.subset member)
  | some entry =>
    have key : entry.1 = next := by simpa using List.find?_some found
    obtain ⟨other, foundOther⟩ :
        ∃ other, List.find? (fun entry => decide (entry.1 = next)) registry.tasks = some other :=
      Option.isSome_iff_exists.mp (List.find?_isSome.mpr
        ⟨entry, permuted.symm.subset (List.mem_of_find?_eq_some found), by simpa using key⟩)
    have otherKey : other.1 = next := by simpa using List.find?_some foundOther
    rw [foundOther]
    exact congrArg some (List.inj_on_of_nodup_map distinct (List.mem_of_find?_eq_some foundOther)
      (permuted.symm.subset (List.mem_of_find?_eq_some found)) (otherKey.trans key.symm))

/-- What is said about tasks is of no account. -/
theorem agreeFrom_describe (describe : Task → Value × Option Category) :
    AgreeFrom registry { registry with tasks := registry.tasks.map fun entry => (entry.1,
      { entry.2 with description := (describe entry.2).1, category := (describe entry.2).2 }) }
      name := by
  refine ⟨rfl, fun next _ => ?_⟩
  rw [AgreeOn, List.find?_map]
  show Option.Rel _ (List.find? (fun entry => decide (entry.1 = next)) registry.tasks)
    (Option.map _ (List.find? (fun entry => decide (entry.1 = next)) registry.tasks))
  cases List.find? (fun entry => decide (entry.1 = next)) registry.tasks with
  | none => exact .none
  | some entry => exact .some ⟨rfl, rfl, rfl⟩

theorem HasOwnNames.put (named : registry.HasOwnNames) {text : String} {task : Task}
    (own : task.name = .str text) : (registry.put text task).HasOwnNames := by
  intro entry member
  rcases Ordered.mem_put member with before | ⟨same, key⟩
  · exact named entry before
  · have called : entry.1 = text := key.elim id eq_of_beq
    rw [same, own, called]

/-- A change of one task keeps the name of the task. -/
theorem name_of_alters {change : Edit} {task task' : Task}
    (alters : change.Alters registry task task') : task'.name = task.name := by
  have any : ∀ {command target label env : Value} (step : Step),
      Step.make command target label env = .ok step → True := fun _ _ => trivial
  cases alters with
  | addCommand ran =>
    split at ran
    · exact (Task.gains_of_runFirst any ran).name
    · exact (Task.gains_of_run any ran).name
  | addSubtask _ spawned => exact (Task.gains_of_spawn any spawned).name
  | reset emptied => exact (Task.gains_of_reset (fun _ _ => any) emptied).name
  | setVariable set =>
    obtain ⟨env, -, rfl⟩ := Task.setVariable_eq_ok set
    rfl

/-- A change of a task that is not reached from a name leaves what the name is rendered to. -/
theorem render_of_outcome (named : registry.HasOwnNames) {change : Edit}
    (ownVariables : ∀ key text, change ≠ .setSharedVariable key text)
    (elsewhere : ∀ text, change.target = .str text → ¬ ReflTransGen registry.Spawns name text)
    {changed : Registry} {task? : Option Task}
    (made : change.outcome registry = .ok (changed, task?)) :
    registry.render (.str name) base = changed.render (.str name) base := by
  obtain ⟨⟨⟩, -, applied⟩ := bind_eq_ok.mp made
  cases Edit.makes_of_apply applied with
  | @create text command description category condition env task _ created =>
    have any : ∀ {command target label env : Value} (step : Step),
        Step.make command target label env = .ok step → True := fun _ _ => trivial
    obtain ⟨band, settings, -, -, gains⟩ := Task.create_eq_ok (fun _ _ => any) created
    exact (agreeFrom_put (elsewhere text rfl) task).render_eq named (named.put gains.name)
  | @alter _ text task task' about found alters =>
    have own := named _ (mem_of_resolve found)
    exact (agreeFrom_put (elsewhere text about) task').render_eq named
      (named.put ((name_of_alters alters).trans own))
  | setSharedVariable set => exact (ownVariables _ _ rfl).elim
  | @remove text forced unspawned =>
    exact (agreeFrom_without (elsewhere text rfl)).render_eq named
      fun entry member => named entry (List.mem_filter.mp member).1

/-! ### What a rendering depends on -/

/-- Registries that agree from a name render it alike, to the same text or the same error and with
the same log. So a change of a task that is not reached from the name, another order of the tasks,
and other descriptions and bands do not change what is rendered. -/
theorem render_eq_of_reached (registry : Registry) (named : registry.HasOwnNames) (name : String)
    (base : Value) :
    (∀ other : Registry, other.HasOwnNames → AgreeFrom registry other name →
      registry.render (.str name) base = other.render (.str name) base) ∧
    (∀ (change : Edit) (changed : Registry) (task? : Option Task),
      change.outcome registry = .ok (changed, task?) →
      (∀ key text, change ≠ .setSharedVariable key text) →
      (∀ text, change.target = .str text → ¬ ReflTransGen registry.Spawns name text) →
      registry.render (.str name) base = changed.render (.str name) base) ∧
    (∀ tasks : Ordered String Task, registry.names.Nodup → registry.tasks.Perm tasks →
      registry.render (.str name) base =
        { registry with tasks := tasks : Registry }.render (.str name) base) ∧
    ∀ describe : Task → Value × Option Category,
      registry.render (.str name) base =
        { registry with tasks := registry.tasks.map fun entry => (entry.1,
          { entry.2 with description := (describe entry.2).1, category := (describe entry.2).2 }) :
            Registry }.render (.str name) base := by
  refine ⟨fun other otherNamed agree => agree.render_eq named otherNamed,
    fun change changed task? made ownVariables elsewhere =>
      render_of_outcome named ownVariables elsewhere made,
    fun tasks distinct permuted => ?_, fun describe => ?_⟩
  · exact (agreeFrom_perm distinct permuted).render_eq named
      fun entry member => named entry (permuted.symm.subset member)
  · refine (agreeFrom_describe describe).render_eq named fun entry member => ?_
    obtain ⟨before, inRegistry, rfl⟩ := List.mem_map.mp member
    exact named before inRegistry

/-- What is reached from the first task of the sample leaves out its last one. -/
theorem diamond_not_reaches_stray : ¬ ReflTransGen diamond.Spawns "all" "stray" := by
  have stays (next : String) (reaches : ReflTransGen diamond.Spawns "all" next) :
      next ∈ ["all", "check", "test", "install"] := by
    induction reaches with
    | refl => decide
    | tail _ spawns inductionHypothesis =>
      obtain ⟨task, found, step, stepMember, spawned⟩ := spawns
      have member := mem_of_resolve found
      simp only [diamond, List.mem_cons, List.not_mem_nil, or_false] at member
      rcases member with same | same | same | same | same <;> obtain ⟨rfl, rfl⟩ := Prod.mk.inj same <;>
        simp only [List.mem_cons, List.not_mem_nil, or_false] at stepMember
      · rcases stepMember with rfl | rfl <;> cases spawned <;> decide
      · obtain rfl := stepMember
        cases spawned
        decide
      · obtain rfl := stepMember
        cases spawned
        decide
      · obtain rfl := stepMember
        cases spawned
      · exact absurd inductionHypothesis (by decide)
  exact fun reaches => absurd (stays "stray" reaches) (by decide)

/-- The first task of the sample is rendered alike when the last one is removed, and when the
tasks are in the opposite order. -/
theorem diamond_render_eq_of_reached :
    diamond.HasOwnNames ∧
    (Edit.remove (.str "stray") true).outcome diamond =
      .ok (⟨[], diamond.tasks.take 4⟩, none) ∧
    diamond.render (.str "all") .null =
      (⟨[], diamond.tasks.take 4⟩ : Registry).render (.str "all") .null ∧
    diamond.render (.str "all") .null =
      { diamond with tasks := diamond.tasks.reverse : Registry }.render (.str "all") .null := by
  have law := render_eq_of_reached diamond diamond_hasOwnNames "all" .null
  have removed : (Edit.remove (.str "stray") true).outcome diamond =
      .ok (⟨[], diamond.tasks.take 4⟩, none) := by rfl
  refine ⟨diamond_hasOwnNames, removed, ?_, ?_⟩
  · refine law.2.1 _ _ _ removed (fun key text same => by cases same) fun text same => ?_
    obtain rfl : "stray" = text := Value.str.inj same
    exact diamond_not_reaches_stray
  · exact law.2.2.1 _ (by decide) (List.reverse_perm _).symm

end Taskbook.Registry
