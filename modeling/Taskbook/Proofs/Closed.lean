/-
Registries without references that lead nowhere.

A registry is closed if every step that spawns something spawns another task of the registry. A
step is only added where the task to spawn is there and is not the task itself, and without force
a task is only removed if no other spawns it; resetting a task only takes references away, and a
new task has none. So changes without force keep a registry closed.

In a closed registry all references resolve. A rendering is refused for a cycle only, and all that
a task spawns is there.
-/

import Taskbook.Proofs.Project.Editing
import Taskbook.Proofs.Rendering.References

namespace Taskbook

/-- A change that does not remove a task by force. -/
def Edit.IsUnforced : Edit → Prop
  | remove _ forced => forced = false
  | _ => True

namespace Registry

/-- A step that spawns nothing, or another task of the registry than the one it belongs to. -/
def Links (registry : Registry) (owner : String) (step : Step) : Prop :=
  ∀ target, step.target? = some target →
    ∃ name ∈ registry.names, target = .str name ∧ name ≠ owner

/-- A registry in which all references lead to other tasks. -/
def IsClosed (registry : Registry) : Prop :=
  ∀ entry ∈ registry.tasks, ∀ step ∈ entry.2.steps, registry.Links entry.1 step

variable {registry changed : Registry} {owner : String} {step : Step}

theorem links_of_running {command label env : Value}
    (made : Step.make command .null label env = .ok step) : registry.Links owner step := by
  intro target spawned
  rw [Step.target?_of_running made] at spawned
  cases spawned

theorem Links.mono (links : registry.Links owner step) (more : registry.names ⊆ changed.names) :
    changed.Links owner step := by
  intro target spawned
  obtain ⟨name, known, same, other⟩ := links target spawned
  exact ⟨name, more known, same, other⟩

theorem isClosed_blank : blank.IsClosed :=
  fun _ member => (List.not_mem_nil member).elim

/-! ### Changes -/

theorem names_subset_put (registry : Registry) (name : String) (task : Task) :
    registry.names ⊆ (registry.put name task).names :=
  fun _ member => Ordered.mem_keys_put.mpr (Or.inl member)

theorem IsClosed.put (closed : registry.IsClosed) {name : String} {task : Task}
    (links : ∀ step ∈ task.steps, (registry.put name task).Links name step) :
    (registry.put name task).IsClosed := by
  rintro ⟨key, other⟩ member step inside
  rcases Ordered.mem_put member with before | ⟨rfl, rfl | same⟩
  · exact (closed _ before step inside).mono (registry.names_subset_put name task)
  · exact links step inside
  · obtain rfl := eq_of_beq same
    exact links step inside

/-- Without force a task is not removed if a step of another spawns it. -/
theorem not_spawned_of_checkUnspawned {text : String}
    (checked : Edit.checkUnspawned registry text = .ok ()) {entry : String × Task}
    (member : entry ∈ registry.tasks) (other : entry.1 ≠ text) (inside : step ∈ entry.2.steps) :
    step.target? ≠ some (.str text) := by
  intro spawned
  have isReferrer : entry.1 ∈ (registry.referrers (.str text)).filter (· ≠ text) := by
    refine List.mem_filter.mpr ⟨List.mem_map_of_mem (List.mem_filter.mpr ⟨member, ?_⟩),
      decide_eq_true other⟩
    refine List.any_eq_true.mpr ⟨step, inside, ?_⟩
    rw [spawned, Option.getD_some]
    exact (Value.str_beq text text).trans (beq_self_eq_true text)
  unfold Edit.checkUnspawned at checked
  split at checked
  · rename_i none
    rw [none] at isReferrer
    cases isReferrer
  · cases checked

theorem IsClosed.without (closed : registry.IsClosed) {text : String}
    (checked : Edit.checkUnspawned registry text = .ok ()) :
    IsClosed { registry with tasks := registry.tasks.filter fun entry => entry.1 ≠ text } := by
  intro entry member step inside target spawned
  obtain ⟨before, stays⟩ := List.mem_filter.mp member
  have stays : entry.1 ≠ text := by simpa using stays
  obtain ⟨name, known, rfl, other⟩ := closed entry before step inside target spawned
  have differ : name ≠ text := by
    rintro rfl
    exact not_spawned_of_checkUnspawned checked before stays inside spawned
  obtain ⟨counterpart, there, rfl⟩ := List.mem_map.mp known
  exact ⟨_, List.mem_map_of_mem (List.mem_filter.mpr ⟨there, decide_eq_true differ⟩), rfl, other⟩

/-- A step that is added to spawn a task links to another one, since no task may spawn itself. -/
theorem links_of_spawning {name target label env : Value} {subtask : String × Task}
    (checked : (Edit.addSubtask name target label env).check = .ok ()) (about : name = .str owner)
    (found : registry.find target = .ok subtask)
    (made : Step.make .null (.str subtask.1) label env = .ok step) :
    registry.Links owner step := by
  intro other spawned
  obtain ⟨-, same, -⟩ := Step.make_eq_ok.mp made
  rw [spawned, Option.getD_some] at same
  obtain ⟨key, task⟩ := subtask
  have resolved := find_eq_ok.mp found
  obtain rfl := eq_str_of_resolve resolved
  refine ⟨key, mem_names_of_resolve resolved, same, ?_⟩
  rintro rfl
  have itself : Value.same (.str key) (.str key) = true :=
    (Value.str_beq key key).trans (beq_self_eq_true key)
  rw [about, Edit.check, if_pos itself] at checked
  cases checked

/-- The steps that a change of one task adds link to other tasks. -/
theorem links_of_alters {change : Edit} {task task' : Task} (checked : change.check = .ok ())
    (about : change.target = .str owner) (alters : change.Alters registry task task') :
    ∀ step ∈ task'.steps, step ∈ task.steps ∨ registry.Links owner step := by
  cases alters with
  | addCommand ran =>
    split at ran
    · exact (Task.gains_of_runFirst (fun step => links_of_running) ran).steps
    · exact (Task.gains_of_run (fun step => links_of_running) ran).steps
  | addSubtask found spawned =>
    exact (Task.gains_of_spawn (fun step => links_of_spawning checked about found) spawned).steps
  | reset emptied => exact (Task.gains_of_reset (fun _ _ step => links_of_running) emptied).steps
  | setVariable set =>
    obtain ⟨env, -, rfl⟩ := Task.setVariable_eq_ok set
    exact fun step inside => Or.inl inside

/-- A change without force keeps a registry closed. -/
theorem IsClosed.outcome (closed : registry.IsClosed) {change : Edit} (unforced : change.IsUnforced)
    {task? : Option Task} (made : change.outcome registry = .ok (changed, task?)) :
    changed.IsClosed := by
  obtain ⟨⟨⟩, checked, applied⟩ := bind_eq_ok.mp made
  cases Edit.makes_of_apply applied with
  | create named created =>
    obtain ⟨band, settings, -, -, gains⟩ :=
      Task.create_eq_ok (fun _ _ step => links_of_running) created
    refine closed.put fun step inside => ?_
    rcases gains.steps step inside with before | links
    · cases before
    · exact links
  | @alter _ text task task' about found alters =>
    refine closed.put fun step inside => Links.mono ?_ (registry.names_subset_put text task')
    rcases links_of_alters checked about alters step inside with before | links
    · exact closed _ (mem_of_resolve found) step before
    · exact links
  | setSharedVariable set =>
    obtain ⟨env, -, same⟩ := bind_eq_ok.mp set
    obtain rfl := Except.ok.inj same
    exact closed
  | remove unspawned => exact closed.without (unspawned unforced)

/-- After any changes without force a registry is closed. -/
theorem isClosed_after {changes : List Edit} (unforced : ∀ change ∈ changes, change.IsUnforced) :
    (after changes).IsClosed := by
  induction changes using List.reverseRecOn with
  | nil => exact isClosed_blank
  | append_singleton changes change inductionHypothesis =>
    have closed := inductionHypothesis fun other member =>
      unforced other (List.mem_append_left _ member)
    have changeUnforced := unforced change (List.mem_append_right _ List.mem_cons_self)
    rw [after_concat]
    cases outcome : change.outcome (after changes) with
    | error error => rwa [edited_of_error outcome]
    | ok result =>
      rw [edited_of_ok outcome]
      exact closed.outcome changeUnforced outcome

/-! ### What a closed registry resolves -/

theorem IsClosed.referencesResolve (closed : registry.IsClosed) (name : String) :
    registry.ReferencesResolve name := by
  intro other next _ spawns
  obtain ⟨task, found, step, inside, action⟩ := spawns
  have targeted : step.target? = some (.str next) := by rw [Step.target?, action]
  obtain ⟨key, known, same, -⟩ := closed _ (mem_of_resolve found) step inside _ targeted
  rwa [Value.str.inj same]

/-- A task of a closed registry of texts is rendered, or refused for a cycle. -/
theorem IsClosed.render_cases (closed : registry.IsClosed) (sound : registry.IsSound)
    {base : Value} (layer : base.IsWritableLayer) {name : String}
    (known : name ∈ registry.names) :
    (∃ text, (registry.render (.str name) base).result = .ok text) ∨
      ∃ error message, (registry.render (.str name) base).result = .error error ∧
        error.notice = .ok ⟨.cycle, message⟩ := by
  have textual : registry.HasTextualSteps := fun entry member step inside =>
    ((sound.tasks entry member).steps step inside).textual
  have named : registry.HasOwnNames := fun entry member => (sound.named entry member).2
  have conditions : registry.ConditionsWritable name := fun other task _ resolved =>
    (sound.tasks _ (mem_of_resolve resolved)).condition.isWritable
  obtain ⟨task, found⟩ := resolve_of_mem_names known
  rw [render_of_resolve found]
  rcases taskCommand_cases named textual conditions layer found with
    ⟨command, commanded⟩ | ⟨error, commanded, refusal⟩
  · rw [commanded]
    exact Or.inl ⟨command.print, rfl⟩
  · rw [commanded]
    obtain ⟨message, ⟨-, dangling⟩ | ⟨noticed, -⟩⟩ := refusal.notice
    · exact absurd (closed.referencesResolve name) dangling
    · exact Or.inr ⟨error, message, rfl, noticed⟩

/-- Everything that a task of a closed registry spawns is there. -/
theorem IsClosed.spawned_eq (closed : registry.IsClosed) {entry : String × Task}
    (member : entry ∈ registry.tasks) :
    Project.spawned registry entry.2.steps =
      .ok ((entry.2.steps.filterMap Step.target?).map fun target =>
        ⟨target, .str View.present⟩) := by
  rw [Project.spawned, ← List.map_id (entry.2.steps.filterMap Step.target?)]
  refine (mapM_map_eq_ok fun target among => ?_).trans (by rw [List.map_id])
  obtain ⟨step, inside, targeted⟩ := List.mem_filterMap.mp among
  obtain ⟨name, known, rfl, -⟩ := closed entry member step inside target targeted
  obtain ⟨task, found⟩ := resolve_of_mem_names known
  rw [id, contains, found]
  rfl

end Registry

end Taskbook
