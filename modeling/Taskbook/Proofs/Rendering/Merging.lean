/-
What layers of variables are merged to.

A layer is a mapping, or null where no variables are given. Merged layers have each variable once.
Where it stands and what it is set to go by opposite rules: the order is that of the first layers
which have the variables, and the texts are those of the last ones. Still layers can be merged in
any grouping, so that a run of them may be merged beforehand.

That is what the renderer does with the steps that spawn. It merges their variables one by one on
the way down, and what they come to is one layer for each task that it gets to. The subshell of
such a task sets what all these layers, taken by themselves, are merged to.
-/

import Taskbook.Proofs.Rendering.Nesting

namespace Taskbook

namespace Env

/-- What is given as a layer for an environment: null for the empty one, or a mapping that has each
of its variables once. -/
inductive IsLayer : Value → Env → Prop
  | missing : IsLayer .null []
  | mapping (anchor : Option Nat) {env : Env} (distinct : (Ordered.keys env).Nodup) :
      IsLayer (.map anchor env.entries) env

variable {value : Value} {env : Env} {values lower upper : List Value} {layers : List Env}

theorem IsLayer.layer (isLayer : IsLayer value env) : value.layer = .ok env.entries := by
  cases isLayer with
  | missing => rfl
  | mapping anchor distinct =>
    cases env with
    | nil => rfl
    | cons first rest => rfl

theorem IsLayer.distinct (isLayer : IsLayer value env) : (Ordered.keys env).Nodup := by
  cases isLayer with
  | missing => exact List.nodup_nil
  | mapping anchor distinct => exact distinct

/-- Layers are merged to a mapping of what their environments are merged to. -/
theorem mergeLayers_eq_ok (given : List.Forall₂ IsLayer values layers) :
    mergeLayers values = .ok (entries (Ordered.mergeAll layers)) := by
  have read : values.mapM Value.layer = .ok (layers.map entries) := by
    induction given with
    | nil => rfl
    | cons first rest inductionHypothesis =>
      rw [List.mapM_cons, first.layer, ok_bind, inductionHypothesis]
      rfl
  rw [mergeLayers, read, ok_bind, entries_mergeAll]
  rfl

theorem layerAssignments_eq_ok (given : List.Forall₂ IsLayer values layers) :
    layerAssignments values =
      .ok ((Ordered.mergeAll layers).map fun (name, text) => assignment name text) := by
  rw [layerAssignments, mergeLayers_eq_ok given, ok_bind, entryTexts_entries]
  rfl

theorem isMergedFrom_of_layers (given : List.Forall₂ IsLayer values layers) :
    Ordered.IsMergedFrom (Ordered.mergeAll layers) layers := by
  refine Ordered.isMergedFrom_mergeAll ?_
  induction given with
  | nil => exact fun layer member => (List.not_mem_nil member).elim
  | cons first rest inductionHypothesis =>
    exact List.forall_mem_cons.mpr ⟨first.distinct, inductionHypothesis⟩

theorem exists_layers_of_append (given : List.Forall₂ IsLayer (lower ++ upper) layers) :
    ∃ below above, layers = below ++ above ∧ List.Forall₂ IsLayer lower below ∧
      List.Forall₂ IsLayer upper above := by
  induction lower generalizing layers with
  | nil => exact ⟨[], layers, rfl, .nil, given⟩
  | cons first rest inductionHypothesis =>
    cases given with
    | cons isLayer others =>
      obtain ⟨below, above, rfl, restGiven, upperGiven⟩ := inductionHypothesis others
      exact ⟨_ :: below, above, rfl, .cons isLayer restGiven, upperGiven⟩

/-- What some layers are merged to is one layer, and it may take their place among others. -/
theorem mergeLayers_run {before run after : List Value}
    (given : List.Forall₂ IsLayer (before ++ run ++ after) layers) :
    ∃ merged, mergeLayers run = .ok (entries merged) ∧
      mergeLayers (before ++ merged.toValue :: after) = mergeLayers (before ++ run ++ after) := by
  obtain ⟨front, above, rfl, frontGiven, aboveGiven⟩ := exists_layers_of_append given
  obtain ⟨below, middle, rfl, belowGiven, middleGiven⟩ := exists_layers_of_append frontGiven
  have isLayer : IsLayer (toValue (Ordered.mergeAll middle)) (Ordered.mergeAll middle) :=
    .mapping none (Ordered.nodup_mergeAll middle)
  have instead : List.Forall₂ IsLayer (before ++ toValue (Ordered.mergeAll middle) :: after)
      (below ++ Ordered.mergeAll middle :: above) :=
    List.rel_append belowGiven (.cons isLayer aboveGiven)
  refine ⟨_, mergeLayers_eq_ok middleGiven, ?_⟩
  rw [mergeLayers_eq_ok instead, mergeLayers_eq_ok given, Ordered.mergeAll_append_mergeAll_cons]

end Env

namespace Registry

open Shell

variable {registry : Registry} {base : Value} {lowest : Env} {root last : Task} {legs : List Leg}
  {command : Command}

/-- The subshell of a task that legs lead to sets what all layers on the way are merged to. -/
theorem exists_subshell_of_descent (layered : Env.IsLayer base lowest)
    (commanded : (registry.taskCommand base root).result = .ok command)
    (descent : Descent registry root legs last) :
    ∃ body, commandAt? command (nestedPlace root legs) = some (.subshell (.exports
      (Ordered.mergeAll ([lowest, registry.env, last.env] ++
        legs.map fun leg => leg.step.env)) body)) := by
  obtain ⟨fragments, unfolds, framed⟩ := taskCommand_eq_ok commanded
  obtain ⟨below, inner, nested, -, nestedFramed, nestedAt⟩ :=
    exists_commandAt?_of_descent descent unfolds framed
  obtain ⟨body, gate, nestedFramed⟩ := bind_eq_ok.mp nestedFramed
  obtain ⟨exported, bound, same⟩ := bind_eq_ok.mp nestedFramed
  obtain rfl := Except.ok.inj same
  rw [bindings_eq_mergeAll layered.layer] at bound
  obtain rfl := Except.ok.inj bound
  refine ⟨body, ?_⟩
  -- The layers of the steps have been merged on the way down.
  have grouped := Ordered.mergeAll_append_mergeAll_cons [lowest, registry.env, last.env]
    ((legs.map Leg.step).map Step.env) []
  rw [List.append_nil, List.map_map] at grouped
  have there := nestedAt []
  rw [List.append_nil, commandAt?] at there
  rw [there, ← Function.comp_def Step.env Leg.step, ← grouped, ← List.map_map]
  rfl

end Registry

/-- Layers are merged to a dictionary that has each of their variables once, in the order in which
they come first, and with the text of the last layer that has it. What some layers that follow each
other are merged to may take their place. So the renderer, which merges the variables of the steps
one spawned task after the other, has each subshell set what all layers are merged to at once. The
assignments of merged layers set each variable once, those of the lower layers first. -/
theorem layers_merge {values : List Value} {layers : List Env}
    (given : List.Forall₂ Env.IsLayer values layers) :
    ∃ merged : Env, mergeLayers values = .ok merged.entries ∧
      Ordered.IsMergedFrom merged layers ∧
      (∀ before run after, values = before ++ run ++ after →
        ∃ inner : Env, mergeLayers run = .ok inner.entries ∧
          mergeLayers (before ++ inner.toValue :: after) = .ok merged.entries) ∧
      (∀ (registry : Registry) (base : Value) (lowest : Env) (root last : Task)
        (legs : List Registry.Leg) (command : Shell.Command), Env.IsLayer base lowest →
        (registry.taskCommand base root).result = .ok command →
        Registry.Descent registry root legs last →
        layers = [lowest, registry.env, last.env] ++ legs.map (fun leg => leg.step.env) →
        ∃ body, Registry.commandAt? command (Registry.nestedPlace root legs) =
          some (.subshell (.exports merged body))) ∧
      layerAssignments values = .ok (merged.map fun (name, text) => assignment name text) ∧
      ∀ lower upper, layers = lower ++ upper →
        (lower.flatMap Ordered.keys).eraseDups <+: Ordered.keys merged := by
  have isMerged := Env.isMergedFrom_of_layers given
  refine ⟨_, Env.mergeLayers_eq_ok given, isMerged, ?_, ?_, Env.layerAssignments_eq_ok given, ?_⟩
  · rintro before run after rfl
    obtain ⟨inner, made, instead⟩ := Env.mergeLayers_run given
    exact ⟨inner, made, instead.trans (Env.mergeLayers_eq_ok given)⟩
  · rintro registry base lowest root last legs command layered commanded descent rfl
    exact Registry.exists_subshell_of_descent layered commanded descent
  · rintro lower upper rfl
    exact isMerged.isPrefix

namespace Registry

/-- The layers of the last task of a sample, one for each step on the way among them. -/
def nestedLayers : List Env :=
  [[("F", "base")], nested.env, nestedInner.env] ++ nestedLegs.map fun leg => leg.step.env

/-- They are merged at once to what the subshell of the task sets, although the renderer merges
those of the steps beforehand. -/
theorem nestedLayers_merge :
    List.Forall₂ Env.IsLayer (nestedLayers.map Env.toValue) nestedLayers ∧
      ∃ merged : Env, mergeLayers (nestedLayers.map Env.toValue) = .ok merged.entries ∧
        Ordered.IsMergedFrom merged nestedLayers ∧
        (∃ inner : Env,
          mergeLayers (nestedLegs.map fun leg => leg.step.env.toValue) = .ok inner.entries ∧
          mergeLayers ([[("F", "base")], nested.env, nestedInner.env].map Env.toValue ++
            [inner.toValue]) = .ok merged.entries) ∧
        (∃ command body,
          (nested.taskCommand (Env.toValue [("F", "base")]) nestedOuter).result = .ok command ∧
          commandAt? command (nestedPlace nestedOuter nestedLegs) =
            some (.subshell (.exports merged body))) ∧
        layerAssignments (nestedLayers.map Env.toValue) =
          .ok ["export F=\"base\";", "export A=\"shared\";", "export C=\"second\";",
            "export D=\"first\";"] := by
  have given : List.Forall₂ Env.IsLayer (nestedLayers.map Env.toValue) nestedLayers :=
    .cons (.mapping none (by decide)) (.cons (.mapping none (by decide))
      (.cons (.mapping none (by decide)) (.cons (.mapping none (by decide))
        (.cons (.mapping none (by decide)) .nil))))
  have outer : nested.resolve (.str "outer") = .ok (some ("outer", nestedOuter)) := rfl
  obtain ⟨command, commanded, -⟩ :=
    map_eq_ok.mp ((render_of_resolve outer).symm.trans nested_render)
  obtain ⟨merged, made, isMerged, runs, spawned, -, -⟩ := layers_merge given
  obtain ⟨body, there⟩ := spawned nested _ _ _ _ nestedLegs command
    (.mapping none (by decide)) commanded nested_descent rfl
  refine ⟨given, merged, made, isMerged, runs _ _ [] rfl, ⟨command, body, commanded, there⟩, ?_⟩
  rw [Env.layerAssignments_eq_ok given]
  rfl

end Registry

end Taskbook
