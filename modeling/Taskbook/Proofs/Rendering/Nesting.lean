/-
What a step that spawns becomes.

The script of such a step is the command of the spawned task in a subshell. That command is what
the task is rendered to by itself, with the same base, in a registry where the variables of the
steps on the way stand on top of those of every task. So the variables that steps push down are
the only trace that the way leaves: who spawned the task, and the path of names that the renderer
carries, can only make a rendering fail.

A derivation is carried over to the other registry case by case. The layer that is pushed down
moves from the overlay to the tasks, since merging layers in one go and one after the other is the
same; and a path with fewer names on it refuses fewer tasks.
-/

import Taskbook.Proofs.Rendering.Enclosure
import Taskbook.Proofs.Textual

namespace Taskbook

/-! ### Layers pushed down -/

theorem Env.isSharp_entries (env : Env) : ∀ entry ∈ env.entries, Ordered.IsSharp entry.1 := by
  intro entry member
  obtain ⟨⟨name, text⟩, -, rfl⟩ := List.mem_map.mp member
  exact Value.isSharp_str name

theorem Env.nodup_keys_entries {env : Env} (distinct : (Ordered.keys env).Nodup) :
    (Ordered.keys env.entries).Nodup := by
  have names : Ordered.keys env.entries = (Ordered.keys env).map .str := by
    simp [Ordered.keys, Env.entries]
  rw [names]
  exact distinct.map fun _ _ same => Value.str.inj same

/-- Environments merged in one go are their entries merged one after the other, over whatever there
is already. -/
theorem Env.merge_entries_merge (lower : Ordered Value Value) {middle : Env}
    (distinct : (Ordered.keys middle).Nodup) (upper : Env) :
    lower.merge (Env.entries (Ordered.merge middle upper)) =
      (lower.merge middle.entries).merge upper.entries := by
  have both : Env.entries (Ordered.merge middle upper) =
      Ordered.merge middle.entries upper.entries :=
    (Ordered.map_merge Value.str_beq middle upper).symm
  rw [both, Ordered.merge_merge lower middle.isSharp_entries (nodup_keys_entries distinct)
    upper.isSharp_entries]

/-- Environments are merged in any grouping. -/
theorem Env.merge_merge {middle : Env} (lower upper : Env)
    (distinct : (Ordered.keys middle).Nodup) :
    Ordered.merge lower (Ordered.merge middle upper) =
      Ordered.merge (Ordered.merge lower middle) upper :=
  Ordered.merge_merge lower (fun entry _ => Ordered.isSharp_of_lawful entry.1) distinct
    fun entry _ => Ordered.isSharp_of_lawful entry.1

/-- A task with the variables of a layer on top of its own. -/
def Task.under (layer : Env) (task : Task) : Task :=
  { task with env := Ordered.merge task.env layer }

namespace Registry

open Shell

/-- A registry with the variables of a layer on top of those of every task. -/
def under (registry : Registry) (layer : Env) : Registry :=
  { registry with tasks := registry.tasks.map fun entry => (entry.1, entry.2.under layer) }

/-- The environments of all tasks set each of their variables once. -/
def HasDistinctVariables (registry : Registry) : Prop :=
  ∀ entry ∈ registry.tasks, (Ordered.keys entry.2.env).Nodup

/-- The variables that some steps push down, one after the other. -/
def pushed (steps : List Step) : Env :=
  Ordered.mergeAll (steps.map Step.env)

theorem under_nil (registry : Registry) : registry.under [] = registry := by
  simp [under, Task.under, Ordered.merge]

theorem pushed_concat (steps : List Step) (step : Step) :
    pushed (steps ++ [step]) = Ordered.merge (pushed steps) step.env := by
  simp [pushed, Ordered.mergeAll]

/-- Steps without variables push nothing down. -/
theorem pushed_of_forall_nil {steps : List Step} (bare : ∀ step ∈ steps, step.env = []) :
    pushed steps = [] := by
  induction steps using List.reverseRecOn with
  | nil => rfl
  | append_singleton steps step inductionHypothesis =>
    rw [pushed_concat, bare step (by simp),
      inductionHypothesis fun other member => bare other (List.mem_append_left _ member)]
    rfl

theorem nodup_keys_pushed (steps : List Step) : (Ordered.keys (pushed steps)).Nodup :=
  Ordered.nodup_mergeAll _

variable {registry : Registry} {base : Value} {layer overlay : Env} {path : List Value}

/-- A name resolves to the same task, under the variables of the layer. -/
theorem resolve_under {target : Value} {name : String} {task : Task}
    (found : registry.resolve target = .ok (some (name, task))) :
    (registry.under layer).resolve target = .ok (some (name, task.under layer)) := by
  cases target with
  | str text =>
    have looked := Except.ok.inj found
    rw [resolve, under]
    dsimp only
    rw [List.find?_map]
    exact congrArg (fun entry? => Except.ok (Option.map _ entry?)) looked
  | _ =>
    unfold resolve at found
    dsimp only at found
    split at found <;> cases found

/-- The layer may be part of the overlay or of the variables of the task. -/
theorem frame_under {task : Task} (taskDistinct : (Ordered.keys task.env).Nodup)
    (layerDistinct : (Ordered.keys layer).Nodup) (fragments : List Script) :
    (registry.under layer).frame base overlay (task.under layer) fragments =
      registry.frame base (Ordered.merge layer overlay) task fragments := by
  have same (lowest : Ordered Value Value) :
      Ordered.mergeAll (lowest :: [registry.env, Ordered.merge task.env layer, overlay].map
          Env.entries) =
        Ordered.mergeAll (lowest :: [registry.env, task.env, Ordered.merge layer overlay].map
          Env.entries) := by
    simp only [Ordered.mergeAll, List.map_cons, List.map_nil, List.foldl_cons, List.foldl_nil,
      Env.merge_entries_merge _ taskDistinct, Env.merge_entries_merge _ layerDistinct]
  have bound : bindings base [registry.env, Ordered.merge task.env layer, overlay] =
      bindings base [registry.env, task.env, Ordered.merge layer overlay] := by
    simp only [bindings, same]
  rw [frame, frame]
  exact congrArg (fun bound => gated task.condition _ >>= fun body => bound >>= fun exported =>
    Except.ok (Command.subshell (.exports exported body))) bound

/-! ### Derivations carried over -/

/-- A derivation is one of the registry under a layer as well, without the layer at the bottom of
the overlay. The path may lose names. -/
theorem Unfolds.under (distinct : registry.HasDistinctVariables)
    (layerDistinct : (Ordered.keys layer).Nodup) {full : Env} {steps : List Step}
    {fragments : List Script} (unfolds : Unfolds registry base full path steps fragments)
    {shorter : List Value} (fewer : ∀ name, isOnPath name shorter = true →
      isOnPath name path = true) (overlayDistinct : (Ordered.keys overlay).Nodup)
    (split : full = Ordered.merge layer overlay) :
    Unfolds (registry.under layer) base overlay shorter steps fragments := by
  induction unfolds generalizing overlay shorter with
  | done => exact .done
  | run labelled runs worded _ inductionHypothesis =>
    exact .run labelled runs worded (inductionHypothesis fewer overlayDistinct split)
  | @spawn full path step rest label fragments others target name task command labelled spawns
      found fresh inside framed further insideHypothesis furtherHypothesis =>
    have above : Ordered.merge full step.env =
        Ordered.merge layer (Ordered.merge overlay step.env) := by
      rw [split, Env.merge_merge _ _ overlayDistinct]
    have fewerInside (other : String) (onPath : isOnPath other (shorter ++ [.str name]) = true) :
        isOnPath other (path ++ [.str name]) = true := by
      rw [isOnPath_append, Bool.or_eq_true] at onPath ⊢
      exact onPath.imp_left (fewer other)
    have stillFresh : isOnPath name shorter = false := by
      rw [← Bool.not_eq_true] at fresh ⊢
      exact fun onPath => fresh (fewer name onPath)
    refine .spawn labelled spawns (resolve_under found) stillFresh
      (insideHypothesis fewerInside (Ordered.nodup_merge overlayDistinct step.env) above) ?_
      (furtherHypothesis fewer overlayDistinct split)
    rw [frame_under (distinct _ (mem_of_resolve found)) layerDistinct, ← above]
    exact framed

/-! ### The command of a spawned task -/

/-- The command at a place of a command: at each subshell, the number of the one to go into. -/
def commandAt? : Command → List Nat → Option Command
  | command, [] => some command
  | .subshell (.exports _ body), position :: rest =>
    match body.commands[position]? with
    | some inner => commandAt? inner rest
    | none => none
  | _, _ :: _ => none

/-- The place of the command of the task at the end of some legs, in the command of the task that
they start from. -/
def nestedPlace : Task → List Leg → List Nat
  | _, [] => []
  | task, leg :: legs => place task leg.index ++ 0 :: 0 :: nestedPlace leg.task legs

theorem commandAt?_subshell {bindings : List (String × String)} {body : Row} {position : Nat}
    {inner : Command} (there : body.commands[position]? = some inner) (rest : List Nat) :
    commandAt? (.subshell (.exports bindings body)) (position :: rest) =
      commandAt? inner rest := by
  rw [commandAt?, there]

theorem commandAt?_inSubshell (command : Command) (rest : List Nat) :
    commandAt? command.inSubshell (0 :: rest) = commandAt? command rest :=
  commandAt?_subshell rfl rest

/-- The scripts of a task are chained in its command, behind its condition if it has one. -/
theorem commandAt?_fragment {task : Task} {fragments : List Script} {command : Command}
    (framed : registry.frame base overlay task fragments = .ok command) {position : Nat}
    {fragment : Script} (there : fragments[position]? = some fragment) (rest : List Nat) :
    commandAt? command ((if task.condition.isTruthy then [1] else []) ++ position :: rest) =
      commandAt? (.subshell fragment) rest := by
  obtain ⟨body, gate, framed⟩ := bind_eq_ok.mp framed
  obtain ⟨exported, -, same⟩ := bind_eq_ok.mp framed
  obtain rfl := Except.ok.inj same
  have inChain : (Row.chain (fragments.map .subshell)).commands[position]? =
      some (.subshell fragment) :=
    Row.commands_chain_getElem? (by rw [List.getElem?_map, there, Option.map_some])
  rcases gated_eq_ok gate with ⟨given, text, -, rfl⟩ | ⟨missing, rfl⟩
  · rw [if_pos given, List.singleton_append, commandAt?_subshell (Row.commands_gate _ _),
      commandAt?_subshell inChain]
  · rw [missing, if_neg Bool.false_ne_true, List.nil_append, commandAt?_subshell inChain]

/-- The script of a step has its place in the command of its task. -/
theorem commandAt?_place {task : Task} {fragments : List Script} {command : Command}
    (framed : registry.frame base overlay task fragments = .ok command) {index : Nat}
    {fragment : Script} (there : fragments[position task.steps index]? = some fragment)
    (rest : List Nat) :
    commandAt? command (place task index ++ rest) = commandAt? (.subshell fragment) rest := by
  rw [place, List.append_assoc, List.singleton_append]
  exact commandAt?_fragment framed there rest

/-- Where some legs lead to a task, its command has its place, under all that the legs push
down. -/
theorem exists_commandAt?_of_descent {task last : Task} {legs : List Leg}
    (descent : Descent registry task legs last) {fragments : List Script} {command : Command}
    (unfolds : Unfolds registry base overlay path task.steps fragments)
    (framed : registry.frame base overlay task fragments = .ok command) :
    ∃ below inner, ∃ nested : Command,
      Unfolds registry base (((legs.map Leg.step).map Step.env).foldl Ordered.merge overlay) below
        last.steps inner ∧
      registry.frame base (((legs.map Leg.step).map Step.env).foldl Ordered.merge overlay) last
        inner = .ok nested ∧
      ∀ rest, commandAt? command (nestedPlace task legs ++ rest) = commandAt? nested rest := by
  induction descent generalizing overlay path fragments command with
  | here => exact ⟨_, _, _, unfolds, framed, fun rest => rfl⟩
  | @down task last leg legs target name there spawns found further inductionHypothesis =>
    obtain ⟨fragment, located, stepUnfolds⟩ := unfolds.getElem? there
    cases stepUnfolds with
    | run runs worded =>
      rw [spawns] at runs
      cases runs
    | @spawn other key spawned inner below spawnsHere foundHere fresh inside framedBelow =>
      rw [spawns] at spawnsHere
      obtain rfl := Action.spawn.inj spawnsHere
      rw [found] at foundHere
      obtain ⟨rfl, rfl⟩ := Prod.mk.inj (Option.some.inj (Except.ok.inj foundHere))
      obtain ⟨further, innermost, nested, nestedUnfolds, nestedFramed, nestedAt⟩ :=
        inductionHypothesis inside framedBelow
      refine ⟨further, innermost, nested, nestedUnfolds, nestedFramed, fun rest => ?_⟩
      have grouped : Command.subshell below.inSubshell.alone = below.inSubshell.inSubshell := rfl
      rw [nestedPlace, List.append_assoc, commandAt?_place framed located, grouped,
        List.cons_append, List.cons_append, commandAt?_inSubshell, commandAt?_inSubshell, nestedAt]

/-- Where a step at the end of some legs spawns a task, the script of the step has its place, and
the command in it is that of the task under all that the legs and the step push down. -/
theorem commandAt?_nestedPlace {task last : Task} {legs : List Leg}
    (descent : Descent registry task legs last) {index : Nat} {step : Step}
    (there : last.steps[index]? = some step) {target : Value}
    (spawns : step.action = .spawn target) {fragments : List Script} {command : Command}
    (unfolds : Unfolds registry base overlay path task.steps fragments)
    (framed : registry.frame base overlay task fragments = .ok command) :
    ∃ name spawned inner innerPath below,
      commandAt? command (nestedPlace task legs ++ (place last index ++ [0])) =
        some below.inSubshell ∧
      registry.resolve target = .ok (some (name, spawned)) ∧
      Unfolds registry base
        (((legs.map Leg.step ++ [step]).map Step.env).foldl Ordered.merge overlay)
        (innerPath ++ [.str name]) spawned.steps inner ∧
      registry.frame base
        (((legs.map Leg.step ++ [step]).map Step.env).foldl Ordered.merge overlay)
        spawned inner = .ok below := by
  obtain ⟨further, scripts, nested, nestedUnfolds, nestedFramed, nestedAt⟩ :=
    exists_commandAt?_of_descent descent unfolds framed
  obtain ⟨fragment, located, stepUnfolds⟩ := nestedUnfolds.getElem? there
  rw [List.map_append, List.foldl_append]
  cases stepUnfolds with
  | run runs worded =>
    rw [spawns] at runs
    cases runs
  | @spawn other name spawned inner below spawnsHere found fresh inside framedBelow =>
    rw [spawns] at spawnsHere
    obtain rfl := Action.spawn.inj spawnsHere
    refine ⟨name, spawned, inner, further, below, ?_, found, inside, framedBelow⟩
    rw [nestedAt, commandAt?_place nestedFramed located]
    exact commandAt?_inSubshell below.inSubshell []

/-- In a rendering that succeeds, a step that spawns a task, be it in the task that is rendered or
in one that legs lead to, has the command of the spawned task in a subshell as its script. That
command is what the spawned task is rendered to by itself over the same base, with what the legs
and the step push down on top of the variables of every task. Where they push nothing down, it is
what the task is rendered to in the registry as it is. -/
theorem nested_eq_render (registry : Registry) (named : registry.HasOwnNames)
    (distinct : registry.HasDistinctVariables) {base name : Value} {text : String}
    (rendered : (registry.render name base).result = .ok text) {key : String} {task : Task}
    (found : registry.resolve name = .ok (some (key, task))) {legs : List Leg} {last : Task}
    (descent : Descent registry task legs last) {index : Nat} {step : Step}
    (there : last.steps[index]? = some step) {target : Value}
    (spawns : step.action = .spawn target) :
    ∃ command fragment inner,
      (registry.taskCommand base task).result = .ok command ∧ command.print = text ∧
      commandAt? command (nestedPlace task legs ++ (place last index ++ [0])) = some fragment ∧
      fragment.print = grouped inner ∧
      ((registry.under (pushed (legs.map Leg.step ++ [step]))).render target base).result =
        .ok inner ∧
      ((∀ pushing ∈ legs.map Leg.step ++ [step], pushing.env = []) →
        (registry.render target base).result = .ok inner) := by
  rw [render_of_resolve found] at rendered
  obtain ⟨command, commanded, printed⟩ := map_eq_ok.mp rendered
  obtain ⟨fragments, unfolds, framed⟩ := taskCommand_eq_ok commanded
  obtain ⟨nested, spawned, inner, innerPath, below, located, resolved, inside, framedBelow⟩ :=
    commandAt?_nestedPlace descent there spawns unfolds framed
  have alone : ((registry.under (pushed (legs.map Leg.step ++ [step]))).render target base).result =
      .ok below.print := by
    have own : spawned.name = .str nested := named _ (mem_of_resolve resolved)
    have spawnedDistinct : (Ordered.keys spawned.env).Nodup := distinct _ (mem_of_resolve resolved)
    have layerDistinct := nodup_keys_pushed (legs.map Leg.step ++ [step])
    have carried : Unfolds (registry.under (pushed (legs.map Leg.step ++ [step]))) base []
        [spawned.name] spawned.steps inner :=
      inside.under distinct layerDistinct (by simp [isOnPath, own]) List.nodup_nil rfl
    have framedAlone : (registry.under (pushed (legs.map Leg.step ++ [step]))).frame base []
        (spawned.under (pushed (legs.map Leg.step ++ [step]))) inner = .ok below :=
      (frame_under spawnedDistinct layerDistinct inner).trans framedBelow
    have commandedAlone : ((registry.under (pushed (legs.map Leg.step ++ [step]))).taskCommand base
        (spawned.under (pushed (legs.map Leg.step ++ [step])))).result = .ok below :=
      taskCommand_of_unfolds carried framedAlone
    rw [render_of_resolve (resolve_under resolved), commandedAlone]
    rfl
  refine ⟨command, below.inSubshell, below.print, commanded, printed, located, rfl, alone,
    fun bare => ?_⟩
  rwa [pushed_of_forall_nil bare, under_nil] at alone

/-- The middle task of the sample spawns the last one with variables of its own, after the first
one has pushed down some. -/
theorem nested_nested_eq_render :
    (nested.HasOwnNames ∧ nested.HasDistinctVariables ∧
      (nested.render (.str "outer") (Env.toValue [("F", "base")])).result = .ok nestedText ∧
      nested.resolve (.str "outer") = .ok (some ("outer", nestedOuter)) ∧
      Descent nested nestedOuter (nestedLegs.take 1) nestedMiddle ∧
      nestedMiddle.steps[0]? = some ⟨.spawn (.str "inner"), .null, [("C", "second")]⟩) ∧
    ∃ command fragment inner,
      (nested.taskCommand (Env.toValue [("F", "base")]) nestedOuter).result = .ok command ∧
      command.print = nestedText ∧
      commandAt? command (nestedPlace nestedOuter (nestedLegs.take 1) ++
        (place nestedMiddle 0 ++ [0])) = some fragment ∧
      fragment.print = grouped inner ∧
      ((nested.under (pushed (nestedLegs.map Leg.step))).render (.str "inner")
        (Env.toValue [("F", "base")])).result = .ok inner ∧
      ((∀ pushing ∈ nestedLegs.map Leg.step, pushing.env = []) →
        (nested.render (.str "inner") (Env.toValue [("F", "base")])).result = .ok inner) := by
  have named : nested.HasOwnNames := by
    simp [HasOwnNames, nested, nestedOuter, nestedMiddle, nestedInner]
  have distinct : nested.HasDistinctVariables := by
    simp [HasDistinctVariables, nested, nestedOuter, nestedMiddle, nestedInner, Ordered.keys]
  have descent : Descent nested nestedOuter (nestedLegs.take 1) nestedMiddle :=
    .down rfl rfl rfl .here
  exact ⟨⟨named, distinct, nested_render, rfl, descent, rfl⟩,
    nested_eq_render nested named distinct nested_render rfl descent rfl rfl⟩

end Registry

end Taskbook
