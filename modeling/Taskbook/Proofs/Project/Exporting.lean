/-
Which variables a rendering of a project sets.

Names of variables come from the configuration and from the manifest: from the registry, its tasks
and their steps. What cannot name a variable is left out with a warning in the one file, and refused
in the other. So wherever the variables of a rendering come from, their environments are valid.

A rendering merges such environments for the subshell of a task, and takes that of a step as it is.
Merging adds no names, and keeps each once. Hence what any subshell of a rendering sets is a valid
environment again: no variable is set twice in a row, and no name is anything but a name.
-/

import Taskbook.Proofs.Manifest.Loading
import Taskbook.Proofs.Operation
import Taskbook.Proofs.Project.Editing
import Taskbook.Proofs.Rendering.Contents

namespace Taskbook

/-! ### Variables of the configuration -/

namespace Config

/-- An entry that is not left out sets a variable that can be set. -/
theorem isValid_addVariable {env changed : Env} (valid : env.IsValid) {entry : Value × Value}
    (added : (addVariable env entry).result = .ok changed) : changed.IsValid := by
  unfold addVariable at added
  split at added
  · rw [Warned.result_bind] at added
    obtain ⟨-, -, same⟩ := bind_eq_ok.mp added
    obtain rfl := Except.ok.inj same
    exact valid
  · rename_i name checked
    split at added
    · rw [Warned.result_bind] at added
      obtain ⟨text, -, same⟩ := bind_eq_ok.mp added
      obtain rfl := Except.ok.inj same
      exact valid.put (Env.checkName_eq_ok checked).2 text
    · rw [Warned.result_bind] at added
      obtain ⟨-, -, same⟩ := bind_eq_ok.mp added
      obtain rfl := Except.ok.inj same
      exact valid

theorem isValid_foldlM_addVariable {entries : List (Value × Value)} {start env : Env}
    (valid : start.IsValid) (folded : (entries.foldlM addVariable start).result = .ok env) :
    env.IsValid := by
  induction entries generalizing start with
  | nil =>
    obtain rfl := Except.ok.inj folded
    exact valid
  | cons entry rest inductionHypothesis =>
    rw [List.foldlM_cons, Warned.result_bind] at folded
    obtain ⟨next, added, folded⟩ := bind_eq_ok.mp folded
    exact inductionHypothesis (isValid_addVariable valid added) folded

theorem isValid_env {path : Path} {settings : Ordered Value Value} {env : Env}
    (read : (Config.env path settings).result = .ok env) : env.IsValid := by
  unfold Config.env at read
  dsimp only at read
  split at read
  · obtain rfl := Except.ok.inj read
    exact Env.isValid_nil
  · split at read
    · exact isValid_foldlM_addVariable Env.isValid_nil read
    · rw [Warned.result_bind] at read
      obtain ⟨-, -, same⟩ := bind_eq_ok.mp read
      obtain rfl := Except.ok.inj same
      exact Env.isValid_nil

end Config

namespace Project

open Shell

variable [Depths] {project : Project} {files : Files} {reports : List Report}

/-- The variables that every rendering of a project starts from can be set. -/
theorem isValid_baseEnv {base : Env} (outcome : (project.baseEnv files).outcome = .ok base) :
    base.IsValid := by
  have given := Warned.result_of_outcome outcome
  rw [baseEnv, Warned.result_bind] at given
  obtain ⟨settings, -, given⟩ := bind_eq_ok.mp given
  exact Config.isValid_env given

/-- Tasks are only loaded if their environments are valid. -/
theorem isConsistent_load {registry : Registry}
    (loaded : (project.load files).result = .ok registry) : registry.IsConsistent := by
  rw [load, Logged.result_bind] at loaded
  obtain ⟨manifest, -, described⟩ := bind_eq_ok.mp loaded
  exact (Registry.ofManifest_eq_ok.mp described).isConsistent

/-- A rendering of a project is one of the tasks that are loaded, over the variables of the
configuration. -/
theorem render_eq_ok {name : Value} {text : String}
    (rendered : (project.render name ⟨files, reports⟩).1 = .ok text) :
    ∃ registry base, (project.load files).result = .ok registry ∧
      (project.baseEnv files).outcome = .ok base ∧
      (registry.render name base.toValue).result = .ok text := by
  have ran := rendered
  rw [render, Operation.bind_of_ok Operation.files_apply] at ran
  obtain ⟨registry, left, loading, -⟩ := Operation.exists_of_bind_ok ran
  rw [Operation.liftLogged_apply] at loading
  have loaded : (project.load files).result = .ok registry := congrArg Prod.fst loading
  rw [render_eq_of_load loaded] at rendered
  obtain ⟨base, outcome, rendered⟩ := bind_eq_ok.mp rendered
  exact ⟨registry, base, loaded, orFault_eq_ok.mp outcome, rendered⟩

omit [Depths] in
/-- Every environment of a consistent registry is valid. -/
theorem isValid_of_mem_environments {registry : Registry} (consistent : registry.IsConsistent)
    {env : Env} (member : env ∈ registry.environments) : env.IsValid := by
  rcases List.mem_cons.mp member with rfl | inTasks
  · exact consistent.env
  · obtain ⟨entry, entryMember, inTask⟩ := List.mem_flatMap.mp inTasks
    have task := consistent.tasks entry entryMember
    rcases List.mem_cons.mp inTask with rfl | inSteps
    · exact task.env
    · obtain ⟨step, own, rfl⟩ := List.mem_map.mp inSteps
      exact (task.steps step own).env

/-- Whatever the files of a project hold: where a task is rendered, each subshell of the rendering
sets variables under names that a variable can have, and none of them twice. -/
theorem isValid_of_render {name : Value} {text : String}
    (rendered : (project.render name ⟨files, reports⟩).1 = .ok text) :
    ∃ registry base key task command, (project.load files).result = .ok registry ∧
      (project.baseEnv files).outcome = .ok base ∧
      registry.resolve name = .ok (some (key, task)) ∧
      (registry.taskCommand base.toValue task).result = .ok command ∧ command.print = text ∧
      ∀ part ∈ command.parts, ∀ bindings body, part.command = .subshell (.exports bindings body) →
        part.IsIn text ∧ Env.IsValid bindings := by
  obtain ⟨registry, base, loaded, outcome, rendered⟩ := render_eq_ok rendered
  obtain ⟨key, task, command, found, commanded, rfl⟩ := Registry.render_eq_ok rendered
  refine ⟨registry, base, key, task, command, loaded, outcome, found, commanded, rfl,
    fun part member bindings body same => ⟨command.isIn_print part member, ?_⟩⟩
  have consistent := isConsistent_load loaded
  have known : registry.IsKnown task := ⟨_, Registry.mem_of_resolve found, rfl⟩
  have inside : .subshell (.exports bindings body) ∈ command.contents :=
    same ▸ List.mem_map_of_mem member
  have arises := Registry.arises_of_mem_contents commanded _ inside
  have valid : ∀ env ∈ registry.environments, env.IsValid :=
    fun env inRegistry => isValid_of_mem_environments consistent inRegistry
  constructor
  · have names := arises.forall_exports (isVariableName · = true) (fun _ => True)
      base.layer_toValue known
      (fun entry inBase => ⟨(isValid_baseEnv outcome).named entry inBase, trivial⟩)
      fun env inRegistry entry inEnv => ⟨(valid env inRegistry).named entry inEnv, trivial⟩
    exact fun entry inExports => (names entry inExports).1
  · exact arises.nodup_exports base.layer_toValue known fun env inRegistry =>
      (valid env inRegistry).distinct

end Project

namespace Project

/-- The configuration of a sample. One of its variables is left out. -/
def configuredSettings : String :=
  "settings:\n env:\n  A: 1\n  1x: no\n  F: true\n"

/-- The manifest of the sample. -/
def configuredManifest : String :=
  "env:\n A: top\n" ++
    "tasks:\n" ++
    " all:\n" ++
    "  name: all\n" ++
    "  steps:\n" ++
    "  - exec_task: lint\n" ++
    "    env:\n" ++
    "     C: step\n" ++
    " lint:\n" ++
    "  name: lint\n" ++
    "  env:\n" ++
    "   C: task\n" ++
    "  steps:\n" ++
    "  - exec: make\n"

/-- The files of the sample. -/
def configured : Files :=
  ⟨.directory [("work", .directory [(directoryName, .directory
    [("config.yaml", .file configuredSettings.toUTF8),
      ("tasks.yaml", .file configuredManifest.toUTF8)])])]⟩

/-- The task that its rendering spawns. -/
def configuredLint : Task :=
  ⟨.str "lint", .null, none, .null, [("C", "task")],
    [⟨.run (.str "make"), .null, []⟩]⟩

/-- The task that is rendered. -/
def configuredAll : Task :=
  ⟨.str "all", .null, none, .null, [],
    [⟨.spawn (.str "lint"), .null, [("C", "step")]⟩]⟩

/-- The registry that the project holds. -/
def configuredRegistry : Registry :=
  ⟨[("A", "top")], [("all", configuredAll), ("lint", configuredLint)]⟩

theorem isSound_configuredLint : configuredLint.IsSound := by
  refine ⟨Value.isTextOrNull_null, Value.isTextOrNull_null, ⟨by decide, by decide⟩, ?_⟩
  intro step member
  obtain rfl := List.mem_singleton.mp member
  exact ⟨Step.isTextual_run Value.isTextOrNull_null _ _, Env.isValid_nil⟩

theorem isSound_configuredAll : configuredAll.IsSound := by
  refine ⟨Value.isTextOrNull_null, Value.isTextOrNull_null, Env.isValid_nil, ?_⟩
  intro step member
  obtain rfl := List.mem_singleton.mp member
  exact ⟨Step.isTextual_spawn Value.isTextOrNull_null _ _, ⟨by decide, by decide⟩⟩

theorem isSound_configuredRegistry : configuredRegistry.IsSound where
  env := ⟨by decide, by decide⟩
  distinct := by decide
  named := by
    simp [configuredRegistry, configuredAll, configuredLint]
    decide
  tasks := by
    simp [configuredRegistry, isSound_configuredAll, isSound_configuredLint]

theorem load_configured : (sample.load configured).result = .ok configuredRegistry := by
  have copied : (match sample.readManifest configured with
      | .ok copy => copy.isCopy (.ofEntries (Value.keyed configuredRegistry.savedFields))
      | .error _ => false) = true := by
    decide +kernel
  split at copied
  · rename_i copy read
    rw [load, Logged.result_bind, Logged.result_lift, read, ok_bind]
    exact isSound_configuredRegistry.ofManifest copied
  · cases copied

/-- Whether variables are read, and are these. -/
def isBase (base : Env) : Except Fault Env → Bool
  | .ok env => env = base
  | .error _ => false

theorem baseEnv_of_isBase {base : Env}
    (isBase : isBase base (sample.baseEnv files).outcome = true) :
    (sample.baseEnv files).outcome = .ok base := by
  unfold Project.isBase at isBase
  split at isBase
  · rename_i env outcome
    rw [outcome, of_decide_eq_true isBase]
  · cases isBase

theorem baseEnv_configured :
    (sample.baseEnv configured).outcome = .ok [("A", "1"), ("F", "true")] :=
  baseEnv_of_isBase (by decide +kernel)

/-- The text that the task is rendered to. -/
def configuredText : String :=
  "( export A=\"top\"; export F=\"true\"; ( ( ( export A=\"top\"; export F=\"true\"; " ++
    "export C=\"step\"; ( make ) ) ) ) )"

theorem rendered_configured : (configuredRegistry.render (.str "all")
    (Env.toValue [("A", "1"), ("F", "true")])).result = .ok configuredText := by
  have lint : Registry.Unfolds configuredRegistry (Env.toValue [("A", "1"), ("F", "true")])
      [("C", "step")] [.str "all", .str "lint"] configuredLint.steps _ :=
    .run rfl rfl rfl .done
  have all : Registry.Unfolds configuredRegistry (Env.toValue [("A", "1"), ("F", "true")]) []
      [.str "all"] configuredAll.steps _ :=
    .spawn rfl rfl rfl rfl lint (Registry.frame_of_layer (Env.layer_toValue _) rfl) .done
  rw [Registry.render_of_unfolds rfl all (Registry.frame_of_layer (Env.layer_toValue _) rfl)]
  rfl

/-- The variables of the sample are as `isValid_of_render` has them. -/
theorem configured_isValid :
    (sample.render (.str "all") ⟨configured, []⟩).1 = .ok configuredText ∧
    ∃ registry base key task command, (sample.load configured).result = .ok registry ∧
      (sample.baseEnv configured).outcome = .ok base ∧
      registry.resolve (.str "all") = .ok (some (key, task)) ∧
      (registry.taskCommand base.toValue task).result = .ok command ∧
      command.print = configuredText ∧
      ∀ part ∈ command.parts, ∀ bindings body, part.command = .subshell (.exports bindings body) →
        part.IsIn configuredText ∧ Env.IsValid bindings := by
  have rendered : (sample.render (.str "all") ⟨configured, []⟩).1 = .ok configuredText := by
    rw [render_eq_of_load load_configured, baseEnv_configured]
    exact rendered_configured
  exact ⟨rendered, isValid_of_render rendered⟩

end Project

end Taskbook
