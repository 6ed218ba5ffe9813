/-
What a variable is set to, by the place where it is written.

A variable can be written in the configuration of a project, or in the manifest: for all tasks, with
a task, or with a step of a task. Each of these is a layer of what is rendered. Where the variable
is in no other layer, each subshell that sets it sets it to the text of the value that is written.

The text is the same in all places but for truth values. These are written in small letters in the
configuration and with a capital in the manifest, so a variable that is moved from one file to the
other keeps its text exactly if its value is no truth value.
-/

import Taskbook.Proofs.Manifest.Declaring
import Taskbook.Proofs.Project.Exporting
import Taskbook.Proofs.Project.Filtering

namespace Taskbook

/-! ### Texts of values -/

/-- The text that a value has where it is written. -/
def Origin.Spells (origin : Origin) (value : Value) (text : String) : Prop :=
  match origin with
  | .configuration => Config.Spells value text
  | _ => value.text = .ok text

/-- Of the scalars null alone sets no variable. -/
theorem Config.isSettable_of_isScalar {value : Value} (scalar : value.isScalar = true)
    (given : value ≠ .null) : IsSettable value := by
  refine isVariableValue_iff.mp ?_
  cases value with
  | null => exact (given rfl).elim
  | list | pair | set | map | knot => cases scalar
  | _ => rfl

/-- Where an entry of a configuration can set a variable, it sets it. -/
theorem Config.ComeApart.mem {assignments : List (Value × Value)} {env : Env}
    {warnings : List (Except Fault String)} (apart : ComeApart assignments env warnings)
    {key : String} {value : Value} (member : (.str key, value) ∈ assignments)
    (named : isVariableName key = true) (settable : IsSettable value) :
    ∃ text, Spells value text ∧ (key, text) ∈ env := by
  induction apart with
  | nil => cases member
  | set _ _ spells _ inductionHypothesis =>
    rcases List.mem_cons.mp member with same | inRest
    · obtain ⟨isKey, rfl⟩ := Prod.mk.inj same
      obtain rfl := Value.str.inj isKey
      exact ⟨_, spells, List.mem_cons_self⟩
    · obtain ⟨text, spelled, among⟩ := inductionHypothesis inRest
      exact ⟨text, spelled, List.mem_cons_of_mem _ among⟩
  | unnamed unnamed _ inductionHypothesis =>
    rcases List.mem_cons.mp member with same | inRest
    · exact (unnamed ⟨key, (Prod.mk.inj same).1.symm, named⟩).elim
    · exact inductionHypothesis inRest
  | unset _ unsettable _ inductionHypothesis =>
    rcases List.mem_cons.mp member with same | inRest
    · exact (unsettable ((Prod.mk.inj same).2 ▸ settable)).elim
    · exact inductionHypothesis inRest

/-- Anything but a truth value has one text everywhere. -/
theorem Origin.Spells.text {origin : Origin} {value : Value} {text : String}
    (spells : origin.Spells value text) (noTruth : ∀ truth, value ≠ .bool truth) :
    value.text = .ok text := by
  cases origin with
  | configuration =>
    cases spells with
    | truth answer => exact (noTruth answer rfl).elim
    | other _ written => exact written
  | _ => exact spells

/-- A truth value has one text in the configuration, and another in the manifest. -/
theorem Origin.Spells.truth {origin : Origin} {truth : Bool} {text : String}
    (spells : origin.Spells (.bool truth) text) :
    origin = .configuration ∧ text = (if truth then "true" else "false") ∨
      origin ≠ .configuration ∧ text = if truth then "True" else "False" := by
  cases origin with
  | configuration =>
    cases spells with
    | truth => exact Or.inl ⟨rfl, rfl⟩
    | other noTruth _ => exact (noTruth truth rfl).elim
  | _ => exact Or.inr ⟨nofun, by cases truth <;> exact (Except.ok.inj spells).symm⟩

/-- A scalar that is written in two places has one text, unless it is a truth value that is written
once in the configuration and once in the manifest. -/
theorem Origin.Spells.agree_iff {origin other : Origin} {value copy : Value}
    {text otherText : String} (scalar : value.isScalar = true)
    (copied : copy.isCopy value = true) (spells : origin.Spells value text)
    (otherSpells : other.Spells copy otherText) :
    text = otherText ↔ (origin = .configuration ↔ other = .configuration) ∨
      ∀ truth, value ≠ .bool truth := by
  by_cases isTruth : ∃ truth, value = .bool truth
  · obtain ⟨truth, rfl⟩ := isTruth
    obtain rfl := (Value.eq_bool_iff_of_isCopy copied).mpr rfl
    rcases spells.truth with ⟨here, rfl⟩ | ⟨here, rfl⟩ <;>
      rcases otherSpells.truth with ⟨there, rfl⟩ | ⟨there, rfl⟩ <;>
      cases truth <;> simp [here, there]
  · have noTruth (truth : Bool) : value ≠ .bool truth := fun same => isTruth ⟨truth, same⟩
    have copyNoTruth (truth : Bool) : copy ≠ .bool truth :=
      mt (Value.eq_bool_iff_of_isCopy copied).mp (noTruth truth)
    have same := Value.text_of_isCopy scalar copied
    rw [spells.text noTruth, otherSpells.text copyNoTruth] at same
    exact iff_of_true (Except.ok.inj same).symm (Or.inr noTruth)

/-! ### Renderings of projects -/

namespace Project

open Shell

variable [Depths]

/-- What a task of a project is rendered to, and what that is made of. -/
structure Renders (project : Project) (files : Files) (name : Value) (registry : Registry)
    (base : Env) (root : Task) (command : Command) : Prop where
  loaded : (project.load files).result = .ok registry
  configured : (project.baseEnv files).outcome = .ok base
  found : ∃ key, registry.resolve name = .ok (some (key, root))
  commanded : (registry.taskCommand base.toValue root).result = .ok command

/-- The entries for variables that the files of a project have in a place. -/
inductive HasEntries (project : Project) (files : Files) : Origin → List (Value × Value) → Prop
  | configuration {content : Option ByteArray}
      {entries settings assignments : List (Value × Value)}
      (has : files.HasContent project.configPath content)
      (assigned : Config.HasAssignments content entries settings assignments) :
      HasEntries project files .configuration assignments
  | manifest {manifest : Value} {origin : Origin} {fields entries : List (Value × Value)}
      (read : project.readManifest files = .ok manifest)
      (opened : manifest.entries? = some fields)
      (declares : Registry.Declares fields origin entries) :
      HasEntries project files origin entries

/-- A layer of what a task of a project is rendered to. -/
def HasLayer (project : Project) (files : Files) (name : Value) (origin : Origin) (env : Env) :
    Prop :=
  ∃ registry base root command, project.Renders files name registry base root command ∧
    registry.Layer base root origin env

/-- A variable is set to a value in one place, a rendering makes use of that place, and the variable
is in no other of its layers. -/
structure SetsOnce (project : Project) (files : Files) (name : Value) (origin : Origin)
    (key : String) (value : Value) : Prop where
  written : ∃ entries, project.HasEntries files origin entries ∧ (.str key, value) ∈ entries
  used : ∃ env, project.HasLayer files name origin env
  alone : ∀ other env, project.HasLayer files name other env → other ≠ origin →
    key ∉ Ordered.keys env

/-- A task of a project is rendered to a text that exports a variable, with one value everywhere. -/
def Exports (project : Project) (files : Files) (name : Value) (text key value : String) : Prop :=
  ∃ registry base root command, project.Renders files name registry base root command ∧
    command.print = text ∧ command.Exports key value

variable {project : Project} {files : Files} {reports : List Report} {name : Value}
  {registry : Registry} {base : Env} {root : Task} {command : Command}

theorem exists_renders {text : String}
    (rendered : (project.render name ⟨files, reports⟩).1 = .ok text) :
    ∃ registry base root command, project.Renders files name registry base root command ∧
      command.print = text := by
  obtain ⟨registry, base, loaded, configured, rendered⟩ := render_eq_ok rendered
  obtain ⟨key, root, command, found, commanded, printed⟩ := Registry.render_eq_ok rendered
  exact ⟨registry, base, root, command, ⟨loaded, configured, ⟨key, found⟩, commanded⟩, printed⟩

/-- A rendering is made of one thing only. -/
theorem Renders.unique (renders : project.Renders files name registry base root command)
    {otherRegistry : Registry} {otherBase : Env} {otherRoot : Task} {otherCommand : Command}
    (also : project.Renders files name otherRegistry otherBase otherRoot otherCommand) :
    registry = otherRegistry ∧ base = otherBase ∧ root = otherRoot := by
  obtain rfl := Except.ok.inj (renders.loaded.symm.trans also.loaded)
  obtain rfl := Except.ok.inj (renders.configured.symm.trans also.configured)
  obtain ⟨key, found⟩ := renders.found
  obtain ⟨otherKey, otherFound⟩ := also.found
  have same := Option.some.inj (Except.ok.inj (found.symm.trans otherFound))
  exact ⟨rfl, rfl, (Prod.mk.inj same).2⟩

theorem Renders.rendered (renders : project.Renders files name registry base root command)
    (reports : List Report) : (project.render name ⟨files, reports⟩).1 = .ok command.print := by
  obtain ⟨key, found⟩ := renders.found
  rw [render_eq_of_load renders.loaded, renders.configured, orFault_ok, ok_bind,
    Registry.render_of_resolve found, renders.commanded]
  rfl

theorem Renders.isKnown (renders : project.Renders files name registry base root command) :
    registry.IsKnown root := by
  obtain ⟨key, found⟩ := renders.found
  exact ⟨_, Registry.mem_of_resolve found, rfl⟩

/-- No mapping in a manifest that is read has two equal keys. -/
theorem isKeyed_readManifest {manifest : Value} (read : project.readManifest files = .ok manifest) :
    manifest.IsKeyed := by
  have empty : (Value.ofEntries []).IsKeyed :=
    Value.isKeyed_of_parts (fun entries opened => Option.some.inj opened ▸ .nil) nofun
  unfold readManifest at read
  obtain ⟨present, -, read⟩ := bind_eq_ok.mp read
  cases present with
  | false =>
    obtain rfl := Except.ok.inj read
    refine Value.isKeyed_of_parts (fun entries opened => ?_) fun part member => ?_
    · obtain rfl := Option.some.inj opened
      simp [Value.AreKeyed, Value.same, Value.sameScalar]
    · have parts : part ∈ [Value.str "env", .str "tasks", .ofEntries [], .ofEntries []] := member
      simp only [List.mem_cons, List.not_mem_nil, or_false] at parts
      rcases parts with rfl | rfl | rfl | rfl
      · exact (⟨rfl, rfl⟩ : Value.IsLeaf (.str "env")).isKeyed
      · exact (⟨rfl, rfl⟩ : Value.IsLeaf (.str "tasks")).isKeyed
      · exact empty
      · exact empty
  | true =>
    obtain ⟨text, -, read⟩ := bind_eq_ok.mp read
    unfold Manifest.ofText at read
    split at read
    · cases read
    · cases read
    · rename_i data given
      dsimp only at read
      split at read
      · obtain rfl := Except.ok.inj read
        rw [Value.orElse]
        split
        · exact Yaml.isKeyed_read given
        · exact empty
      · cases read

/-- What is written in a place is set there, to the text that it has in this place. -/
theorem Renders.exists_spells (renders : project.Renders files name registry base root command)
    {origin : Origin} {env : Env} (layer : registry.Layer base root origin env)
    {entries : List (Value × Value)} (has : project.HasEntries files origin entries) {key : String}
    {value : Value} (member : (.str key, value) ∈ entries) (named : isVariableName key = true)
    (settable : Config.IsSettable value) :
    ∃ text, origin.Spells value text ∧ (key, text) ∈ env := by
  cases has with
  | configuration has assigned =>
    cases layer
    have given := Warned.result_of_outcome renders.configured
    rw [baseEnv_eq has assigned] at given
    obtain ⟨added, apart, rfl⟩ := Config.comeApart_of_foldlM assigned.areKeyed
      (fun _ _ name known => (List.not_mem_nil known).elim) given
    exact apart.mem member named settable
  | manifest read opened declares =>
    have loaded := renders.loaded
    rw [load, Logged.result_bind, Logged.result_lift, read, ok_bind] at loaded
    have describes := Registry.ofManifest_eq_ok.mp loaded
    obtain ⟨text, written, among⟩ := Env.mem_of_ofEntries
      (declares.areKeyed (isKeyed_readManifest read) opened)
      (declares.ofEntries describes opened renders.isKnown layer) member
    refine ⟨text, ?_, among⟩
    cases declares <;> exact written

/-- Where a task is rendered and a variable is set once, the rendering exports it. -/
theorem SetsOnce.exports {text : String}
    (rendered : (project.render name ⟨files, reports⟩).1 = .ok text) {origin : Origin}
    {key : String} {value : Value} (named : isVariableName key = true)
    (settable : Config.IsSettable value) (once : project.SetsOnce files name origin key value) :
    ∃ written, origin.Spells value written ∧ project.Exports files name text key written := by
  obtain ⟨registry, base, root, command, renders, printed⟩ := exists_renders rendered
  obtain ⟨entries, has, member⟩ := once.written
  obtain ⟨env, _, _, _, _, also, layer⟩ := once.used
  obtain ⟨rfl, rfl, rfl⟩ := renders.unique also
  obtain ⟨written, spells, among⟩ := renders.exists_spells layer has member named settable
  refine ⟨written, spells, registry, base, root, command, renders, printed, ?_⟩
  exact layer.exports (isConsistent_load renders.loaded) renders.isKnown
    (isValid_baseEnv renders.configured) renders.commanded among
    fun other further otherLayer => once.alone other further ⟨_, _, _, _, renders, otherLayer⟩

/-- A scalar is written for a variable in two places, be they in one project or in two, and neither
rendering has the variable from anywhere else. Then both export it, each with one value everywhere.
The values are the same exactly if both places are in the configuration, or both in the manifest, or
the scalar is no truth value. -/
theorem exports_agree_iff {project other : Project} {files otherFiles : Files}
    {reports otherReports : List Report} {name otherName : Value} {text otherText : String}
    (rendered : (project.render name ⟨files, reports⟩).1 = .ok text)
    (otherRendered : (other.render otherName ⟨otherFiles, otherReports⟩).1 = .ok otherText)
    {key : String} {value copy : Value} (named : isVariableName key = true)
    (scalar : value.isScalar = true) (given : value ≠ .null) (copied : copy.isCopy value = true)
    {origin otherOrigin : Origin} (once : project.SetsOnce files name origin key value)
    (otherOnce : other.SetsOnce otherFiles otherName otherOrigin key copy) :
    ∃ written otherWritten, project.Exports files name text key written ∧
      other.Exports otherFiles otherName otherText key otherWritten ∧
      (written = otherWritten ↔ (origin = .configuration ↔ otherOrigin = .configuration) ∨
        ∀ truth, value ≠ .bool truth) := by
  obtain ⟨copyScalar, copyGiven⟩ := Value.isScalar_of_isCopy scalar given copied
  obtain ⟨written, spells, exported⟩ :=
    once.exports rendered named (Config.isSettable_of_isScalar scalar given)
  obtain ⟨otherWritten, otherSpells, otherExported⟩ :=
    otherOnce.exports otherRendered named (Config.isSettable_of_isScalar copyScalar copyGiven)
  exact ⟨written, otherWritten, exported, otherExported, spells.agree_iff scalar copied otherSpells⟩

end Project

namespace Project

open Shell

/-! ### A sample -/

/-- A task with some variables that runs one command. -/
def making (env : Env) : Task :=
  ⟨.str "a", .null, none, .null, env, [⟨.run (.str "make"), .null, []⟩]⟩

/-- The registry of this task alone. -/
def makingOnly (env : Env) : Registry :=
  ⟨[], [("a", making env)]⟩

/-- Two variables in the configuration. -/
def settledSettings : String :=
  "settings:\n env:\n  V: true\n  D: 2024-05-01\n"

/-- The manifest without variables. -/
def settledManifest : String :=
  "tasks:\n a:\n  steps:\n  - exec: make\n"

/-- The same two variables with the task. -/
def declaredManifest : String :=
  "tasks:\n a:\n  env:\n   V: true\n   D: 2024-05-01\n  steps:\n  - exec: make\n"

/-- The files of the project with the variables in its configuration. -/
def settled : Files :=
  ⟨.directory [("work", .directory [(directoryName, .directory
    [("config.yaml", .file settledSettings.toUTF8),
      ("tasks.yaml", .file settledManifest.toUTF8)])])]⟩

/-- The files of the project with the variables in its manifest. -/
def declared : Files :=
  ⟨.directory [("work", .directory [(directoryName, .directory
    [("tasks.yaml", .file declaredManifest.toUTF8)])])]⟩

/-- The day that both files name. -/
def sampleDay : Day := ⟨2024, 5, 1⟩

/-- The variables of the configuration. Points in time have a place in the text. -/
def settledAssignments : List (Value × Value) :=
  [(.str "V", .bool true), (.str "D", .date (some 8) sampleDay)]

/-- All settings of the configuration. -/
def settledFields : List (Value × Value) :=
  [(.str "env", .map (some 4) settledAssignments)]

/-- Whether the configuration is read as it is here. -/
def isSettled : Except Yaml.ReadError Value → Bool
  | .ok (.map (some 0) [(.str "settings", .map (some 2) [(.str "env", .map (some 4)
      [(.str "V", .bool true), (.str "D", .date (some 8) day)])])]) => day = sampleDay
  | _ => false

/-- The variables of the manifest. -/
def declaredAssignments : List (Value × Value) :=
  [(.str "V", .bool true), (.str "D", .date (some 10) sampleDay)]

/-- The fields of its task. -/
def declaredFields : List (Value × Value) :=
  [(.str "env", .map (some 6) declaredAssignments),
    (.str "steps", .list (some 12) [.map (some 13) [(.str "exec", .str "make")]])]

/-- The manifest as it is read. -/
def declaredData : Value :=
  .map (some 0) [(.str "tasks", .map (some 2) [(.str "a", .map (some 4) declaredFields)])]

/-- Whether the manifest is read as it is here. -/
def isDeclared : Except Error Value → Bool
  | .ok (.map (some 0) [(.str "tasks", .map (some 2) [(.str "a", .map (some 4)
      [(.str "env", .map (some 6) [(.str "V", .bool true), (.str "D", .date (some 10) day)]),
        (.str "steps", .list (some 12) [.map (some 13) [(.str "exec", .str "make")]])])])]) =>
    day = sampleDay
  | _ => false

/-- Whether the registry of the task is loaded, with these variables. -/
def isMaking (env : Env) : Except Error Registry → Bool
  | .ok ⟨[], [("a", ⟨.str "a", .null, none, .null, own,
      [⟨.run (.str "make"), .null, []⟩]⟩)]⟩ => own = env
  | _ => false

theorem eq_of_isSettled {read : Except Yaml.ReadError Value} (settled : isSettled read = true) :
    read = .ok (.map (some 0) [(.str "settings", .map (some 2) settledFields)]) := by
  unfold isSettled at settled
  split at settled
  · obtain rfl := of_decide_eq_true settled
    rfl
  · cases settled

theorem eq_of_isDeclared {read : Except Error Value} (declared : isDeclared read = true) :
    read = .ok declaredData := by
  unfold isDeclared at declared
  split at declared
  · obtain rfl := of_decide_eq_true declared
    rfl
  · cases declared

theorem eq_of_isMaking {env : Env} {loaded : Except Error Registry}
    (making : isMaking env loaded = true) : loaded = .ok (makingOnly env) := by
  unfold isMaking at making
  split at making
  · obtain rfl := of_decide_eq_true making
    rfl
  · cases making

theorem hasContent_settled :
    settled.HasContent sample.configPath (some settledSettings.toUTF8) :=
  ⟨_, rfl⟩

theorem hasAssignments_settled : Config.HasAssignments (some settledSettings.toUTF8)
    [(.str "settings", .map (some 2) settledFields)] settledFields settledAssignments :=
  ⟨⟨_, eq_of_isSettled (by decide +kernel), rfl⟩, rfl, rfl⟩

theorem readManifest_declared : sample.readManifest declared = .ok declaredData :=
  eq_of_isDeclared (by decide +kernel)

theorem hasEntries_settled : sample.HasEntries settled .configuration settledAssignments :=
  .configuration hasContent_settled hasAssignments_settled

theorem hasEntries_declared : sample.HasEntries declared (.task "a") declaredAssignments :=
  .manifest readManifest_declared rfl
    (.task ⟨_, _, rfl, List.mem_singleton.mpr rfl, rfl, rfl⟩ rfl)

/-- The command of the task with some variables. -/
def makingCommand (bindings : Env) : Command :=
  .subshell (.exports bindings (.chain [.subshell (Registry.commandScript [] "make")]))

theorem renders_making {env : Env} (loaded : (sample.load files).result = .ok (makingOnly env))
    (configured : (sample.baseEnv files).outcome = .ok base) :
    sample.Renders files (.str "a") (makingOnly env) base (making env)
      (makingCommand (Ordered.mergeAll [base, [], env, []])) := by
  have unfolds : Registry.Unfolds (makingOnly env) base.toValue [] [.str "a"] (making env).steps
      _ :=
    .run rfl rfl rfl .done
  exact ⟨loaded, configured, ⟨"a", rfl⟩,
    Registry.taskCommand_of_unfolds unfolds (Registry.frame_of_layer (Env.layer_toValue base) rfl)⟩

theorem renders_settled : sample.Renders settled (.str "a") (makingOnly [])
    [("V", "true"), ("D", "2024-05-01")] (making []) (makingCommand
      (Ordered.mergeAll [[("V", "true"), ("D", "2024-05-01")], [], [], []])) := by
  refine renders_making (eq_of_isMaking (by decide +kernel)) ?_
  rw [baseEnv_eq hasContent_settled hasAssignments_settled]
  rfl

theorem renders_declared : sample.Renders declared (.str "a")
    (makingOnly [("V", "True"), ("D", "2024-05-01")]) []
    (making [("V", "True"), ("D", "2024-05-01")]) (makingCommand
      (Ordered.mergeAll [[], [], [("V", "True"), ("D", "2024-05-01")], []])) := by
  refine renders_making ?_ rfl
  rw [load, Logged.result_bind, Logged.result_lift, readManifest_declared, ok_bind]
  exact eq_of_isMaking (by decide +kernel)

/-- The layers of the task that set anything are the base and the variables of the task. -/
theorem layer_making {env further : Env} {origin : Origin}
    (layer : (makingOnly env).Layer base (making env) origin further) :
    origin = .configuration ∧ further = base ∨ origin = .task "a" ∧ further = env ∨
      further = [] := by
  have stays {legs : List Registry.Leg} {task : Task}
      (descent : (makingOnly env).Descent (making env) legs task) : task = making env := by
    cases descent with
    | here => rfl
    | down there spawns found further =>
      rw [List.mem_singleton.mp (List.mem_of_getElem? there)] at spawns
      cases spawns
  cases layer with
  | configuration => exact Or.inl ⟨rfl, rfl⟩
  | manifest => exact Or.inr (Or.inr rfl)
  | task descent called =>
    obtain rfl := stays descent
    obtain rfl := Value.str.inj called
    exact Or.inr (Or.inl ⟨rfl, rfl⟩)
  | step descent called there =>
    obtain rfl := stays descent
    obtain rfl := List.mem_singleton.mp (List.mem_of_getElem? there)
    exact Or.inr (Or.inr rfl)

/-- An entry of the configuration is the only one of its variable. -/
theorem setsOnce_settled {key : String} {value : Value}
    (member : (.str key, value) ∈ settledAssignments) :
    sample.SetsOnce settled (.str "a") .configuration key value := by
  refine ⟨⟨_, hasEntries_settled, member⟩, ⟨_, _, _, _, _, renders_settled, .configuration⟩, ?_⟩
  rintro other further ⟨registry, base, root, command, renders, layer⟩ elsewhere
  obtain ⟨rfl, rfl, rfl⟩ := Renders.unique renders_settled renders
  rcases layer_making layer with ⟨same, -⟩ | ⟨-, rfl⟩ | rfl
  · exact (elsewhere same).elim
  · exact List.not_mem_nil
  · exact List.not_mem_nil

/-- So is an entry of the manifest. -/
theorem setsOnce_declared {key : String} {value : Value}
    (member : (.str key, value) ∈ declaredAssignments) :
    sample.SetsOnce declared (.str "a") (.task "a") key value := by
  refine ⟨⟨_, hasEntries_declared, member⟩,
    ⟨_, _, _, _, _, renders_declared, .task .here rfl⟩, ?_⟩
  rintro other further ⟨registry, base, root, command, renders, layer⟩ elsewhere
  obtain ⟨rfl, rfl, rfl⟩ := Renders.unique renders_declared renders
  rcases layer_making layer with ⟨-, rfl⟩ | ⟨same, -⟩ | rfl
  · exact List.not_mem_nil
  · exact (elsewhere same).elim
  · exact List.not_mem_nil

/-- The text of the task with the configuration. -/
def settledText : String :=
  "( export V=\"true\"; export D=\"2024-05-01\"; ( make ) )"

/-- The text of the task with the manifest. -/
def declaredText : String :=
  "( export V=\"True\"; export D=\"2024-05-01\"; ( make ) )"

theorem rendered_settled : (sample.render (.str "a") ⟨settled, []⟩).1 = .ok settledText :=
  Renders.rendered renders_settled []

theorem rendered_declared : (sample.render (.str "a") ⟨declared, []⟩).1 = .ok declaredText :=
  Renders.rendered renders_declared []

/-- The day is written in both files and exported alike. -/
theorem sampleDay_agrees :
    (sample.render (.str "a") ⟨settled, []⟩).1 = .ok settledText ∧
    (sample.render (.str "a") ⟨declared, []⟩).1 = .ok declaredText ∧
    sample.SetsOnce settled (.str "a") .configuration "D" (.date (some 8) sampleDay) ∧
    sample.SetsOnce declared (.str "a") (.task "a") "D" (.date (some 10) sampleDay) ∧
    ∃ written, sample.Exports settled (.str "a") settledText "D" written ∧
      sample.Exports declared (.str "a") declaredText "D" written := by
  have once : sample.SetsOnce settled (.str "a") .configuration "D" (.date (some 8) sampleDay) :=
    setsOnce_settled (by simp [settledAssignments])
  have otherOnce : sample.SetsOnce declared (.str "a") (.task "a") "D"
      (.date (some 10) sampleDay) := setsOnce_declared (by simp [declaredAssignments])
  obtain ⟨written, otherWritten, exported, otherExported, agree⟩ :=
    exports_agree_iff rendered_settled rendered_declared (by decide) rfl (by nofun)
      (by simp [Value.isCopy]) once otherOnce
  obtain rfl := agree.mpr (Or.inr nofun)
  exact ⟨rendered_settled, rendered_declared, once, otherOnce, written, exported, otherExported⟩

/-- The truth value is written in both files and exported as two texts. -/
theorem not_agree_of_truth :
    (sample.render (.str "a") ⟨settled, []⟩).1 = .ok settledText ∧
    (sample.render (.str "a") ⟨declared, []⟩).1 = .ok declaredText ∧
    sample.SetsOnce settled (.str "a") .configuration "V" (.bool true) ∧
    sample.SetsOnce declared (.str "a") (.task "a") "V" (.bool true) ∧
    sample.Exports settled (.str "a") settledText "V" "true" ∧
    sample.Exports declared (.str "a") declaredText "V" "True" := by
  have settable : Config.IsSettable (.bool true) := Config.isSettable_of_isScalar rfl nofun
  have once : sample.SetsOnce settled (.str "a") .configuration "V" (.bool true) :=
    setsOnce_settled List.mem_cons_self
  have otherOnce : sample.SetsOnce declared (.str "a") (.task "a") "V" (.bool true) :=
    setsOnce_declared List.mem_cons_self
  obtain ⟨written, spells, exported⟩ := once.exports rendered_settled (by decide) settable
  obtain ⟨otherWritten, otherSpells, otherExported⟩ :=
    otherOnce.exports rendered_declared (by decide) settable
  obtain ⟨-, rfl⟩ := spells.truth.resolve_right fun elsewhere => elsewhere.1 rfl
  obtain ⟨-, rfl⟩ := otherSpells.truth.resolve_left fun elsewhere => nomatch elsewhere.1
  exact ⟨rendered_settled, rendered_declared, once, otherOnce, exported, otherExported⟩

end Project

end Taskbook
