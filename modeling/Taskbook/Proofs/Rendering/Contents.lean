/-
What the command of a task contains, and where it comes from.

A rendering is made of little: subshells of tasks and of steps with their variables, subshells that
only group, labels, conditions, and commands that steps run. `Arises` has one case for each, with
the legs that lead to the task it belongs to. Every command that is contained in the command of a
task arises so, and the conditions and commands of all tasks that legs lead to are contained in it,
each in a subshell.

So what is to be shown of all that a rendering writes is shown case by case, and with a task that
legs lead to at hand. What the registry and its base have in all of their environments, the
subshells of a rendering have in what they set.
-/

import Taskbook.Proofs.Rendering.Nesting
import Taskbook.Proofs.Shell.Parts

namespace Taskbook

namespace Registry

open Shell

variable {registry : Registry} {base : Value} {root task : Task} {overlay : Env}
  {path : List Value}

/-! ### The way to a task -/

/-- Legs can be extended by a step that spawns. -/
theorem Descent.concat {legs : List Leg} (descent : Descent registry root legs task)
    {leg : Leg} {target : Value} {name : String} (there : task.steps[leg.index]? = some leg.step)
    (spawns : leg.step.action = .spawn target)
    (found : registry.resolve target = .ok (some (name, leg.task))) :
    Descent registry root (legs ++ [leg]) leg.task := by
  induction descent with
  | here => exact .down there spawns found .here
  | down thereAbove spawnsAbove foundAbove _ inductionHypothesis =>
    exact .down thereAbove spawnsAbove foundAbove (inductionHypothesis there)

/-- A task of the registry. -/
def IsKnown (registry : Registry) (task : Task) : Prop :=
  ∃ entry ∈ registry.tasks, entry.2 = task

/-- Legs from a task of the registry lead to tasks of the registry, by steps of such tasks. -/
theorem Descent.isKnown {legs : List Leg} (descent : Descent registry root legs task)
    (known : registry.IsKnown root) : registry.IsKnown task ∧
      ∀ leg ∈ legs, ∃ spawning, registry.IsKnown spawning ∧ leg.step ∈ spawning.steps := by
  induction descent with
  | here => exact ⟨known, fun leg member => by cases member⟩
  | @down first last leg legs target name there spawns found further inductionHypothesis =>
    obtain ⟨lastKnown, stepsKnown⟩ := inductionHypothesis ⟨_, mem_of_resolve found, rfl⟩
    refine ⟨lastKnown, fun other member => ?_⟩
    rcases List.mem_cons.mp member with rfl | inRest
    · exact ⟨first, known, List.mem_of_getElem? there⟩
    · exact stepsKnown other inRest

/-! ### Where commands come from -/

/-- Where a command comes from that is contained in the command of a task. -/
inductive Arises (registry : Registry) (base : Value) (root : Task) : Command → Prop
  /-- The subshell of a task that legs lead to. -/
  | task {legs : List Leg} {task : Task} {exported : List (String × String)} {body : Row}
      (descent : Descent registry root legs task)
      (bound : bindings base [registry.env, task.env, pushed (legs.map Leg.step)] = .ok exported) :
      Arises registry base root (.subshell (.exports exported body))
  /-- The subshell of a step that runs a command. -/
  | step {legs : List Leg} {task : Task} {step : Step} {body : Row}
      (descent : Descent registry root legs task) (member : step ∈ task.steps) :
      Arises registry base root (.subshell (.exports step.env body))
  /-- A subshell that is only there to group. -/
  | group {body : Row} : Arises registry base root (.subshell (.exports [] body))
  | command {legs : List Leg} {task : Task} {step : Step} {command : Value} {text : String}
      (descent : Descent registry root legs task) (member : step ∈ task.steps)
      (runs : step.action = .run command) (worded : commandText command step.env = .ok text) :
      Arises registry base root (.leaf (.command text))
  | condition {legs : List Leg} {task : Task} {text : String}
      (descent : Descent registry root legs task) (given : task.condition.isTruthy = true)
      (worded : task.condition.text = .ok text) :
      Arises registry base root (.leaf (.condition text))
  | label {text : String} : Arises registry base root (.leaf (.echo text))
  | idle : Arises registry base root .idle

/-- A task becomes one subshell. -/
theorem frame_eq_ok {fragments : List Script} {command : Command}
    (framed : registry.frame base overlay task fragments = .ok command) :
    ∃ body exported, gated task.condition (.chain (fragments.map .subshell)) = .ok body ∧
      bindings base [registry.env, task.env, overlay] = .ok exported ∧
      command = .subshell (.exports exported body) := by
  obtain ⟨body, gate, framed⟩ := bind_eq_ok.mp framed
  obtain ⟨exported, bound, same⟩ := bind_eq_ok.mp framed
  exact ⟨body, exported, gate, bound, (Except.ok.inj same).symm⟩

theorem mem_contents_inSubshell {command inner : Command}
    (inside : inner ∈ command.inSubshell.contents) :
    inner = command.inSubshell ∨ inner ∈ command.contents := by
  rcases List.mem_cons.mp ((Command.contents_subshell _ _) ▸ inside) with same | inside
  · exact Or.inl same
  · exact Or.inr (by simpa [Row.commands, Pipeline.command] using inside)

theorem Row.mem_commands_chain {commands : List Command} {command : Command}
    (member : command ∈ (Row.chain commands).commands) : command ∈ commands ∨ command = .idle := by
  cases commands with
  | nil => exact Or.inr (List.mem_singleton.mp member)
  | cons first rest =>
    rw [Row.commands_chain] at member
    exact Or.inl member

/-- What a chain of subshells contains in a subshell. -/
theorem arises_of_mem_frame {legs : List Leg} (descent : Descent registry root legs task)
    {fragments : List Script} {command : Command}
    (framed : registry.frame base (pushed (legs.map Leg.step)) task fragments = .ok command)
    (within : ∀ fragment ∈ fragments, ∀ inner ∈ (Command.subshell fragment).contents,
      Arises registry base root inner) :
    ∀ inner ∈ command.contents, Arises registry base root inner := by
  obtain ⟨body, exported, gate, bound, rfl⟩ := frame_eq_ok framed
  have ofChain : ∀ inner ∈ (Row.chain (fragments.map .subshell)).commands.flatMap
      Command.contents, Arises registry base root inner := by
    intro inner member
    obtain ⟨outer, outerMember, inside⟩ := List.mem_flatMap.mp member
    rcases Row.mem_commands_chain outerMember with outerMember | rfl
    · obtain ⟨fragment, fragmentMember, rfl⟩ := List.mem_map.mp outerMember
      exact within fragment fragmentMember inner inside
    · obtain rfl := List.mem_singleton.mp inside
      exact .idle
  intro inner inside
  rw [Command.contents_subshell] at inside
  rcases List.mem_cons.mp inside with rfl | inside
  · exact .task descent bound
  · rcases gated_eq_ok gate with ⟨given, text, worded, rfl⟩ | ⟨-, rfl⟩
    · have commands : (Row.gate text (Row.chain (fragments.map .subshell))).commands =
          [(Command.leaf (.condition text)).inSubshell,
            .subshell (.exports [] (.chain (fragments.map .subshell)))] := rfl
      rw [commands, List.flatMap_cons, List.flatMap_singleton] at inside
      rcases List.mem_append.mp inside with inCondition | inSteps
      · rcases mem_contents_inSubshell inCondition with rfl | member
        · exact .group
        · obtain rfl := List.mem_singleton.mp member
          exact .condition descent given worded
      · rw [Command.contents_subshell] at inSteps
        rcases List.mem_cons.mp inSteps with rfl | inside
        · exact .group
        · exact ofChain inner inside
    · exact ofChain inner inside

theorem arises_of_mem_label {label : Value} {scripts : List Script}
    (labelled : labelScript label = .ok scripts) {script : Script} (member : script ∈ scripts)
    {inner : Command} (inside : inner ∈ (Command.subshell script).contents) :
    Arises registry base root inner := by
  unfold labelScript at labelled
  split at labelled
  · split at labelled
    · obtain rfl := Except.ok.inj labelled
      obtain rfl := List.mem_singleton.mp member
      rcases mem_contents_inSubshell inside with rfl | inside
      · exact .group
      · obtain rfl := List.mem_singleton.mp inside
        exact .label
    · cases labelled
  · obtain rfl := Except.ok.inj labelled
    cases member

theorem arises_of_unfolds {legs : List Leg} (descent : Descent registry root legs task)
    {steps : List Step} {fragments : List Script}
    (unfolds : Unfolds registry base overlay path steps fragments)
    (pushedDown : overlay = pushed (legs.map Leg.step))
    (own : ∀ step ∈ steps, step ∈ task.steps) :
    ∀ fragment ∈ fragments, ∀ inner ∈ (Command.subshell fragment).contents,
      Arises registry base root inner := by
  induction unfolds generalizing legs task with
  | done => exact fun fragment member => by cases member
  | @run overlay path step rest label others command text labelled runs worded further
      inductionHypothesis =>
    have stepOwn := own step List.mem_cons_self
    intro fragment member inner inside
    rcases List.mem_append.mp member with inLabel | member
    · exact arises_of_mem_label labelled inLabel inside
    rcases List.mem_cons.mp member with rfl | inOthers
    · rw [commandScript, Command.contents_subshell] at inside
      rcases List.mem_cons.mp inside with rfl | inside
      · exact .step descent stepOwn
      · obtain rfl := List.mem_singleton.mp inside
        exact .command descent stepOwn runs worded
    · exact inductionHypothesis descent pushedDown
        (fun other member => own other (List.mem_cons_of_mem _ member)) fragment inOthers inner
        inside
  | @spawn overlay path step rest label fragments others target name spawned command labelled spawns
      found fresh inside framed further insideHypothesis furtherHypothesis =>
    have stepOwn := own step List.mem_cons_self
    obtain ⟨index, there⟩ := List.getElem?_of_mem stepOwn
    let leg : Leg := ⟨index, step, spawned⟩
    have longer : Descent registry root (legs ++ [leg]) spawned :=
      descent.concat there spawns found
    have pushedFurther : Ordered.merge overlay step.env =
        pushed ((legs ++ [leg]).map Leg.step) := by
      rw [List.map_append, List.map_singleton, pushed_concat, pushedDown]
    intro fragment member inner contained
    rcases List.mem_append.mp member with inLabel | member
    · exact arises_of_mem_label labelled inLabel contained
    rcases List.mem_cons.mp member with rfl | inOthers
    · rw [pushedFurther] at framed
      rcases mem_contents_inSubshell contained with rfl | contained
      · exact .group
      rcases mem_contents_inSubshell contained with rfl | contained
      · exact .group
      exact arises_of_mem_frame longer framed
        (insideHypothesis longer pushedFurther fun _ member => member) inner contained
    · exact furtherHypothesis descent pushedDown
        (fun other member => own other (List.mem_cons_of_mem _ member)) fragment inOthers inner
        contained

/-- Everything that the command of a task contains comes from somewhere. -/
theorem arises_of_mem_contents {command : Command}
    (commanded : (registry.taskCommand base root).result = .ok command) :
    ∀ inner ∈ command.contents, Arises registry base root inner := by
  obtain ⟨fragments, unfolds, framed⟩ := taskCommand_eq_ok commanded
  exact arises_of_mem_frame .here framed
    (arises_of_unfolds .here unfolds rfl fun _ member => member)

/-! ### Environments -/

/-- The environments of a registry: its own, those of its tasks, and those of their steps. -/
def environments (registry : Registry) : List Env :=
  registry.env :: registry.tasks.flatMap fun entry => entry.2.env :: entry.2.steps.map Step.env

theorem IsKnown.env_mem_environments (known : registry.IsKnown task) :
    task.env ∈ registry.environments := by
  obtain ⟨entry, member, rfl⟩ := known
  exact List.mem_cons_of_mem _ (List.mem_flatMap.mpr ⟨entry, member, List.mem_cons_self⟩)

theorem IsKnown.step_env_mem_environments (known : registry.IsKnown task) {step : Step}
    (own : step ∈ task.steps) : step.env ∈ registry.environments := by
  obtain ⟨entry, member, rfl⟩ := known
  exact List.mem_cons_of_mem _ (List.mem_flatMap.mpr
    ⟨entry, member, List.mem_cons_of_mem _ (List.mem_map_of_mem own)⟩)

variable {lowest : Env}

/-- What steps push down are environments of the registry. -/
theorem mem_environments_of_descent {legs : List Leg} (descent : Descent registry root legs task)
    (known : registry.IsKnown root) :
    ∀ layer ∈ (legs.map Leg.step).map Step.env, layer ∈ registry.environments := by
  intro layer member
  obtain ⟨step, stepMember, rfl⟩ := List.mem_map.mp member
  obtain ⟨leg, legMember, rfl⟩ := List.mem_map.mp stepMember
  obtain ⟨spawning, spawningKnown, own⟩ := (descent.isKnown known).2 leg legMember
  exact spawningKnown.step_env_mem_environments own

/-- What all names and all values have that a registry or its base sets, those have that a
rendering exports. -/
theorem Arises.forall_exports (ofName ofValue : String → Prop)
    (layered : base.layer = .ok (Env.entries lowest)) (known : registry.IsKnown root)
    (lowestKnown : ∀ entry ∈ lowest, ofName entry.1 ∧ ofValue entry.2)
    (setKnown : ∀ env ∈ registry.environments, ∀ entry ∈ env,
      ofName entry.1 ∧ ofValue entry.2)
    {exported : List (String × String)} {body : Row}
    (arises : Arises registry base root (.subshell (.exports exported body))) :
    ∀ entry ∈ exported, ofName entry.1 ∧ ofValue entry.2 := by
  cases arises with
  | @task legs task exported body descent bound =>
    rw [bindings_eq_mergeAll layered] at bound
    obtain rfl := Except.ok.inj bound
    refine Ordered.forall_mergeAll fun layer member => ?_
    simp only [List.mem_cons, List.not_mem_nil, or_false] at member
    rcases member with rfl | rfl | rfl | rfl
    · exact lowestKnown
    · exact setKnown _ List.mem_cons_self
    · exact setKnown _ (descent.isKnown known).1.env_mem_environments
    · exact Ordered.forall_mergeAll fun layer member =>
        setKnown layer (mem_environments_of_descent descent known layer member)
  | @step legs task step body descent member =>
    exact setKnown _ ((descent.isKnown known).1.step_env_mem_environments member)
  | group => exact fun entry member => by cases member

/-- Where the steps of a registry set each of their variables once, a rendering exports each
variable once in a subshell. -/
theorem Arises.nodup_exports (layered : base.layer = .ok (Env.entries lowest))
    (known : registry.IsKnown root)
    (distinct : ∀ env ∈ registry.environments, (Ordered.keys env).Nodup)
    {exported : List (String × String)} {body : Row}
    (arises : Arises registry base root (.subshell (.exports exported body))) :
    (Ordered.keys exported).Nodup := by
  cases arises with
  | task descent bound =>
    rw [bindings_eq_mergeAll layered] at bound
    obtain rfl := Except.ok.inj bound
    exact Ordered.nodup_mergeAll _
  | @step legs task step body descent member =>
    exact distinct _ ((descent.isKnown known).1.step_env_mem_environments member)
  | group => exact List.nodup_nil

/-! ### What is contained -/

/-- What the subshell of a fragment contains, the command of its task contains. -/
theorem mem_contents_frame {fragments : List Script} {command : Command}
    (framed : registry.frame base overlay task fragments = .ok command) {fragment : Script}
    (member : fragment ∈ fragments) {inner : Command}
    (inside : inner ∈ (Command.subshell fragment).contents) : inner ∈ command.contents := by
  obtain ⟨body, exported, gate, -, rfl⟩ := frame_eq_ok framed
  have inChain : Command.subshell fragment ∈ (Row.chain (fragments.map .subshell)).commands := by
    obtain ⟨index, there⟩ := List.getElem?_of_mem (List.mem_map_of_mem member)
    exact List.mem_of_getElem? (Row.commands_chain_getElem? there)
  rcases gated_eq_ok gate with ⟨-, text, -, rfl⟩ | ⟨-, rfl⟩
  · refine Command.mem_contents_of_mem_commands (List.mem_of_getElem? (Row.commands_gate _ _)) ?_
    exact Command.mem_contents_of_mem_commands inChain inside
  · exact Command.mem_contents_of_mem_commands inChain inside

/-- What is at a place of a command, the command contains. -/
theorem mem_contents_of_commandAt? {command inner : Command} {places : List Nat}
    (there : commandAt? command places = some inner) : inner ∈ command.contents := by
  induction places generalizing command with
  | nil =>
    rw [commandAt?] at there
    obtain rfl := Option.some.inj there
    exact Command.mem_contents_self command
  | cons position rest inductionHypothesis =>
    unfold commandAt? at there
    split at there
    · cases ‹position :: rest = []›
    · rename_i bindings body _ _ same
      obtain ⟨rfl, rfl⟩ := List.cons.inj same
      split at there
      · rename_i outer located
        exact Command.mem_contents_of_mem_commands (List.mem_of_getElem? located)
          (inductionHypothesis there)
      · cases there
    · cases there

/-- The command of a task contains the command of every task that legs lead to, under all that the
legs push down. -/
theorem exists_framed_of_descent {last : Task} {legs : List Leg} {command : Command}
    (commanded : (registry.taskCommand base task).result = .ok command)
    (descent : Descent registry task legs last) :
    ∃ below inner, ∃ nested : Command,
      Unfolds registry base (pushed (legs.map Leg.step)) below last.steps inner ∧
      registry.frame base (pushed (legs.map Leg.step)) last inner = .ok nested ∧
      nested ∈ command.contents := by
  obtain ⟨fragments, unfolds, framed⟩ := taskCommand_eq_ok commanded
  obtain ⟨below, inner, nested, nestedUnfolds, nestedFramed, nestedAt⟩ :=
    exists_commandAt?_of_descent descent unfolds framed
  have there : commandAt? command (nestedPlace task legs ++ []) = some nested := by
    rw [nestedAt, commandAt?]
  exact ⟨below, inner, nested, nestedUnfolds, nestedFramed, mem_contents_of_commandAt? there⟩

/-- The condition of a task that legs lead to has a subshell of its own. -/
theorem condition_mem_contents {last : Task} {legs : List Leg} {command : Command}
    (commanded : (registry.taskCommand base task).result = .ok command)
    (descent : Descent registry task legs last) {text : String}
    (given : last.condition.given? = some text) :
    (Command.leaf (.condition text)).inSubshell ∈ command.contents := by
  obtain ⟨below, inner, nested, -, nestedFramed, inside⟩ :=
    exists_framed_of_descent commanded descent
  refine Command.mem_contents_trans inside ?_
  obtain ⟨body, exported, gate, -, rfl⟩ := frame_eq_ok nestedFramed
  obtain ⟨isText, truthy⟩ := Value.eq_str_of_given? given
  rcases gated_eq_ok gate with ⟨-, other, worded, rfl⟩ | ⟨missing, -⟩
  · rw [isText] at worded
    obtain rfl : text = other := Except.ok.inj worded
    exact Command.mem_contents_of_mem_commands List.mem_cons_self (Command.mem_contents_self _)
  · rw [truthy] at missing
    cases missing

/-- A command that a task runs to which legs lead has a subshell of its own, behind its
variables. -/
theorem command_mem_contents {last : Task} {legs : List Leg} {command : Command}
    (commanded : (registry.taskCommand base task).result = .ok command)
    (descent : Descent registry task legs last) {step : Step} (member : step ∈ last.steps)
    {source : String} (runs : step.action = .run (.str source)) :
    .subshell (commandScript step.env (if Text.isBlankText source then nothing else source)) ∈
      command.contents := by
  obtain ⟨below, inner, nested, nestedUnfolds, nestedFramed, inside⟩ :=
    exists_framed_of_descent commanded descent
  refine Command.mem_contents_trans inside ?_
  obtain ⟨index, there⟩ := List.getElem?_of_mem member
  obtain ⟨fragment, located, stepUnfolds⟩ := nestedUnfolds.getElem? there
  cases stepUnfolds with
  | spawn spawns found fresh inside framed =>
    rw [runs] at spawns
    cases spawns
  | @run other text runsOther worded =>
    rw [runs] at runsOther
    obtain rfl := Action.run.inj runsOther
    rw [commandText_str] at worded
    obtain rfl := Except.ok.inj worded
    exact mem_contents_frame nestedFramed (List.mem_of_getElem? located)
      (Command.mem_contents_self _)

/-! ### Leaves of texts -/

/-- In a registry whose conditions are texts and whose steps run texts, what a rendering hands on
to the shell is a label, or the condition of a task that legs lead to, or a command of such a task.
A blank command is replaced by one that does nothing. -/
theorem Arises.leaf_cases (runsTexts : registry.RunsTexts)
    (conditions : registry.HasTextualConditions) (known : registry.IsKnown root) {leaf : Leaf}
    (arises : Arises registry base root (.leaf leaf)) :
    (∃ label, leaf = .echo label) ∨ ∃ legs last source, Descent registry root legs last ∧
      (last.condition.given? = some source ∧ leaf = .condition source ∨
        ∃ step ∈ last.steps, step.action = .run (.str source) ∧
          leaf = .command (if Text.isBlankText source then nothing else source)) := by
  cases arises with
  | @label text => exact Or.inl ⟨text, rfl⟩
  | @condition legs last text descent truthy worded =>
    obtain ⟨entry, member, rfl⟩ := (descent.isKnown known).1
    rcases (conditions entry member).cases_given with ⟨missing, -⟩ | ⟨source, isText, -, given⟩
    · rw [truthy] at missing
      cases missing
    · rw [isText] at worded
      obtain rfl : source = text := Except.ok.inj worded
      exact Or.inr ⟨legs, _, source, descent, Or.inl ⟨given, rfl⟩⟩
  | @command legs last step source text descent own runs worded =>
    obtain ⟨entry, member, rfl⟩ := (descent.isKnown known).1
    obtain ⟨source, rfl⟩ := runsTexts entry member step own _ runs
    rw [commandText_str] at worded
    obtain rfl := Except.ok.inj worded
    exact Or.inr ⟨legs, _, source, descent, Or.inr ⟨step, own, runs, rfl⟩⟩

end Registry

end Taskbook
