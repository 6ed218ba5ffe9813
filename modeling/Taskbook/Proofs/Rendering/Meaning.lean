/-
What a rendered task does when a shell runs it.

What a task is to do is told without any script: its condition decides whether its steps
run, a step shows its label and then runs its command or its subtask, and the first failure
ends it all. The command that a task is rendered to does the same. Whatever the leaves do,
running it runs the same leaves in the same order and ends with the same status, because
every subtask is a subshell of its own, a skipped one counts as a success, and a chain stops
where a step fails.
-/

import Taskbook.Proofs.Environment
import Taskbook.Proofs.Rendering.Unfolding
import Taskbook.Proofs.Shell.Execution
import Taskbook.Proofs.Textual

namespace Taskbook.Registry

open Shell

/-! ### Running tasks -/

/-- The text of an inline command: a blank one does nothing. -/
def inlineText (source : String) : String :=
  if Text.isBlankText source then nothing else source

mutual

/-- What running a task after some leaves comes to. -/
inductive TaskRuns (registry : Registry) (statuses : Statuses) : Task → List Leaf → Outcome → Prop
  /-- A task without a condition runs its steps. -/
  | unconditional {task : Task} {before : List Leaf} {outcome : Outcome}
      (always : task.condition.given? = none)
      (steps : StepsRun registry statuses task.steps before outcome) :
      TaskRuns registry statuses task before outcome
  /-- A task whose condition fails is skipped with success. -/
  | skipped {task : Task} {before : List Leaf} {condition : String}
      (gate : task.condition.given? = some condition)
      (refused : statuses before (.condition condition) ≠ 0) :
      TaskRuns registry statuses task before ⟨before ++ [.condition condition], 0⟩
  /-- A task whose condition holds runs its steps after it. -/
  | admitted {task : Task} {before : List Leaf} {condition : String} {outcome : Outcome}
      (gate : task.condition.given? = some condition)
      (accepted : statuses before (.condition condition) = 0)
      (steps : StepsRun registry statuses task.steps (before ++ [.condition condition]) outcome) :
      TaskRuns registry statuses task before outcome

/-- What running some steps one after the other comes to. -/
inductive StepsRun (registry : Registry) (statuses : Statuses) :
    List Step → List Leaf → Outcome → Prop
  | done {before : List Leaf} : StepsRun registry statuses [] before ⟨before, 0⟩
  /-- The first failure ends the run. -/
  | failed {step : Step} {rest : List Step} {before : List Leaf} {outcome : Outcome}
      (run : StepRuns registry statuses step before outcome)
      (failure : outcome.status ≠ 0) :
      StepsRun registry statuses (step :: rest) before outcome
  | continued {step : Step} {rest : List Step} {before : List Leaf} {between outcome : Outcome}
      (run : StepRuns registry statuses step before between)
      (success : between.status = 0)
      (further : StepsRun registry statuses rest between.leaves outcome) :
      StepsRun registry statuses (step :: rest) before outcome

/-- What running a step comes to. -/
inductive StepRuns (registry : Registry) (statuses : Statuses) : Step → List Leaf → Outcome → Prop
  | unlabelled {step : Step} {before : List Leaf} {outcome : Outcome}
      (plain : step.label.given? = none)
      (run : ActionRuns registry statuses step.action before outcome) :
      StepRuns registry statuses step before outcome
  /-- A label that cannot be shown fails like a command. -/
  | unshown {step : Step} {before : List Leaf} {label : String}
      (labelled : step.label.given? = some label)
      (failure : statuses before (.echo label) ≠ 0) :
      StepRuns registry statuses step before
        ⟨before ++ [.echo label], statuses before (.echo label)⟩
  | shown {step : Step} {before : List Leaf} {label : String} {outcome : Outcome}
      (labelled : step.label.given? = some label)
      (success : statuses before (.echo label) = 0)
      (run : ActionRuns registry statuses step.action (before ++ [.echo label]) outcome) :
      StepRuns registry statuses step before outcome

/-- What the action of a step comes to: its command, or the whole of its subtask. -/
inductive ActionRuns (registry : Registry) (statuses : Statuses) :
    Action → List Leaf → Outcome → Prop
  | command {before : List Leaf} {source : String} :
      ActionRuns registry statuses (.run (.str source)) before
        ⟨before ++ [.command (inlineText source)],
          statuses before (.command (inlineText source))⟩
  | subtask {before : List Leaf} {target : Value} {name : String} {task : Task}
      {outcome : Outcome}
      (found : registry.resolve target = .ok (some (name, task)))
      (run : TaskRuns registry statuses task before outcome) :
      ActionRuns registry statuses (.spawn target) before outcome

end

/-! ### What a run was -/

variable {registry : Registry} {statuses : Statuses} {before : List Leaf} {outcome : Outcome}

theorem stepsRun_nil_iff : ⟨before, 0⟩ = outcome ↔ StepsRun registry statuses [] before outcome := by
  constructor
  · rintro rfl
    exact .done
  · intro runs
    cases runs with
    | done => rfl

theorem taskRuns_unconditional_iff {task : Task} (always : task.condition.given? = none) :
    StepsRun registry statuses task.steps before outcome ↔
      TaskRuns registry statuses task before outcome := by
  constructor
  · exact .unconditional always
  · intro runs
    cases runs with
    | unconditional _ steps => exact steps
    | skipped gate _ => simp [always] at gate
    | admitted gate _ _ => simp [always] at gate

theorem taskRuns_admitted_iff {task : Task} {condition : String}
    (gate : task.condition.given? = some condition)
    (accepted : statuses before (.condition condition) = 0) :
    StepsRun registry statuses task.steps (before ++ [.condition condition]) outcome ↔
      TaskRuns registry statuses task before outcome := by
  constructor
  · exact .admitted gate accepted
  · intro runs
    cases runs with
    | unconditional always _ => simp [gate] at always
    | skipped other refused =>
      obtain rfl := Option.some.inj (gate.symm.trans other)
      exact absurd accepted refused
    | admitted other _ steps =>
      obtain rfl := Option.some.inj (gate.symm.trans other)
      exact steps

theorem taskRuns_skipped_iff {task : Task} {condition : String}
    (gate : task.condition.given? = some condition)
    (refused : statuses before (.condition condition) ≠ 0) :
    ⟨before ++ [.condition condition], 0⟩ = outcome ↔
      TaskRuns registry statuses task before outcome := by
  constructor
  · rintro rfl
    exact .skipped gate refused
  · intro runs
    cases runs with
    | unconditional always _ => simp [gate] at always
    | skipped other _ =>
      obtain rfl := Option.some.inj (gate.symm.trans other)
      rfl
    | admitted other accepted _ =>
      obtain rfl := Option.some.inj (gate.symm.trans other)
      exact absurd accepted refused

theorem stepRuns_unlabelled_iff {step : Step} (plain : step.label.given? = none) :
    ActionRuns registry statuses step.action before outcome ↔
      StepRuns registry statuses step before outcome := by
  constructor
  · exact .unlabelled plain
  · intro runs
    cases runs with
    | unlabelled _ run => exact run
    | unshown labelled _ => simp [plain] at labelled
    | shown labelled _ _ => simp [plain] at labelled

theorem stepRuns_shown_iff {step : Step} {label : String}
    (labelled : step.label.given? = some label) (success : statuses before (.echo label) = 0) :
    ActionRuns registry statuses step.action (before ++ [.echo label]) outcome ↔
      StepRuns registry statuses step before outcome := by
  constructor
  · exact .shown labelled success
  · intro runs
    cases runs with
    | unlabelled plain _ => simp [labelled] at plain
    | unshown other failure =>
      obtain rfl := Option.some.inj (labelled.symm.trans other)
      exact absurd success failure
    | shown other _ run =>
      obtain rfl := Option.some.inj (labelled.symm.trans other)
      exact run

theorem stepRuns_unshown_iff {step : Step} {label : String}
    (labelled : step.label.given? = some label) (failure : statuses before (.echo label) ≠ 0) :
    ⟨before ++ [.echo label], statuses before (.echo label)⟩ = outcome ↔
      StepRuns registry statuses step before outcome := by
  constructor
  · rintro rfl
    exact .unshown labelled failure
  · intro runs
    cases runs with
    | unlabelled plain _ => simp [labelled] at plain
    | unshown other _ =>
      obtain rfl := Option.some.inj (labelled.symm.trans other)
      rfl
    | shown other success _ =>
      obtain rfl := Option.some.inj (labelled.symm.trans other)
      exact absurd success failure

theorem commandRuns_iff {source : String} :
    ⟨before ++ [.command (inlineText source)], statuses before (.command (inlineText source))⟩ =
        outcome ↔
      ActionRuns registry statuses (.run (.str source)) before outcome := by
  constructor
  · rintro rfl
    exact .command
  · intro runs
    cases runs with
    | command => rfl

/-- Spawning the task that is found runs that task. -/
theorem spawnRuns_iff {target : Value} {name : String} {task : Task}
    (found : registry.resolve target = .ok (some (name, task))) :
    TaskRuns registry statuses task before outcome ↔
      ActionRuns registry statuses (.spawn target) before outcome := by
  constructor
  · exact .subtask found
  · intro runs
    cases runs with
    | subtask other run =>
      rw [found] at other
      obtain ⟨-, rfl⟩ := Prod.mk.inj (Option.some.inj (Except.ok.inj other))
      exact run

/-- What must run for a step that runs. -/
theorem stepsRun_cons_iff {step : Step} {rest : List Step} {run : List Leaf → Outcome}
    {further : List Leaf → Outcome}
    (stepIff : ∀ before outcome,
      run before = outcome ↔ StepRuns registry statuses step before outcome)
    (restIff : ∀ before outcome,
      further before = outcome ↔ StepsRun registry statuses rest before outcome) :
    (run before).ifSucceeded further = outcome ↔
      StepsRun registry statuses (step :: rest) before outcome := by
  unfold Outcome.ifSucceeded
  constructor
  · intro ran
    by_cases success : (run before).status = 0
    · rw [if_pos success] at ran
      exact .continued ((stepIff before _).mp rfl) success ((restIff _ _).mp ran)
    · rw [if_neg success] at ran
      exact .failed ((stepIff before outcome).mp ran) (ran ▸ success)
  · intro runs
    cases runs with
    | failed ran failure =>
      rw [(stepIff before outcome).mpr ran, if_neg failure]
    | continued ran success others =>
      rw [(stepIff before _).mpr ran, if_pos success]
      exact (restIff _ _).mpr others

/-! ### The steps of a rendering -/

variable {base : Value} {overlay : Env} {path : List Value}

/-- A label is shown before the action of its step, and only where that succeeds the action
runs. -/
theorem stepRuns_iff {step : Step} {label : List Script} {action : Command}
    (textual : step.label.IsTextOrNull) (labelled : labelScript step.label = .ok label)
    (actionIff : ∀ before outcome,
      action.run statuses before = outcome ↔
        ActionRuns registry statuses step.action before outcome)
    (before : List Leaf) (outcome : Outcome) :
    runAll statuses (label.map .subshell ++ [action]) before = outcome ↔
      StepRuns registry statuses step before outcome := by
  have last : runAll statuses [action] = action.run statuses :=
    funext fun leaves => ifSucceeded_done _
  rw [runAll_append, last]
  unfold labelScript at labelled
  rcases textual.cases_given with ⟨absent, given⟩ | ⟨text, same, present, given⟩
  · rw [if_neg (by simp [absent])] at labelled
    obtain rfl := Except.ok.inj labelled
    rw [List.map_nil, runAll, Outcome.ifSucceeded, if_pos rfl, actionIff]
    exact stepRuns_unlabelled_iff given
  · rw [if_pos present, same] at labelled
    obtain rfl := Except.ok.inj labelled
    have echoed : runAll statuses ([(Command.leaf (.echo text)).alone].map .subshell) before =
        ⟨before ++ [.echo text], statuses before (.echo text)⟩ := by
      simp only [List.map_cons, List.map_nil, runAll, ifSucceeded_done, Command.run, run_alone,
        Leaf.run]
    rw [echoed, Outcome.ifSucceeded]
    by_cases success : statuses before (.echo text) = 0
    · rw [if_pos success, actionIff]
      exact stepRuns_shown_iff given success
    · rw [if_neg success]
      exact stepRuns_unshown_iff given success

/-- An inline command is the one leaf of its script. -/
theorem run_commandScript {source text : String} {env : Env}
    (worded : commandText (.str source) env = .ok text) (before : List Leaf) :
    (Command.subshell (commandScript env text)).run statuses before =
      ⟨before ++ [.command (inlineText source)],
        statuses before (.command (inlineText source))⟩ := by
  have same : text = inlineText source := by
    rw [commandText_str] at worded
    exact (Except.ok.inj worded).symm
  subst same
  simp only [Command.run, commandScript, Script.run, Row.run, Pipeline.run, Leaf.run]

/-- The subshell of a task runs its condition and then its steps, given that these run as they
should. -/
theorem taskRuns_iff {task : Task} {fragments : List Script} {command : Command}
    (textual : task.condition.IsTextOrNull)
    (framed : registry.frame base overlay task fragments = .ok command)
    (stepsIff : ∀ before outcome,
      runAll statuses (fragments.map .subshell) before = outcome ↔
        StepsRun registry statuses task.steps before outcome)
    (before : List Leaf) (outcome : Outcome) :
    command.run statuses before = outcome ↔ TaskRuns registry statuses task before outcome := by
  obtain ⟨body, gate, framed⟩ := bind_eq_ok.mp framed
  obtain ⟨exported, -, same⟩ := bind_eq_ok.mp framed
  obtain rfl := Except.ok.inj same
  rw [Command.run, Script.run]
  unfold gated at gate
  rcases textual.cases_given with ⟨absent, given⟩ | ⟨text, same, present, given⟩
  · rw [if_neg (by simp [absent])] at gate
    obtain rfl := Except.ok.inj gate
    rw [run_chain, stepsIff]
    exact taskRuns_unconditional_iff given
  · rw [if_pos present, same] at gate
    obtain rfl := Except.ok.inj gate
    rw [run_gate]
    by_cases accepted : statuses before (.condition text) = 0
    · rw [if_pos accepted, run_chain, stepsIff]
      exact taskRuns_admitted_iff given accepted
    · rw [if_neg accepted]
      exact taskRuns_skipped_iff given accepted

/-- The scripts that steps unfold to run what the steps are to run. The induction is on the
unfolding: inside a step that spawns it has done the steps of the spawned task already. -/
theorem stepsRun_iff {steps : List Step} {fragments : List Script}
    (conditions : registry.HasTextualConditions) (textual : registry.HasTextualSteps)
    (textualHere : ∀ step ∈ steps, step.IsTextual)
    (unfolds : Unfolds registry base overlay path steps fragments) (before : List Leaf)
    (outcome : Outcome) :
    runAll statuses (fragments.map .subshell) before = outcome ↔
      StepsRun registry statuses steps before outcome := by
  have joined (label others : List Script) (fragment : Script) :
      runAll statuses ((label ++ fragment :: others).map .subshell) =
        fun before =>
          (runAll statuses (label.map .subshell ++ [.subshell fragment]) before).ifSucceeded
            (runAll statuses (others.map .subshell)) := by
    funext before
    rw [← runAll_append]
    simp only [List.map_append, List.map_cons, List.append_assoc, List.singleton_append]
  induction unfolds generalizing before outcome with
  | done =>
    rw [List.map_nil, runAll]
    exact stepsRun_nil_iff
  | @run overlay path step rest label others command text labelled runs worded further
      inductionHypothesis =>
    have stepTextual := textualHere step List.mem_cons_self
    rw [joined]
    refine stepsRun_cons_iff (stepRuns_iff stepTextual.label labelled ?_)
      (inductionHypothesis fun other member => textualHere other (List.mem_cons_of_mem _ member))
    intro before outcome
    obtain ⟨source, rfl⟩ := stepTextual.command command runs
    rw [runs, run_commandScript worded]
    exact commandRuns_iff
  | @spawn overlay path step rest label fragments others target name task command labelled spawns
      found fresh inside framed further insideHypothesis inductionHypothesis =>
    have member := mem_of_resolve found
    have stepTextual := textualHere step List.mem_cons_self
    rw [joined]
    refine stepsRun_cons_iff (stepRuns_iff stepTextual.label labelled ?_)
      (inductionHypothesis fun other member => textualHere other (List.mem_cons_of_mem _ member))
    intro before outcome
    rw [spawns, ← spawnRuns_iff found, Command.run, run_alone, run_inSubshell]
    exact taskRuns_iff (conditions _ member) framed
      (insideHypothesis (textual _ member)) before outcome

/-! ### Whole renderings -/

/-- A task that can be rendered is rendered to the text of a command which runs the leaves that
the task is to run, in the same order, and ends with the same status, whatever the leaves do. -/
theorem run_rendered_iff_taskRuns (registry : Registry)
    (conditions : registry.HasTextualConditions) (textual : registry.HasTextualSteps)
    (name base : Value) (text : String)
    (rendered : (registry.render name base).result = .ok text) :
    ∃ key task command, registry.resolve name = .ok (some (key, task)) ∧
      (registry.taskCommand base task).result = .ok command ∧ command.print = text ∧
      ∀ (statuses : Statuses) (before : List Leaf) (outcome : Outcome),
        command.run statuses before = outcome ↔
          TaskRuns registry statuses task before outcome := by
  obtain ⟨key, task, command, found, commanded, printed⟩ := render_eq_ok rendered
  obtain ⟨fragments, unfolds, framed⟩ := taskCommand_eq_ok commanded
  have member := mem_of_resolve found
  refine ⟨key, task, command, found, commanded, printed, fun statuses before outcome => ?_⟩
  exact taskRuns_iff (conditions _ member) framed
    (stepsRun_iff conditions textual (textual _ member) unfolds) before outcome

/-- A registry in which one task spawns another behind a condition. -/
def deployment : Registry :=
  ⟨[("CI", "1")],
    [("deploy",
        ⟨.str "deploy", .null, none, .str "test -d dist", [],
          [⟨.run (.str "make"), .str "Build", []⟩,
            ⟨.spawn (.str "upload"), .null, [("TO", "web")]⟩]⟩),
      ("upload",
        ⟨.str "upload", .null, none, .null, [],
          [⟨.run (.str " "), .null, []⟩, ⟨.run (.str "rsync"), .str "", []⟩]⟩)]⟩

/-- The command that the first task of the sample is rendered to. -/
def deploymentText : String :=
  "( export CI=\"1\"; ! ( test -d dist ) || ( ( echo Build ) && ( make ) && " ++
    "( ( ( export CI=\"1\"; export TO=\"web\"; ( true ) && ( rsync ) ) ) ) ) )"

theorem deployment_hasTextualConditions : deployment.HasTextualConditions := by
  intro entry member
  simp only [deployment, List.mem_cons, List.not_mem_nil, or_false] at member
  rcases member with rfl | rfl
  · exact Value.isTextOrNull_str _
  · exact Value.isTextOrNull_null

theorem deployment_hasTextualSteps : deployment.HasTextualSteps := by
  intro entry member step stepMember
  simp only [deployment, List.mem_cons, List.not_mem_nil, or_false] at member
  rcases member with rfl | rfl <;>
    simp only [List.mem_cons, List.not_mem_nil, or_false] at stepMember <;>
    rcases stepMember with rfl | rfl
  · exact Step.isTextual_run (Value.isTextOrNull_str _) _ _
  · exact Step.isTextual_spawn Value.isTextOrNull_null _ _
  · exact Step.isTextual_run Value.isTextOrNull_null _ _
  · exact Step.isTextual_run (Value.isTextOrNull_str _) _ _

theorem deployment_run :
    (deployment.HasTextualConditions ∧ deployment.HasTextualSteps ∧
      (deployment.render (.str "deploy") .null).result = .ok deploymentText) ∧
    ∃ key task command, deployment.resolve (.str "deploy") = .ok (some (key, task)) ∧
      (deployment.taskCommand .null task).result = .ok command ∧
      command.print = deploymentText ∧
      ∀ (statuses : Statuses) (before : List Leaf) (outcome : Outcome),
        command.run statuses before = outcome ↔
          TaskRuns deployment statuses task before outcome := by
  have uploads : Unfolds deployment .null [("TO", "web")] [.str "deploy", .str "upload"]
      [⟨.run (.str " "), .null, []⟩, ⟨.run (.str "rsync"), .str "", []⟩] _ :=
    .run rfl rfl rfl (.run rfl rfl rfl .done)
  have unfolds : Unfolds deployment .null [] [.str "deploy"]
      [⟨.run (.str "make"), .str "Build", []⟩, ⟨.spawn (.str "upload"), .null, [("TO", "web")]⟩]
      _ :=
    .run rfl rfl rfl (.spawn rfl rfl rfl rfl uploads (frame_of_layer Env.layer_null rfl) .done)
  have rendered : (deployment.render (.str "deploy") .null).result = .ok deploymentText := by
    rw [render_of_unfolds rfl unfolds (frame_of_layer Env.layer_null rfl)]
    exact congrArg Except.ok (by decide +kernel)
  exact ⟨⟨deployment_hasTextualConditions, deployment_hasTextualSteps, rendered⟩,
    run_rendered_iff_taskRuns deployment deployment_hasTextualConditions
      deployment_hasTextualSteps _ _ _ rendered⟩

end Taskbook.Registry
