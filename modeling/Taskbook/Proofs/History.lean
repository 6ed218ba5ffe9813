/-
The steps of a task after any calls that change it.

A call puts a step before all others or behind them, or it removes them all and perhaps puts one
step there, or it leaves the steps alone. Which of these it does, and whether it can be made, is
decided by the call alone and not by the task. So the steps of a task are found from the calls: they
are those put in front since the last reset, the last one first, then the step that the reset put
there, then those put behind since, the first one first. A call that fails puts nothing anywhere,
but a reset that fails has removed all steps by then.

A call at the end of the calls before it keeps this form, so it is proved by induction on the calls
from the last one on.
-/

import Mathlib.Data.List.DropRight
import Taskbook.Proofs.Changing
import Taskbook.Proofs.Rendering.Sequence

namespace Taskbook.Task

/-! ### Single calls -/

namespace Change

/-- The step that runs a command with the variables of an argument. -/
def runningIn (env : Argument) (command label : Value) : Except Error Step := do
  let env ← env.asked
  Step.running command label env

/-- The step that a call adds, if it is one that adds a step, or why it fails to. -/
def adding? : Change → Option (Except Error Step)
  | run command label env => some (runningIn env command label)
  | runFirst command label env => some (runningIn env command label)
  | spawn (some target) label env => some do
    let env ← env.asked
    Step.spawning target label env
  | spawn none _ _ => some (.error (.fault .missingPart))
  | addStep record => some do
    let record ← record.asked
    Step.ofRecord record
  | reset _ => none
  | setVariable _ _ => none
  | commit message username email add label env => some do
    let command ← commitCommand message username email add
    runningIn env (.str command) label
  | push branch tags label env => some do
    let command ← pushCommand branch tags
    runningIn env (.str command) label

/-- The step that a call adds, if it does not fail. -/
def step? (change : Change) : Option Step :=
  match change.adding? with
  | some (.ok step) => some step
  | _ => none

/-- Whether a call adds its step before all others. -/
def isFront : Change → Bool
  | runFirst .. => true
  | _ => false

/-- What a call resets a task to, if it is one that does. -/
def seed? : Change → Option Argument
  | reset command => some command
  | _ => none

end Change

/-- A task with a step before all others, or behind them. -/
def insert (front : Bool) (task : Task) (step : Step) : Task :=
  if front then { task with steps := step :: task.steps } else task.addStep step

variable {task changed : Task} {change : Change}

/-- A command that is added behind is the step that runs it, added behind. -/
theorem run_asked (task : Task) (env : Argument) (command label : Value) :
    (orFault env.asked >>= fun env => task.run command label env) =
      (Change.runningIn env command label).map task.addStep :=
  (map_bind _ _ _).symm

/-- What a call that adds a step makes of a task. Whether it can is up to the call. -/
theorem Change.outcome_of_adding? {made : Except Error Step} (adds : change.adding? = some made) :
    change.outcome task = made.map (task.insert change.isFront) := by
  cases change with
  | reset command => cases adds
  | setVariable name text => cases adds
  | spawn target? label env =>
    cases target? with
    | none =>
      obtain rfl := Option.some.inj adds
      rfl
    | some target =>
      obtain rfl := Option.some.inj adds
      exact (map_bind _ _ _).symm
  | runFirst command label env =>
    obtain rfl := Option.some.inj adds
    exact (map_bind _ _ _).symm
  | run command label env =>
    obtain rfl := Option.some.inj adds
    exact task.run_asked env command label
  | commit message username email add label env =>
    obtain rfl := Option.some.inj adds
    exact (bind_congr fun command => task.run_asked env (.str command) label).trans
      (map_bind _ _ _).symm
  | push branch tags label env =>
    obtain rfl := Option.some.inj adds
    exact (bind_congr fun command => task.run_asked env (.str command) label).trans
      (map_bind _ _ _).symm
  | addStep record =>
    obtain rfl := Option.some.inj adds
    exact (map_bind _ _ _).symm

/-- A call that fails leaves the task as it was unless it resets it. -/
theorem Change.leftBy_of_seed? (keeps : change.seed? = none) : change.leftBy task = task := by
  cases change with
  | reset command => cases keeps
  | _ => rfl

/-- What a call makes of the steps of a task: it resets them, or adds one at one of their ends, or
leaves them as they are. -/
theorem Change.steps_perform (change : Change) (task : Task) :
    (change.perform task).2.steps =
      match change.seed? with
      | some command => seeds command
      | none =>
        (if change.isFront then change.step?.toList else []) ++ task.steps ++
          if change.isFront then [] else change.step?.toList := by
  rw [change.perform_apply]
  cases adds : change.adding? with
  | some made =>
    have keeps : change.seed? = none := by
      cases change with
      | reset command => cases adds
      | _ => rfl
    rw [outcome_of_adding? adds, leftBy_of_seed? keeps, keeps, step?, adds]
    cases made with
    | error error => simp [Except.map, InPlace.settled]
    | ok step =>
      cases front : change.isFront with
      | false => simp [Except.map, InPlace.settled, insert, Task.addStep]
      | true => simp [Except.map, InPlace.settled, insert]
  | none =>
    cases change with
    | reset command =>
      cases command with
      | refusing fault => rfl
      | value given =>
        have emptied : outcome task (.reset given) =
            .ok { task with steps := [] ++ seeds given } :=
          seed_value { task with steps := [] } given
        rw [emptied]
        rfl
    | setVariable name text =>
      rw [outcome, leftBy_of_seed? rfl]
      cases set : task.setVariable name text with
      | error error => simp [InPlace.settled, isFront, step?, seed?, adding?]
      | ok changed =>
        obtain ⟨env, -, rfl⟩ := setVariable_eq_ok set
        simp [InPlace.settled, isFront, step?, seed?, adding?]
    | spawn target? label env => cases target? <;> cases adds
    | _ => cases adds

/-! ### Any calls -/

/-- What calls make of a task, one after the other. One that fails does not keep the others from
being made. -/
def after (task : Task) (changes : List Change) : Task :=
  changes.foldl (fun task change => (change.perform task).2) task

/-- The calls since the last reset. -/
def sinceReset (changes : List Change) : List Change :=
  changes.rtakeWhile fun change => change.seed?.isNone

/-- The command of the last reset, or the one that there was at first. -/
def lastSeed (first : Argument) (changes : List Change) : Argument :=
  ((changes.filterMap Change.seed?).getLast?).getD first

/-- The steps that calls put in front, the last one first. -/
def inFront (changes : List Change) : List Step :=
  ((changes.filter Change.isFront).filterMap Change.step?).reverse

/-- The steps that calls put behind, the first one first. -/
def behind (changes : List Change) : List Step :=
  (changes.filter fun change => !change.isFront).filterMap Change.step?

theorem after_concat (task : Task) (changes : List Change) (change : Change) :
    task.after (changes ++ [change]) = (change.perform (task.after changes)).2 := by
  rw [after, List.foldl_append]
  rfl

/-- The steps after any calls are those put in front since the last reset, the step that was there
then, and those put behind since. -/
theorem steps_after {command : Argument} (start : task.steps = seeds command)
    (changes : List Change) : (task.after changes).steps =
      inFront (sinceReset changes) ++ seeds (lastSeed command changes) ++
        behind (sinceReset changes) := by
  induction changes using List.reverseRecOn with
  | nil => simp [after, sinceReset, lastSeed, inFront, behind, start]
  | append_singleton changes change inductionHypothesis =>
    rw [after_concat, change.steps_perform, inductionHypothesis]
    cases resets : change.seed? with
    | some seed =>
      have empty : sinceReset (changes ++ [change]) = [] :=
        List.rtakeWhile_concat_neg _ _ _ (by simp [resets])
      have last : lastSeed command (changes ++ [change]) = seed := by
        simp [lastSeed, List.filterMap_append, resets]
      rw [empty, last]
      simp [inFront, behind]
    | none =>
      have longer : sinceReset (changes ++ [change]) = sinceReset changes ++ [change] :=
        List.rtakeWhile_concat_pos _ _ _ (by simp [resets])
      have same : lastSeed command (changes ++ [change]) = lastSeed command changes := by
        simp [lastSeed, List.filterMap_append, resets]
      rw [longer, same]
      cases front : change.isFront <;> cases added : change.step? <;>
        simp [inFront, behind, List.filter_append, List.filterMap_append, front, added]

/-- A task that is made with a command, or without one, starts from that. -/
theorem steps_of_create {name description category condition : Value} {env command : Argument}
    (created : create name description category condition env command = .ok task) :
    task.steps = seeds command := by
  obtain ⟨band, -, created⟩ := bind_eq_ok.mp created
  obtain ⟨settings, -, created⟩ := bind_eq_ok.mp created
  obtain ⟨given, rfl, -⟩ := Argument.asked_bind_eq_ok.mp created
  rw [seed_value] at created
  rw [← Except.ok.inj created, List.nil_append]

/-- A task is made, and then it is called any number of times, whether a call fails or not. Its
steps are those put in front since the last reset, the last one first, then the step that the reset
put there, or the task was made with, then those put behind since. A call that adds a step fails
exactly if there is no such step, and a reset does not fail if what it is given can be asked whether
it is a command. If the task can be rendered, the rendering chains one script for each of the steps,
in their order and behind that of its label if it has one. -/
theorem steps_after_create {name description category condition : Value} {env command : Argument}
    (created : create name description category condition env command = .ok task)
    (changes : List Change) :
    (task.after changes).steps = inFront (sinceReset changes) ++
        seeds (lastSeed command changes) ++ behind (sinceReset changes) ∧
      (∀ earlier change later, changes = earlier ++ change :: later →
        (∀ made, change.adding? = some made →
          (change.perform (task.after earlier)).1 = made.map fun _ => ()) ∧
        (∀ seed, change.seed? = some seed →
          (change.perform (task.after earlier)).1 = (orFault seed.asked).map fun _ => ())) ∧
      ∀ (registry : Registry) (base : Value) (text : String),
        (registry.renderTask base (task.after changes)).result = .ok text →
        ∃ own exported body,
          List.Forall₂ (Registry.StepUnfolds registry base [] [(task.after changes).name])
            (task.after changes).steps own ∧
          Registry.bindings base [registry.env, (task.after changes).env, []] = .ok exported ∧
          Shell.IsGated (task.after changes).condition (Shell.chained
            ((Registry.sequence (task.after changes).steps own).map Shell.Script.print)) body ∧
          text = Shell.grouped (Shell.printExports exported ++ body) := by
  refine ⟨steps_after (steps_of_create created) changes, ?_,
    fun registry base text rendered => Registry.renderTask_eq_ok rendered⟩
  intro earlier change later _
  constructor
  · intro made adds
    rw [change.perform_apply, change.outcome_of_adding? adds]
    cases made with
    | error error => rfl
    | ok step => rfl
  · intro seed resets
    cases change with
    | reset command =>
      obtain rfl := Option.some.inj resets
      rw [Change.perform_apply, Change.outcome, Task.reset]
      cases command with
      | value given =>
        rw [seed_value]
        rfl
      | refusing fault => rfl
    | _ => cases resets

/-- Calls of which the third and the sixth fail, and the fourth takes back what was before it. -/
def sampleCalls : List Change :=
  [.run (.str "first") .null .null, .runFirst (.str "second") .null .null,
    .addStep (Value.ofEntries [(.str "exec", .str "a"), (.str "exec_task", .str "b")]),
    .reset (Value.str "date"),
    .run (.str "make") (.str "Make") (Value.ofEntries [(.str "J", .str "4")]),
    .runFirst .null .null .null, .runFirst (.str "env") .null .null,
    .spawn (some (.str "tidy")) .null .null,
    .commit (.str "done") .null (Value.str "a@b") (Value.bool true) .null .null,
    .push (.str "main") (Value.bool true) (.str "Push") .null, .runFirst (.str "id") .null .null]

/-- The steps that are there after these calls. -/
def sampleSteps : List Step :=
  [⟨.run (.str "id"), .null, []⟩, ⟨.run (.str "env"), .null, []⟩, ⟨.run (.str "date"), .null, []⟩,
    ⟨.run (.str "make"), .str "Make", [("J", "4")]⟩, ⟨.spawn (.str "tidy"), .null, []⟩,
    ⟨.run (.str "git config user.email \"a@b\" && git commit -a -m \"done\""), .null, []⟩,
    ⟨.run (.str "git push --follow-tags origin main"), .str "Push", []⟩]

/-- The registry of the sample, with the task that is spawned. -/
def sampleRegistry : Registry :=
  ⟨[], [("tidy", ⟨.str "tidy", .null, none, .null, [], [⟨.run (.str "rm"), .null, []⟩]⟩)]⟩

/-- The text that the task of the sample is rendered to. -/
def sampleText : String :=
  "( ( id ) && ( env ) && ( date ) && ( echo Make ) && ( export J=\"4\"; make ) && " ++
    "( ( ( ( rm ) ) ) ) && ( git config user.email \"a@b\" && git commit -a -m \"done\" ) && " ++
    "( echo Push ) && ( git push --follow-tags origin main ) )"

/-- The calls of the sample lead to its steps, and these are rendered as `steps_after_create` has
it. -/
theorem sample_steps_after_create :
    let created : Task := ⟨.str "build", .null, none, .null, [], [⟨.run (.str "ls"), .null, []⟩]⟩
    let changed : Task := ⟨.str "build", .null, none, .null, [], sampleSteps⟩
    (create (.str "build") .null .null .null .null (Value.str "ls") = .ok created ∧
      (sampleRegistry.renderTask .null (created.after sampleCalls)).result = .ok sampleText) ∧
    created.after sampleCalls = changed ∧
    sampleSteps = inFront (sinceReset sampleCalls) ++
      seeds (lastSeed (Value.str "ls") sampleCalls) ++ behind (sinceReset sampleCalls) ∧
    (Change.runFirst .null .null .null).adding? = some (.error .stepAction) ∧
    ((Change.runFirst .null .null .null).perform (created.after (sampleCalls.take 5))).1 =
      .error .stepAction ∧
    ∃ own exported body,
      List.Forall₂ (Registry.StepUnfolds sampleRegistry .null [] [.str "build"]) sampleSteps own ∧
      Registry.bindings .null [[], [], []] = .ok exported ∧
      Shell.IsGated .null (Shell.chained
        ((Registry.sequence sampleSteps own).map Shell.Script.print)) body ∧
      sampleText = Shell.grouped (Shell.printExports exported ++ body) := by
  intro created changed
  have made : create (.str "build") .null .null .null .null (Value.str "ls") = .ok created := rfl
  have calls : created.after sampleCalls = changed := rfl
  have tidies : Registry.Unfolds sampleRegistry .null [] [.str "build", .str "tidy"]
      [⟨.run (.str "rm"), .null, []⟩] _ :=
    .run rfl rfl rfl .done
  have unfolds : Registry.Unfolds sampleRegistry .null [] [.str "build"] sampleSteps _ :=
    .run rfl rfl rfl (.run rfl rfl rfl (.run rfl rfl rfl (.run rfl rfl rfl
      (.spawn rfl rfl rfl rfl tidies rfl (.run rfl rfl rfl (.run rfl rfl rfl .done))))))
  have rendered : (sampleRegistry.renderTask .null changed).result = .ok sampleText := by
    rw [Registry.renderTask, Logged.result_bind, Registry.taskCommand_of_unfolds unfolds rfl]
    exact congrArg Except.ok (by decide +kernel)
  obtain ⟨steps, fails, renders⟩ := steps_after_create made sampleCalls
  have adds : (Change.runFirst .null .null .null).adding? = some (.error .stepAction) := rfl
  rw [calls] at steps renders
  exact ⟨⟨made, calls ▸ rendered⟩, calls, steps, adds,
    (fails (sampleCalls.take 5) _ (sampleCalls.drop 6) rfl).1 _ adds,
    renders sampleRegistry .null sampleText rendered⟩

end Taskbook.Task
