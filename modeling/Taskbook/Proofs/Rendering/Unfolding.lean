/-
What a rendering unfolds.

The scripts of some steps come one step after the other: its label, then what its action
becomes. A rendering that succeeds leaves a derivation behind, `Unfolds`, with one case for
each kind of step. Everything that is said of successful renderings is said by induction on
it, so that the recursion of the renderer, which ends for reasons of its own, is opened
here and nowhere else.
-/

import Taskbook.Proofs.Registry
import Taskbook.Proofs.Textual

namespace Taskbook.Registry

open Shell

variable {registry : Registry} {base owner : Value} {overlay : Env} {path : List Value}

/-! ### Step after step -/

/-- What the action of a step becomes, and what is written to the log on the way. -/
def loggedAction (registry : Registry) (base : Value) (overlay : Env) (path : List Value)
    (owner : Value) (step : Step) : Logged Script :=
  match step.action with
  | .run command => do
    let text ← commandText command step.env
    Logged.succeed (commandScript step.env text)
  | .spawn target =>
    match registry.resolve target with
    | .error fault => Logged.fail (.fault fault)
    | .ok none => Logged.fail (.subtaskMissing target owner)
    | .ok (some (name, task)) =>
      if isOnPath name path then Logged.fail (.cycle (path ++ [.str name]))
      else do
        let above := overlay.merge step.env
        Logged.write (renderingRecord (path ++ [.str name]) name)
        let fragments ← stepScripts registry base above (path ++ [.str name]) task.name task.steps
        let command ← registry.frame base above task fragments
        Logged.succeed command.inSubshell.alone

/-- What the action of a step becomes. -/
def actionScript (registry : Registry) (base : Value) (overlay : Env) (path : List Value)
    (owner : Value) (step : Step) : Except Error Script :=
  match step.action with
  | .run command => (orFault (commandText command step.env)).map (commandScript step.env)
  | .spawn target =>
    match registry.resolve target with
    | .error fault => .error (.fault fault)
    | .ok none => .error (.subtaskMissing target owner)
    | .ok (some (name, task)) =>
      if isOnPath name path then .error (.cycle (path ++ [.str name]))
      else do
        let above := overlay.merge step.env
        let fragments ←
          (stepScripts registry base above (path ++ [.str name]) task.name task.steps).result
        let command ← orFault (registry.frame base above task fragments)
        return command.inSubshell.alone

/-- Without its log, what becomes of an action is its script. -/
theorem result_loggedAction (step : Step) :
    (loggedAction registry base overlay path owner step).result =
      actionScript registry base overlay path owner step := by
  rw [loggedAction, actionScript]
  cases step.action with
  | run command =>
    simp only [Logged.result_bind, Logged.result_liftFault, Logged.result_succeed]
    cases commandText command step.env with
    | error fault => rfl
    | ok text => rfl
  | spawn target =>
    dsimp only
    split
    · rfl
    · rfl
    · split
      · rfl
      · simp only [Logged.result_bind, Logged.result_liftFault, Logged.result_succeed,
          Logged.result_write, ok_bind]
        rfl

theorem stepScripts_nil :
    stepScripts registry base overlay path owner [] = Logged.succeed [] := by
  rw [stepScripts]

/-- The scripts of a step come before those of the steps behind it. -/
theorem stepScripts_cons (step : Step) (rest : List Step) :
    stepScripts registry base overlay path owner (step :: rest) = do
      let label ← labelScript step.label
      let fragment ← loggedAction registry base overlay path owner step
      let others ← stepScripts registry base overlay path owner rest
      return label ++ fragment :: others := by
  rw [stepScripts, loggedAction]
  congr 1
  funext label
  cases step.action with
  | run command =>
    dsimp only
    rw [bind_assoc]
    rfl
  | spawn target =>
    dsimp only
    split
    · rename_i fault found
      rw [found]
      rfl
    · rename_i found
      rw [found]
      rfl
    · rename_i name task found
      rw [found]
      dsimp only
      split
      · rfl
      · simp only [bind_assoc]
        rfl

@[simp]
theorem stepScripts_nil_result :
    (stepScripts registry base overlay path owner []).result = .ok [] := by
  rw [stepScripts_nil, Logged.result_succeed]

theorem stepScripts_cons_result (step : Step) (rest : List Step) :
    (stepScripts registry base overlay path owner (step :: rest)).result = do
      let label ← orFault (labelScript step.label)
      let fragment ← actionScript registry base overlay path owner step
      let others ← (stepScripts registry base overlay path owner rest).result
      return label ++ fragment :: others := by
  simp only [stepScripts_cons, Logged.result_bind, Logged.result_liftFault, result_loggedAction,
    Logged.result_pure]
  rfl

/-- The shell text of a command that is a text. A blank one does nothing, the empty one too. -/
theorem commandText_str (source : String) (env : Env) :
    commandText (.str source) env = .ok (if Text.isBlankText source then nothing else source) := by
  rw [commandText, Value.isTruthy_str]
  split
  · rfl
  · rename_i empty
    have empty : source = "" := by simpa using empty
    subst empty
    rfl

/-! ### Derivations of successful renderings -/

/-- The scripts that some steps unfold to at the end of a path, under the variables of the steps
that led there. -/
inductive Unfolds (registry : Registry) (base : Value) :
    Env → List Value → List Step → List Script → Prop
  | done {overlay : Env} {path : List Value} : Unfolds registry base overlay path [] []
  | run {overlay : Env} {path : List Value} {step : Step} {rest : List Step}
      {label others : List Script} {command : Value} {text : String}
      (labelled : labelScript step.label = .ok label)
      (runs : step.action = .run command)
      (worded : commandText command step.env = .ok text)
      (further : Unfolds registry base overlay path rest others) :
      Unfolds registry base overlay path (step :: rest)
        (label ++ commandScript step.env text :: others)
  | spawn {overlay : Env} {path : List Value} {step : Step} {rest : List Step}
      {label fragments others : List Script} {target : Value} {name : String} {task : Task}
      {command : Command}
      (labelled : labelScript step.label = .ok label)
      (spawns : step.action = .spawn target)
      (found : registry.resolve target = .ok (some (name, task)))
      (fresh : isOnPath name path = false)
      (inside : Unfolds registry base (overlay.merge step.env) (path ++ [.str name]) task.steps
        fragments)
      (framed : registry.frame base (overlay.merge step.env) task fragments = .ok command)
      (further : Unfolds registry base overlay path rest others) :
      Unfolds registry base overlay path (step :: rest)
        (label ++ command.inSubshell.alone :: others)

/-- What a step that is rendered becomes: the command it runs, or the task it spawns. -/
theorem actionScript_eq_ok {step : Step} {fragment : Script}
    (rendered : actionScript registry base overlay path owner step = .ok fragment) :
    (∃ command text, step.action = .run command ∧ commandText command step.env = .ok text ∧
      fragment = commandScript step.env text) ∨
    ∃ target name task fragments command, step.action = .spawn target ∧
      registry.resolve target = .ok (some (name, task)) ∧ isOnPath name path = false ∧
      (stepScripts registry base (overlay.merge step.env) (path ++ [.str name]) task.name
        task.steps).result = .ok fragments ∧
      registry.frame base (overlay.merge step.env) task fragments = .ok command ∧
      fragment = command.inSubshell.alone := by
  unfold actionScript at rendered
  split at rendered
  · rename_i command runs
    obtain ⟨text, worded, same⟩ := map_eq_ok.mp rendered
    exact Or.inl ⟨command, text, runs, orFault_eq_ok.mp worded, same.symm⟩
  · rename_i target spawns
    split at rendered
    · cases rendered
    · cases rendered
    · rename_i name task found
      split at rendered
      · cases rendered
      · rename_i fresh
        obtain ⟨fragments, inside, further⟩ := bind_eq_ok.mp rendered
        obtain ⟨command, framed, same⟩ := bind_eq_ok.mp further
        exact Or.inr ⟨target, name, task, fragments, command, spawns, found, by simpa using fresh,
          inside, orFault_eq_ok.mp framed, (Except.ok.inj same).symm⟩

/-- A successful rendering of steps has a derivation. -/
theorem unfolds_of_result {steps : List Step} {fragments : List Script}
    (rendered : (stepScripts registry base overlay path owner steps).result = .ok fragments) :
    Unfolds registry base overlay path steps fragments := by
  induction overlay, path, owner, steps using stepScripts.induct registry
    generalizing fragments with
  | case1 overlay path owner =>
    rw [stepScripts_nil_result] at rendered
    obtain rfl := Except.ok.inj rendered
    exact .done
  | case2 overlay path owner step rest restHypothesis insideHypothesis =>
    rw [stepScripts_cons_result] at rendered
    obtain ⟨label, labelled, rendered⟩ := bind_eq_ok.mp rendered
    obtain ⟨fragment, acted, rendered⟩ := bind_eq_ok.mp rendered
    obtain ⟨others, further, same⟩ := bind_eq_ok.mp rendered
    obtain rfl := Except.ok.inj same
    have labelled := orFault_eq_ok.mp labelled
    have further := restHypothesis further
    rcases actionScript_eq_ok acted with ⟨command, text, runs, worded, rfl⟩ |
      ⟨target, name, task, inner, command, spawns, found, fresh, inside, framed, rfl⟩
    · exact .run labelled runs worded further
    · refine .spawn labelled spawns found fresh ?_ framed further
      exact insideHypothesis target name task found (by simp [fresh]) inside

/-- Steps that have a derivation are rendered to its scripts. -/
theorem Unfolds.result {owner : Value} {steps : List Step} {fragments : List Script}
    (unfolds : Unfolds registry base overlay path steps fragments) :
    (stepScripts registry base overlay path owner steps).result = .ok fragments := by
  induction unfolds generalizing owner with
  | done => exact stepScripts_nil_result
  | run labelled runs worded _ inductionHypothesis =>
    rw [stepScripts_cons_result, labelled, actionScript, runs]
    dsimp only
    rw [worded, inductionHypothesis]
    rfl
  | spawn labelled spawns found fresh _ framed _ insideHypothesis furtherHypothesis =>
    rw [stepScripts_cons_result, labelled, actionScript, spawns]
    dsimp only
    rw [found]
    dsimp only
    rw [fresh, if_neg Bool.false_ne_true, insideHypothesis, furtherHypothesis, orFault_ok, ok_bind,
      ok_bind, framed]
    rfl

/-! ### The script of one step -/

/-- The number of the script of a step among all scripts of its task. The labels up to it have
scripts of their own. -/
def position (steps : List Step) (index : Nat) : Nat :=
  index + (steps.take (index + 1)).countP fun step => step.label.isTruthy

theorem length_of_labelScript {label : Value} {scripts : List Script}
    (labelled : labelScript label = .ok scripts) :
    scripts.length = if label.isTruthy then 1 else 0 := by
  unfold labelScript at labelled
  split at labelled
  · rename_i given
    rw [if_pos given]
    split at labelled
    · obtain rfl := Except.ok.inj labelled
      rfl
    · cases labelled
  · rename_i missing
    rw [if_neg missing]
    obtain rfl := Except.ok.inj labelled
    rfl

theorem position_zero (step : Step) (rest : List Step) :
    position (step :: rest) 0 = if step.label.isTruthy then 1 else 0 := by
  simp [position, List.countP_cons]

theorem position_succ (step : Step) (rest : List Step) (index : Nat) :
    position (step :: rest) (index + 1) =
      (if step.label.isTruthy then 1 else 0) + 1 + position rest index := by
  rw [position, position, List.take_succ_cons, List.countP_cons]
  omega

/-- Behind the script of the first step, and behind its label, come those of the others. -/
theorem getElem?_position_succ {label others : List Script} {fragment : Script} {step : Step}
    (labelled : labelScript step.label = .ok label) (rest : List Step) (index : Nat) :
    (label ++ fragment :: others)[position (step :: rest) (index + 1)]? =
      others[position rest index]? := by
  rw [position_succ, ← length_of_labelScript labelled, Nat.add_assoc, List.getElem?_append_right
    (Nat.le_add_right _ _), Nat.add_sub_cancel_left, Nat.add_comm 1, List.getElem?_cons_succ]

theorem getElem?_position_zero {label others : List Script} {fragment : Script} {step : Step}
    (labelled : labelScript step.label = .ok label) (rest : List Step) :
    (label ++ fragment :: others)[position (step :: rest) 0]? = some fragment := by
  rw [position_zero, ← length_of_labelScript labelled, List.getElem?_append_right (Nat.le_refl _),
    Nat.sub_self, List.getElem?_cons_zero]

/-- Where the script of one step comes from. -/
inductive StepUnfolds (registry : Registry) (base : Value) (overlay : Env) (path : List Value)
    (step : Step) : Script → Prop
  | run {command : Value} {text : String} (runs : step.action = .run command)
      (worded : commandText command step.env = .ok text) :
      StepUnfolds registry base overlay path step (commandScript step.env text)
  | spawn {target : Value} {name : String} {task : Task} {fragments : List Script}
      {command : Command} (spawns : step.action = .spawn target)
      (found : registry.resolve target = .ok (some (name, task)))
      (fresh : isOnPath name path = false)
      (inside : Unfolds registry base (overlay.merge step.env) (path ++ [.str name]) task.steps
        fragments)
      (framed : registry.frame base (overlay.merge step.env) task fragments = .ok command) :
      StepUnfolds registry base overlay path step command.inSubshell.alone

/-- Among the scripts that some steps unfold to, each step has its own. -/
theorem Unfolds.getElem? {steps : List Step} {fragments : List Script}
    (unfolds : Unfolds registry base overlay path steps fragments) {index : Nat} {step : Step}
    (there : steps[index]? = some step) :
    ∃ fragment, fragments[position steps index]? = some fragment ∧
      StepUnfolds registry base overlay path step fragment := by
  induction unfolds generalizing index with
  | done => cases there
  | @run overlay path first rest label others command text labelled runs worded further
      inductionHypothesis =>
    cases index with
    | zero =>
      obtain rfl := Option.some.inj there
      exact ⟨_, getElem?_position_zero labelled rest, .run runs worded⟩
    | succ index =>
      rw [getElem?_position_succ labelled]
      exact inductionHypothesis there
  | @spawn overlay path first rest label fragments others target name task command labelled
      spawns found fresh inside framed further _ inductionHypothesis =>
    cases index with
    | zero =>
      obtain rfl := Option.some.inj there
      exact ⟨_, getElem?_position_zero labelled rest, .spawn spawns found fresh inside framed⟩
    | succ index =>
      rw [getElem?_position_succ labelled]
      exact inductionHypothesis there

/-! ### Whole renderings -/

theorem noteRendering_result (path : List Value) (name : Value) :
    (noteRendering path name).result = .ok () := by
  unfold noteRendering
  split <;> rfl

/-- The command of a task frames what its steps become. -/
theorem taskCommand_result (task : Task) :
    (registry.taskCommand base task).result =
      ((stepScripts registry base [] [task.name] task.name task.steps).result >>= fun fragments =>
        orFault (registry.frame base [] task fragments)) := by
  simp only [taskCommand, Logged.result_bind, Logged.result_liftFault, noteRendering_result,
    ok_bind]

/-- The command that a task is rendered to, and the derivation of its steps. -/
theorem taskCommand_eq_ok {task : Task} {command : Command}
    (rendered : (registry.taskCommand base task).result = .ok command) :
    ∃ fragments, Unfolds registry base [] [task.name] task.steps fragments ∧
      registry.frame base [] task fragments = .ok command := by
  rw [taskCommand_result] at rendered
  obtain ⟨fragments, inside, framed⟩ := bind_eq_ok.mp rendered
  exact ⟨fragments, unfolds_of_result inside, orFault_eq_ok.mp framed⟩

/-- A task whose steps have a derivation is rendered to the command that frames their scripts. -/
theorem taskCommand_of_unfolds {task : Task} {fragments : List Script} {command : Command}
    (unfolds : Unfolds registry base [] [task.name] task.steps fragments)
    (framed : registry.frame base [] task fragments = .ok command) :
    (registry.taskCommand base task).result = .ok command := by
  rw [taskCommand_result, unfolds.result, ok_bind, framed, orFault_ok]

/-- A rendering prints the command of the task that its name resolves to. -/
theorem render_of_resolve {name : Value} {key : String} {task : Task}
    (found : registry.resolve name = .ok (some (key, task))) :
    (registry.render name base).result =
      (registry.taskCommand base task).result.map Command.print := by
  simp only [render, renderTask, Logged.result_bind, Logged.result_lift, find_eq_ok.mpr found,
    ok_bind]
  cases (registry.taskCommand base task).result with
  | error error => rfl
  | ok command => rfl

/-- A rendering that succeeds prints the command of the task that its name resolves to. -/
theorem render_eq_ok {name : Value} {text : String}
    (rendered : (registry.render name base).result = .ok text) :
    ∃ key task command, registry.resolve name = .ok (some (key, task)) ∧
      (registry.taskCommand base task).result = .ok command ∧ command.print = text := by
  have looked := rendered
  rw [render, Logged.result_bind, Logged.result_lift] at looked
  obtain ⟨⟨key, task⟩, found, -⟩ := bind_eq_ok.mp looked
  have resolved := find_eq_ok.mp found
  rw [render_of_resolve resolved] at rendered
  obtain ⟨command, commanded, printed⟩ := map_eq_ok.mp rendered
  exact ⟨key, task, command, resolved, commanded, printed⟩

/-- A task whose steps have a derivation is rendered to the text of its command. -/
theorem render_of_unfolds {name : Value} {key : String} {task : Task} {fragments : List Script}
    {command : Command} (found : registry.resolve name = .ok (some (key, task)))
    (unfolds : Unfolds registry base [] [task.name] task.steps fragments)
    (framed : registry.frame base [] task fragments = .ok command) :
    (registry.render name base).result = .ok command.print := by
  rw [render_of_resolve found, taskCommand_of_unfolds unfolds framed]
  rfl

end Taskbook.Registry
