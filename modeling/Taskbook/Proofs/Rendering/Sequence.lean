/-
The order in which a rendering chains what it renders.

The steps of a task are chained in their order, each in a group of its own and behind the group that
shows its label, if it has a label with something in it. So the group of a step is found at its
place, and that of its label is the one just before.

A label is any text. Whatever it is, the shell reads the command that shows it as two words, and the
second of them is the label.
-/

import Mathlib.Data.List.Forall2
import Taskbook.Proofs.Rendering.Contents
import Taskbook.Proofs.Shell.Words

namespace Taskbook

namespace Shell

/-! ### Texts of chains -/

/-- Texts that are run one after the other, each in a group, as long as they succeed. -/
def chained (texts : List String) : String :=
  if texts.isEmpty then nothing else " && ".intercalate (texts.map grouped)

theorem Row.print_chain (scripts : List Script) :
    (chain (scripts.map .subshell)).print = chained (scripts.map Script.print) := by
  have onRow (row : Row) (commands : List Command) : (commands.foldl andThen row).print =
      " && ".intercalate (row.print :: commands.map Command.print) := by
    induction commands generalizing row with
    | nil => simp
    | cons next others inductionHypothesis =>
      rw [List.foldl_cons, inductionHypothesis, List.map_cons, String.intercalate_cons_cons]
      exact String.intercalate_cons_append
  cases scripts with
  | nil => rfl
  | cons first rest =>
    have printed : (rest.map Command.subshell).map Command.print =
        (rest.map Script.print).map grouped := by
      rw [List.map_map, List.map_map]
      rfl
    rw [List.map_cons, chain, onRow, printed]
    rfl

/-- A text behind a condition, if there is one. -/
def IsGated (condition : Value) (steps body : String) : Prop :=
  if condition.isTruthy then
    ∃ text, condition.text = .ok text ∧ body = "! " ++ grouped text ++ " || " ++ grouped steps
  else body = steps

end Shell

namespace Registry

open Shell

variable {registry : Registry} {base : Value} {root task : Task} {overlay : Env}
  {path : List Value} {fragments : List Script} {command : Command}

/-! ### Steps and labels in order -/

/-- The script that shows a label, if the label is a text with something in it. -/
def labelScripts (label : Value) : List Script :=
  match label.given? with
  | some text => [(Command.leaf (.echo text)).alone]
  | none => []

/-- The scripts of some steps in their order, each behind that of its label. -/
def sequence (steps : List Step) (own : List Script) : List Script :=
  (steps.zip own).flatMap fun entry => labelScripts entry.1.label ++ [entry.2]

theorem labelScript_eq_ok {label : Value} {scripts : List Script}
    (labelled : labelScript label = .ok scripts) : scripts = labelScripts label := by
  unfold labelScript at labelled
  split at labelled
  · rename_i given
    split at labelled
    · rename_i text
      have filled : text ≠ "" := by simpa [Value.isTruthy_str] using given
      obtain rfl := Except.ok.inj labelled
      rw [labelScripts, Value.given?, if_neg filled]
    · cases labelled
  · rename_i missing
    obtain rfl := Except.ok.inj labelled
    have none : label.given? = none := by
      cases given : label.given? with
      | none => rfl
      | some text => exact absurd (Value.eq_str_of_given? given).2 missing
    rw [labelScripts, none]

/-- What some steps unfold to are their own scripts and those of their labels, in order. -/
theorem Unfolds.exists_sequence {steps : List Step}
    (unfolds : Unfolds registry base overlay path steps fragments) :
    ∃ own, List.Forall₂ (StepUnfolds registry base overlay path) steps own ∧
      fragments = sequence steps own := by
  induction unfolds with
  | done => exact ⟨[], .nil, rfl⟩
  | run labelled runs worded further inductionHypothesis =>
    obtain ⟨own, each, rfl⟩ := inductionHypothesis
    obtain rfl := labelScript_eq_ok labelled
    exact ⟨_, .cons (.run runs worded) each, by simp [sequence]⟩
  | spawn labelled spawns found fresh inside framed further _ inductionHypothesis =>
    obtain ⟨own, each, rfl⟩ := inductionHypothesis
    obtain rfl := labelScript_eq_ok labelled
    exact ⟨_, .cons (.spawn spawns found fresh inside framed) each, by simp [sequence]⟩

/-- The text of a task: its variables, and its steps in order behind its condition. -/
theorem renderTask_eq_ok {text : String}
    (rendered : (registry.renderTask base task).result = .ok text) :
    ∃ own exported body, List.Forall₂ (StepUnfolds registry base [] [task.name]) task.steps own ∧
      bindings base [registry.env, task.env, []] = .ok exported ∧
      IsGated task.condition (chained ((sequence task.steps own).map Script.print)) body ∧
      text = grouped (printExports exported ++ body) := by
  rw [renderTask, Logged.result_bind] at rendered
  obtain ⟨command, commanded, printed⟩ := bind_eq_ok.mp rendered
  obtain rfl := Except.ok.inj printed
  obtain ⟨fragments, unfolds, framed⟩ := taskCommand_eq_ok commanded
  obtain ⟨row, exported, gate, bound, rfl⟩ := frame_eq_ok framed
  obtain ⟨own, each, rfl⟩ := unfolds.exists_sequence
  refine ⟨own, exported, row.print, each, bound, ?_, rfl⟩
  rw [IsGated, ← Row.print_chain]
  rcases gated_eq_ok gate with ⟨given, condition, worded, rfl⟩ | ⟨missing, rfl⟩
  · rw [if_pos given]
    exact ⟨condition, worded, rfl⟩
  · rw [if_neg (by simp [missing])]

/-! ### The group of a label -/

/-- The place of the script of a step's label, just before that of the step. -/
def labelPlace (task : Task) (index : Nat) : List Nat :=
  (if task.condition.isTruthy then [1] else []) ++ [position task.steps index - 1]

/-- Before the script of a step with a label is that of its label. -/
theorem Unfolds.getElem?_label {steps : List Step}
    (unfolds : Unfolds registry base overlay path steps fragments) {index : Nat} {step : Step}
    (there : steps[index]? = some step) {label : String} (given : step.label.given? = some label) :
    0 < position steps index ∧
      fragments[position steps index - 1]? = some (Command.leaf (.echo label)).alone := by
  -- The same for a step of any kind: only its label counts, and what comes behind it.
  have further {first : Step} {rest : List Step} {scripts others : List Script} {own : Script}
      (labelled : labelScript first.label = .ok scripts)
      (behind : ∀ {index : Nat}, rest[index]? = some step → 0 < position rest index ∧
        others[position rest index - 1]? = some (Command.leaf (.echo label)).alone)
      {index : Nat} (there : (first :: rest)[index]? = some step) :
      0 < position (first :: rest) index ∧
        (scripts ++ own :: others)[position (first :: rest) index - 1]? =
          some (Command.leaf (.echo label)).alone := by
    cases index with
    | zero =>
      obtain rfl := Option.some.inj there
      have shown := labelScript_eq_ok labelled
      rw [labelScripts, given] at shown
      rw [position_zero, if_pos (Value.eq_str_of_given? given).2, shown]
      exact ⟨Nat.one_pos, rfl⟩
    | succ index =>
      obtain ⟨positive, before⟩ := behind there
      have passed : position (first :: rest) (index + 1) - 1 =
          scripts.length + (position rest index - 1 + 1) := by
        rw [position_succ, length_of_labelScript labelled]
        omega
      refine ⟨by rw [position_succ]; omega, ?_⟩
      rw [passed, List.getElem?_append_right (Nat.le_add_right _ _), Nat.add_sub_cancel_left,
        List.getElem?_cons_succ, before]
  induction unfolds generalizing index with
  | done => cases there
  | run labelled runs worded _ inductionHypothesis =>
    exact further labelled inductionHypothesis there
  | spawn labelled spawns found fresh _ framed _ _ inductionHypothesis =>
    exact further labelled inductionHypothesis there

/-- In a rendering that succeeds, be it of a task of the registry or of one apart from it, a step
with a label, in the task that is rendered or in one that legs lead to, has a group of its own just
before it. What stands in this group is read as two words, whatever the label is, and the second of
them is the label. -/
theorem words?_label (registry : Registry) {base : Value} {root : Task} {text : String}
    (rendered : (registry.renderTask base root).result = .ok text) {legs : List Leg} {last : Task}
    (descent : Descent registry root legs last) {index : Nat} {step : Step}
    (there : last.steps[index]? = some step) {label : String} (labelled : step.label = .str label)
    (given : label ≠ "") :
    ∃ command fragment own, ∃ part ∈ Command.parts command,
      (registry.taskCommand base root).result = .ok command ∧ command.print = text ∧
      commandAt? command (nestedPlace root legs ++ labelPlace last index) =
        some (.subshell fragment) ∧
      commandAt? command (nestedPlace root legs ++ place last index) = some (.subshell own) ∧
      (∃ overlay path, StepUnfolds registry base overlay path step own) ∧
      part.command = .subshell fragment ∧ part.IsIn text ∧
      words? fragment.print = some ["echo", label] := by
  rw [renderTask, Logged.result_bind] at rendered
  obtain ⟨command, commanded, printed⟩ := bind_eq_ok.mp rendered
  obtain rfl := Except.ok.inj printed
  obtain ⟨fragments, unfolds, framed⟩ := taskCommand_eq_ok commanded
  obtain ⟨below, inner, nested, nestedUnfolds, nestedFramed, nestedAt⟩ :=
    exists_commandAt?_of_descent descent unfolds framed
  have isGiven : step.label.given? = some label := by
    rw [labelled, Value.given?, if_neg given]
  obtain ⟨-, shown⟩ := nestedUnfolds.getElem?_label there isGiven
  obtain ⟨own, located, stepUnfolds⟩ := nestedUnfolds.getElem? there
  have labelAt : commandAt? command (nestedPlace root legs ++ labelPlace last index) =
      some (.subshell (Command.leaf (.echo label)).alone) := by
    rw [nestedAt, labelPlace, commandAt?_fragment nestedFramed shown [], commandAt?]
  have stepAt : commandAt? command (nestedPlace root legs ++ place last index) =
      some (.subshell own) := by
    rw [nestedAt, place, commandAt?_fragment nestedFramed located [], commandAt?]
  obtain ⟨part, partOf, partIs⟩ := List.mem_map.mp (mem_contents_of_commandAt? labelAt)
  exact ⟨command, _, own, part, partOf, commanded, rfl, labelAt, stepAt, ⟨_, _, stepUnfolds⟩,
    partIs, Command.isIn_print command part partOf, words?_echo label⟩

/-- A label with all that the shell might take for something else. -/
def hostileLabel : String :=
  "-n '; $(reboot) `x` \\ \"y\" # é\n&& (z)"

/-- A task of a sample that shows the label. -/
def hostileInner : Task :=
  ⟨.str "inner", .null, none, .str "test -f x", [],
    [⟨.run (.str "date"), .null, []⟩, ⟨.run (.str "env"), .str hostileLabel, [("E", "own")]⟩]⟩

/-- A task that spawns it. -/
def hostileOuter : Task :=
  ⟨.str "outer", .null, none, .null, [], [⟨.spawn (.str "inner"), .str "Go", []⟩]⟩

/-- The registry of the sample. The task that spawns is not in it. -/
def hostile : Registry :=
  ⟨[("A", "shared")], [("inner", hostileInner)]⟩

/-- The text that the sample is rendered to. -/
def hostileText : String :=
  "( export A=\"shared\"; ( echo Go ) && ( ( ( export A=\"shared\"; ! ( test -f x ) || " ++
    "( ( date ) && ( echo '-n '\"'\"'; $(reboot) `x` \\ \"y\" # é\n&& (z)' ) && " ++
    "( export E=\"own\"; env ) ) ) ) ) )"

set_option maxRecDepth 10000 in
/-- The label of the sample is read as `words?_label` has it. -/
theorem hostile_words?_label :
    ((hostile.renderTask .null hostileOuter).result = .ok hostileText ∧
      Descent hostile hostileOuter [⟨0, ⟨.spawn (.str "inner"), .str "Go", []⟩, hostileInner⟩]
        hostileInner ∧
      hostileInner.steps[1]? = some ⟨.run (.str "env"), .str hostileLabel, [("E", "own")]⟩ ∧
      hostileLabel ≠ "") ∧
    ∃ command fragment own, ∃ part ∈ Command.parts command,
      (hostile.taskCommand .null hostileOuter).result = .ok command ∧
      command.print = hostileText ∧
      commandAt? command
        (nestedPlace hostileOuter [⟨0, ⟨.spawn (.str "inner"), .str "Go", []⟩, hostileInner⟩] ++
          labelPlace hostileInner 1) = some (.subshell fragment) ∧
      commandAt? command
        (nestedPlace hostileOuter [⟨0, ⟨.spawn (.str "inner"), .str "Go", []⟩, hostileInner⟩] ++
          place hostileInner 1) = some (.subshell own) ∧
      (∃ overlay path, StepUnfolds hostile .null overlay path
        ⟨.run (.str "env"), .str hostileLabel, [("E", "own")]⟩ own) ∧
      part.command = .subshell fragment ∧ part.IsIn hostileText ∧
      words? fragment.print = some ["echo", hostileLabel] := by
  have shown : labelScript (.str hostileLabel) =
      .ok [(Command.leaf (.echo hostileLabel)).alone] := by
    rw [labelScript, if_pos (by decide)]
  have inside : Unfolds hostile .null [] [.str "outer", .str "inner"] hostileInner.steps _ :=
    .run rfl rfl rfl (.run shown rfl rfl .done)
  have unfolds : Unfolds hostile .null [] [.str "outer"] hostileOuter.steps _ :=
    .spawn rfl rfl rfl rfl inside rfl .done
  have rendered : (hostile.renderTask .null hostileOuter).result = .ok hostileText := by
    rw [renderTask, Logged.result_bind, taskCommand_of_unfolds unfolds rfl]
    exact congrArg Except.ok (by decide +kernel)
  have descent : Descent hostile hostileOuter
      [⟨0, ⟨.spawn (.str "inner"), .str "Go", []⟩, hostileInner⟩] hostileInner :=
    .down rfl rfl rfl .here
  have given : hostileLabel ≠ "" := by
    decide
  exact ⟨⟨rendered, descent, rfl, given⟩, words?_label hostile rendered descent rfl rfl given⟩

end Registry

end Taskbook
