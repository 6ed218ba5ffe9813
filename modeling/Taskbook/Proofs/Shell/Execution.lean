/-
What a shell does with a script.

The leaves of a script run from left to right, some of them not at all. Which status a leaf
ends with is not known from the script: it is given from outside and may depend on the
leaves that have run before. The rest is the shell's own: a row goes on or stops by the
status so far, a negation exchanges success and failure, a subshell ends with the status of
what it runs, and setting variables is neither a leaf nor a failure.
-/

import Taskbook.Shell.Script

namespace Taskbook.Shell

/-- The exit status of a leaf after the leaves that have run before it. -/
abbrev Statuses := List Leaf → Leaf → Nat

/-- The leaves that have run when something ends, and the exit status it ends with. -/
structure Outcome where
  leaves : List Leaf
  status : Nat

namespace Outcome

/-- The outcome with success and failure exchanged. -/
def negated (outcome : Outcome) : Outcome :=
  ⟨outcome.leaves, if outcome.status = 0 then 1 else 0⟩

/-- Goes on after a success, and stays with a failure. -/
def ifSucceeded (outcome : Outcome) (next : List Leaf → Outcome) : Outcome :=
  if outcome.status = 0 then next outcome.leaves else outcome

/-- Goes on after a failure, and stays with a success. -/
def ifFailed (outcome : Outcome) (next : List Leaf → Outcome) : Outcome :=
  if outcome.status = 0 then outcome else next outcome.leaves

end Outcome

/-- A leaf that runs after some others. -/
def Leaf.run (statuses : Statuses) (leaf : Leaf) (before : List Leaf) : Outcome :=
  ⟨before ++ [leaf], statuses before leaf⟩

mutual

/-- Runs a command after some leaves. -/
def Command.run (statuses : Statuses) : Command → List Leaf → Outcome
  | .leaf leaf, before => leaf.run statuses before
  | .idle, before => ⟨before, 0⟩
  | .subshell body, before => body.run statuses before

/-- Runs a pipeline after some leaves. -/
def Pipeline.run (statuses : Statuses) : Pipeline → List Leaf → Outcome
  | .plain command, before => command.run statuses before
  | .negated command, before => (command.run statuses before).negated

/-- Runs a row after some leaves. -/
def Row.run (statuses : Statuses) : Row → List Leaf → Outcome
  | .single pipeline, before => pipeline.run statuses before
  | .both earlier last, before => (earlier.run statuses before).ifSucceeded (last.run statuses)
  | .either earlier last, before => (earlier.run statuses before).ifFailed (last.run statuses)

/-- Runs a script after some leaves. -/
def Script.run (statuses : Statuses) : Script → List Leaf → Outcome
  | .exports _ body, before => body.run statuses before

end

/-- Runs commands one after the other as long as they succeed. -/
def runAll (statuses : Statuses) : List Command → List Leaf → Outcome
  | [], before => ⟨before, 0⟩
  | command :: rest, before =>
    (command.run statuses before).ifSucceeded (runAll statuses rest)

/-! ### The shapes that task scripts have -/

variable {statuses : Statuses}

@[simp]
theorem run_alone (command : Command) (before : List Leaf) :
    command.alone.run statuses before = command.run statuses before := by
  rw [Command.alone, Script.run, Row.run, Pipeline.run]

@[simp]
theorem run_inSubshell (command : Command) (before : List Leaf) :
    command.inSubshell.run statuses before = command.run statuses before := by
  rw [Command.inSubshell, Command.run, run_alone]

/-- A success followed by nothing more is that success. -/
theorem ifSucceeded_done (outcome : Outcome) :
    (outcome.ifSucceeded fun leaves => ⟨leaves, 0⟩) = outcome := by
  obtain ⟨leaves, status⟩ := outcome
  unfold Outcome.ifSucceeded
  split
  · rename_i success
    exact congrArg (Outcome.mk leaves) success.symm
  · rfl

/-- Going on twice is going on with what goes on. -/
theorem ifSucceeded_assoc (outcome : Outcome) (next further : List Leaf → Outcome) :
    (outcome.ifSucceeded next).ifSucceeded further =
      outcome.ifSucceeded fun leaves => (next leaves).ifSucceeded further := by
  unfold Outcome.ifSucceeded
  by_cases success : outcome.status = 0
  · simp only [if_pos success]
  · simp only [if_neg success]

/-- Commands put behind a row run after it as long as all succeed. -/
theorem run_foldl_andThen (commands : List Command) (row : Row) (before : List Leaf) :
    (commands.foldl Row.andThen row).run statuses before =
      (row.run statuses before).ifSucceeded (runAll statuses commands) := by
  induction commands generalizing row with
  | nil => exact (ifSucceeded_done _).symm
  | cons command rest inductionHypothesis =>
    have joined : (row.andThen command).run statuses before =
        (row.run statuses before).ifSucceeded (command.run statuses) := by
      rw [Row.andThen, Row.run]
      rfl
    rw [List.foldl_cons, inductionHypothesis, joined, ifSucceeded_assoc]
    rfl

/-- A chain runs its commands one after the other as long as they succeed. -/
theorem run_chain (commands : List Command) (before : List Leaf) :
    (Row.chain commands).run statuses before = runAll statuses commands before := by
  cases commands with
  | nil => simp only [Row.chain, Row.run, Pipeline.run, Command.run, runAll]
  | cons first rest =>
    simp only [Row.chain, run_foldl_andThen, Row.run, Pipeline.run, runAll]

/-- Commands that run after others do so as long as all succeed. -/
theorem runAll_append (first second : List Command) (before : List Leaf) :
    runAll statuses (first ++ second) before =
      (runAll statuses first before).ifSucceeded (runAll statuses second) := by
  induction first generalizing before with
  | nil => simp only [List.nil_append, runAll, Outcome.ifSucceeded, if_true]
  | cons command rest inductionHypothesis =>
    simp only [List.cons_append, runAll, ifSucceeded_assoc]
    congr 1
    funext leaves
    exact inductionHypothesis leaves

/-- A gate runs its condition, and what is behind it if the condition succeeds; else it succeeds
itself. -/
theorem run_gate (condition : String) (body : Row) (before : List Leaf) :
    (Row.gate condition body).run statuses before =
      if statuses before (.condition condition) = 0 then
        body.run statuses (before ++ [.condition condition])
      else ⟨before ++ [.condition condition], 0⟩ := by
  simp only [Row.gate, Row.run, Pipeline.run, run_inSubshell, Command.run, Script.run, Leaf.run,
    Outcome.negated, Outcome.ifFailed]
  by_cases holds : statuses before (.condition condition) = 0
  · simp only [if_pos holds]
    rfl
  · simp only [if_neg holds]
    rfl

end Taskbook.Shell
