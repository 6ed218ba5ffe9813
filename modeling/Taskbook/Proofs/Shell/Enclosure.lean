/-
What is exported around a leaf of a script.

A leaf is found by its place: at each subshell around it, from the outermost inwards, the
number of the command that it is in. Around the leaf are then the exports of these subshells
and no others. Those of a command beside it, or of a subshell that has ended, are not on the
way.
-/

import Taskbook.Shell.Script

namespace Taskbook.Shell

def Pipeline.command : Pipeline → Command
  | .plain command => command
  | .negated command => command

/-- The commands of a row from left to right. -/
def Row.commands : Row → List Command
  | .single pipeline => [pipeline.command]
  | .both before last => before.commands ++ [last.command]
  | .either before last => before.commands ++ [last.command]

/-- What is exported around a leaf, from the outermost subshell inwards, and the leaf. -/
structure Enclosed where
  exported : List (String × String)
  leaf : Leaf
  deriving DecidableEq, Repr

/-- A leaf with the exports of one more subshell around it. -/
def Enclosed.within (bindings : List (String × String)) (inner : Enclosed) : Enclosed :=
  ⟨bindings ++ inner.exported, inner.leaf⟩

/-- The leaf at a place of a command, with what is exported around it. -/
def Command.enclosed? : Command → List Nat → Option Enclosed
  | .leaf last, [] => some ⟨[], last⟩
  | .subshell (.exports bindings body), position :: place =>
    match body.commands[position]? with
    | some command => (command.enclosed? place).map (Enclosed.within bindings)
    | none => none
  | _, _ => none

/-! ### Places in scripts that are built -/

theorem Command.enclosed?_subshell {bindings : List (String × String)} {body : Row}
    {position : Nat} {command : Command} (there : body.commands[position]? = some command)
    (place : List Nat) :
    (Command.subshell (.exports bindings body)).enclosed? (position :: place) =
      (command.enclosed? place).map (Enclosed.within bindings) := by
  rw [Command.enclosed?, there]

@[simp]
theorem Enclosed.within_nil : Enclosed.within [] = id := by
  funext inner
  rfl

/-- A subshell that is only there to group exports nothing. -/
theorem Command.enclosed?_inSubshell (command : Command) (place : List Nat) :
    command.inSubshell.enclosed? (0 :: place) = command.enclosed? place := by
  have there : (Row.single (.plain command)).commands[0]? = some command := rfl
  rw [Command.inSubshell, Command.alone, Command.enclosed?_subshell there]
  simp

/-- The commands of a chain are those that it was made of, unless there are none. -/
theorem Row.commands_chain {first : Command} {rest : List Command} :
    (Row.chain (first :: rest)).commands = first :: rest := by
  have onRow (row : Row) : (rest.foldl Row.andThen row).commands = row.commands ++ rest := by
    induction rest generalizing row with
    | nil => simp
    | cons next others inductionHypothesis =>
      rw [List.foldl_cons, inductionHypothesis, Row.andThen, Row.commands, List.append_assoc]
      rfl
  exact onRow _

theorem Row.commands_chain_getElem? {commands : List Command} {position : Nat} {command : Command}
    (there : commands[position]? = some command) :
    (Row.chain commands).commands[position]? = some command := by
  cases commands with
  | nil => cases there
  | cons first rest => rwa [Row.commands_chain]

/-- Behind a condition is the row that it gates. -/
theorem Row.commands_gate (condition : String) (body : Row) :
    (Row.gate condition body).commands[1]? = some (.subshell (.exports [] body)) :=
  rfl

end Taskbook.Shell
