/-
Shell scripts as a task is compiled to them, and how they are printed.

The types are the part of the grammar of the shell that task scripts use, one type for
each level of binding. A script sets variables and then runs a row. A row joins pipelines
by "and" and "or", which bind alike and from the left; "not" binds tighter than both and
takes a single command. What is to stand as a command and is more than one goes into a
subshell. So a script is printed as the text it is read from, as far as the texts that
its author wrote are commands by themselves.
-/

import Taskbook.Env
import Taskbook.Shell.Word

namespace Taskbook.Shell

/-- A command that a script only hands on to the shell. -/
inductive Leaf where
  /-- The condition of a task, as its author wrote it. -/
  | condition (source : String)
  /-- A command of a task, as its author wrote it. -/
  | command (source : String)
  /-- Shows a label. -/
  | echo (label : String)
  deriving DecidableEq, Repr

mutual

/-- A single command. -/
inductive Command where
  | leaf (leaf : Leaf)
  /-- Does nothing and succeeds. -/
  | idle
  /-- Runs a script in a subshell. -/
  | subshell (body : Script)

/-- A command, perhaps with its success and failure exchanged. -/
inductive Pipeline where
  | plain (command : Command)
  | negated (command : Command)

/-- Pipelines joined from the left. -/
inductive Row where
  | single (pipeline : Pipeline)
  /-- Goes on if what is before succeeds. -/
  | both (before : Row) (last : Pipeline)
  /-- Goes on if what is before fails. -/
  | either (before : Row) (last : Pipeline)

/-- Variables that are set, and a row that is run then. -/
inductive Script where
  | exports (bindings : List (String × String)) (body : Row)

end

/-- The text of the command that does nothing and succeeds. -/
def nothing : String := "true"

/-- A text in a subshell. -/
def grouped (text : String) : String :=
  "( " ++ text ++ " )"

/-- Variables that are set, each with a blank after it. -/
def printExports (bindings : List (String × String)) : String :=
  String.join (bindings.map fun (name, text) => assignment name text ++ " ")

/-- A command that is handed on to the shell, as shell text. -/
def Leaf.print : Leaf → String
  | condition source => source
  | command source => source
  | echo label => "echo " ++ word label

mutual

/-- A command as shell text. -/
def Command.print : Command → String
  | .leaf leaf => leaf.print
  | .idle => nothing
  | .subshell body => grouped body.print

/-- A pipeline as shell text. -/
def Pipeline.print : Pipeline → String
  | .plain command => command.print
  | .negated command => "! " ++ command.print

/-- A row as shell text. -/
def Row.print : Row → String
  | .single pipeline => pipeline.print
  | .both before last => before.print ++ " && " ++ last.print
  | .either before last => before.print ++ " || " ++ last.print

/-- A script as shell text. -/
def Script.print : Script → String
  | .exports bindings body => printExports bindings ++ body.print

end

/-! ### Building scripts -/

namespace Command

/-- The script that is a single command. -/
def alone (command : Command) : Script :=
  .exports [] (.single (.plain command))

/-- A command in a subshell of its own. -/
def inSubshell (command : Command) : Command :=
  .subshell command.alone

end Command

namespace Row

/-- Goes on with a command if what is before succeeds. -/
def andThen (before : Row) (command : Command) : Row :=
  before.both (.plain command)

/-- Runs commands one after the other as long as they succeed. -/
def chain : List Command → Row
  | [] => .single (.plain .idle)
  | first :: rest => rest.foldl andThen (.single (.plain first))

/-- Runs a row if a condition holds, and succeeds if it does not. -/
def gate (condition : String) (body : Row) : Row :=
  .either (.single (.negated (Command.leaf (.condition condition)).inSubshell))
    (.plain (.subshell (.exports [] body)))

end Row

end Taskbook.Shell
