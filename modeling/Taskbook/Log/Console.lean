/-
The log on the terminal.

Records go to the handlers of the log if they reach its level. One handler, the console,
is the program's own: it has a level of its own, shows all records of the program, and
of others only errors. Setting up the log again replaces the console and leaves all
other handlers alone.
-/

import Taskbook.Log

namespace Taskbook.Log

/-- Something that takes the records of the log. -/
inductive Handler where
  /-- The program's own, with its level. -/
  | console (level : Level)
  /-- One that something else has attached. -/
  | foreign (label : Nat)
  deriving DecidableEq, Repr

/-- The level of the log and its handlers in the order in which they were attached. -/
structure Setup where
  level : Level
  handlers : List Handler
  deriving DecidableEq, Repr

/-- The log before it is set up. -/
def untouched : Setup :=
  ⟨Level.warning, []⟩

/-- The level of a handler that is the program's own. -/
def Handler.consoleLevel? : Handler → Option Level
  | console level => some level
  | foreign _ => none

/-- Whether a handler is one that something else has attached. -/
def Handler.isForeign (handler : Handler) : Bool :=
  handler.consoleLevel?.isNone

namespace Setup

/-- Detaches a handler, if it is attached. -/
def detach (setup : Setup) (handler : Handler) : Setup :=
  { setup with handlers := setup.handlers.erase handler }

/-- Detaches those of some handlers that are the program's own, one after the other. -/
def clear (setup : Setup) (handlers : List Handler) : Setup :=
  handlers.foldl (fun left handler => if handler.isForeign then left else left.detach handler) setup

/-- Sets up the log at a level, in place of an earlier setup. The handlers that are gone through
are those of before, however many have been detached on the way. -/
def setUp (setup : Setup) (level : Level) : Setup :=
  let cleared := { setup with level := level }.clear setup.handlers
  { cleared with handlers := cleared.handlers ++ [.console level] }

/-- Attaches a handler that is not the program's own, unless it is attached already. -/
def attach (setup : Setup) (label : Nat) : Setup :=
  if setup.handlers.contains (.foreign label) then setup
  else { setup with handlers := setup.handlers ++ [.foreign label] }

/-- The levels of the program's own handlers. -/
def consoleLevels (setup : Setup) : List Level :=
  setup.handlers.filterMap Handler.consoleLevel?

end Setup

/-- The name that all loggers of the program start with. -/
def ownName : String := "shell_tasks"

/-- Whether the console shows a record: any of the program, and errors of others. -/
def shows (record : Record) : Bool :=
  ownName.toList.isPrefixOf record.logger.toList || Level.error ≤ record.level

/-- Whether a record gets as far as a console of some level. Levels below one are not logged. -/
def reaches (setup : Setup) (record : Record) (level : Level) : Bool :=
  0 < record.level && setup.level ≤ record.level && level ≤ record.level && shows record

/-- The lines, without their times, that the log shows for a record. -/
def lines (setup : Setup) (record : Record) : List String :=
  (setup.consoleLevels.filter (reaches setup record)).map fun _ => record.line

end Taskbook.Log
