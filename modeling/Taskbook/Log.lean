/-
Log records, and computations that leave some.

A record has a level, the part of the program that wrote it, and a message. A
computation that logs gives its records in order together with its outcome: the
records are there also when it fails.
-/

import Taskbook.Error

namespace Taskbook

/-- The parts of the program that write log records. -/
inductive Source where
  | rendering
  | registry
  | store
  | editing
  deriving DecidableEq, Repr

/-- The name under which a part of the program logs. -/
def Source.name : Source → String
  | rendering => "shell_tasks.shell"
  | registry => "shell_tasks.registry"
  | store => "shell_tasks.storage"
  | editing => "shell_tasks.service"

/-- Levels of log records are numbers, some of them named. -/
abbrev Level := Int

namespace Level

def debug : Level := 10

def info : Level := 20

def warning : Level := 30

def error : Level := 40

/-- The name of a level. -/
def name (level : Level) : String :=
  if level = 0 then "NOTSET"
  else if level = 10 then "DEBUG"
  else if level = 20 then "INFO"
  else if level = 30 then "WARNING"
  else if level = 40 then "ERROR"
  else if level = 50 then "CRITICAL"
  else "Level " ++ toString level

end Level

/-- One entry of the log. -/
structure Record where
  level : Level
  logger : String
  message : String
  deriving DecidableEq, Repr

def Record.debug (source : Source) (message : String) : Record :=
  ⟨Level.debug, source.name, message⟩

def Record.info (source : Source) (message : String) : Record :=
  ⟨Level.info, source.name, message⟩

/-- A record as a line without its time. -/
def Record.line (record : Record) : String :=
  Level.name record.level ++ " " ++ record.logger ++ ": " ++ record.message

/-- An outcome with the records that were written on the way to it. -/
structure Logged (α : Type) where
  records : List Record
  result : Except Error α

namespace Logged

variable {α β : Type}

/-- Success without a record. -/
def succeed (value : α) : Logged α :=
  ⟨[], .ok value⟩

/-- Goes on from a success, after the records written so far. -/
def andThen (first : Logged α) (next : α → Logged β) : Logged β :=
  match first.result with
  | .ok value => ⟨first.records ++ (next value).records, (next value).result⟩
  | .error error => ⟨first.records, .error error⟩

instance : Monad Logged where
  pure := succeed
  bind := andThen

/-- An outcome without records. -/
def ofExcept (result : Except Error α) : Logged α :=
  ⟨[], result⟩

instance : MonadLift (Except Error) Logged := ⟨ofExcept⟩

/-- Failure without a record. -/
def fail (error : Error) : Logged α :=
  ⟨[], .error error⟩

/-- Writes one record. -/
def write (record : Record) : Logged Unit :=
  ⟨[record], .ok ()⟩

end Logged

end Taskbook
