/-
The errors of the program.

Each constructor is a cause, with what the message has to name; the wording of all of
them is `Error.message`. `Error.kind` sorts the causes into what a caller can tell
apart: invalid data, a cycle of tasks, a missing task, and a conflict with what is
already there. Faults are errors too, but the program has no words for them. An error
whose message names a value that cannot be written comes out as the fault of writing it.
-/

import Taskbook.Fault
import Taskbook.Value.Literal

namespace Taskbook

/-- Why an operation on tasks fails. -/
inductive Error where
  | taskName (name : Value)
  | variableName (name : Value)
  | category (given : Value)
  | stepRecord (given : Value)
  | stepKeys (unsupported : List Value)
  | stepEnv
  | stepAction
  | manifestRecord
  | manifestEnv
  | manifestTasks
  | taskRecord (task : String)
  | taskKeys (task : String) (unsupported : List Value)
  | declaredName (task : String) (declared : Value)
  | taskEnv (task : String)
  | taskSteps (task : String)
  | cycle (chain : List Value)
  | taskMissing (name : Value)
  | subtaskMissing (target spawnedBy : Value)
  | nameTaken (name : String)
  | stillSpawned (name : String) (referrers : List String)
  | manifestSyntax (path : String)
  | manifestFormat (path : String)
  | commandBlank
  | spawnsItself (name : Value)
  | envPair (pair : String)
  | projectMissing
  | tasksMissing
  | nameRequired
  | fault (cause : Fault)
  deriving Inhabited

/-- What a caller can tell apart about an error that is worded. -/
inductive ErrorKind where
  | invalid
  | cycle
  | missing
  | conflict
  deriving DecidableEq, Repr

/-- An error as a caller is told about it. -/
structure Notice where
  kind : ErrorKind
  message : String
  deriving DecidableEq, Repr

namespace Error

def kind : Error → ErrorKind
  | cycle _ => .cycle
  | taskMissing _ => .missing
  | subtaskMissing .. => .missing
  | nameTaken _ => .conflict
  | stillSpawned .. => .conflict
  | _ => .invalid

/-- The text of a value that must be one. -/
def textOnly : Value → Except Fault String
  | .str text => .ok text
  | _ => .error .wrongType

/-- The wording of an error; a fault has none. -/
def message : Error → Except Fault String
  | taskName name =>
    return "Invalid task name " ++ (← name.literal) ++
      ": use letters, numbers, ':', '.', '_' or '-'"
  | variableName name => return "Invalid environment variable name " ++ (← name.literal)
  | category given =>
    return "Unknown category " ++ (← given.literal) ++
      " (expected one of: build, test, release, maintain, misc)"
  | stepRecord given => return "Step record must be a mapping, got " ++ given.typeName
  | stepKeys unsupported =>
    return "Unsupported step keys: " ++ (← (Value.ofItems unsupported).literal)
  | stepEnv => return "Step env must be a mapping"
  | stepAction => return "A step needs exactly one of 'exec' or 'exec_task'"
  | manifestRecord => return "Manifest must be a mapping"
  | manifestEnv => return "Manifest env must be a mapping"
  | manifestTasks => return "Manifest tasks must be a mapping of name to task"
  | taskRecord task => return "Task " ++ task ++ " must be a mapping"
  | taskKeys task unsupported =>
    return "Task " ++ task ++ " has unsupported keys: " ++
      (← (Value.ofItems unsupported).literal)
  | declaredName task declared =>
    return "Task " ++ task ++ " declares mismatched name " ++ (← declared.literal)
  | taskEnv task => return "Task " ++ task ++ " env must be a mapping"
  | taskSteps task => return "Task " ++ task ++ " steps must be a list"
  | cycle chain => return "Subtask cycle detected: " ++ " -> ".intercalate (← chain.mapM textOnly)
  | taskMissing name => return "Task not found: " ++ (← name.text)
  | subtaskMissing target spawnedBy =>
    return "Unable to resolve subtask " ++ (← target.text) ++ " (spawned by " ++
      (← spawnedBy.text) ++ ")"
  | nameTaken name => return "Task name already exists: " ++ name
  | stillSpawned name referrers =>
    return "Task " ++ name ++ " is spawned by: " ++ ", ".intercalate referrers ++
      ". Use --force to remove anyway."
  | manifestSyntax path => return "Unable to parse manifest at " ++ path
  | manifestFormat path => return "Invalid manifest format at " ++ path
  | commandBlank => return "command is required"
  | spawnsItself name => return "Task " ++ (← name.text) ++ " cannot spawn itself"
  | envPair pair => return "Invalid --env value " ++ quoted pair ++ "; expected KEY=VALUE"
  | projectMissing =>
    return "No .shell-tasks dir found from current directory upward. " ++
      "Run 'shell-tasks init' first."
  | tasksMissing => return "No tasks available."
  | nameRequired => return "task_name is required in non-interactive mode"
  | fault cause => throw cause

/-- What a caller is told about an error; a fault if the error cannot be worded. -/
def notice (error : Error) : Except Fault Notice :=
  error.message.map (⟨error.kind, ·⟩)

end Error

instance : Coe Fault Error := ⟨Error.fault⟩

/-- A fault as an error. -/
def orFault {α : Type} : Except Fault α → Except Error α
  | .ok result => .ok result
  | .error fault => .error (.fault fault)

instance : MonadLift (Except Fault) (Except Error) := ⟨orFault⟩

end Taskbook
