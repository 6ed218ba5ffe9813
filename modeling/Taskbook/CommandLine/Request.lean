/-
What is asked for on the command line.

A command line names a command and its arguments, after options that are common to all
commands. What can be misused is found out here, before anything is done.
-/

import Taskbook.CommandLine.Arguments
import Taskbook.Files.Path

namespace Taskbook.CommandLine

/-- A command with its arguments. -/
inductive Request where
  | init
  | add (name : String) (command description category condition : Option String)
      (pairs : List String)
  | exec (name command : String) (first : Bool) (label : Option String) (pairs : List String)
  | spawn (name target : String) (label : Option String) (pairs : List String)
  | reset (name command : Option String) (silent : Bool)
  | env (key text : String) (task : Option String)
  | list (category : Option String) (json : Bool)
  | view (name : Option String) (json command silent : Bool)
  | render (name : Option String) (silent : Bool)
  | remove (name : Option String) (forced silent : Bool)
  deriving DecidableEq, Repr

/-! ### Options -/

def valued (spelling field : String) : OptionRule :=
  ⟨spelling, none, field, .valued⟩

def flag (spelling field : String) : OptionRule :=
  ⟨spelling, none, field, .flag true⟩

/-- The option that says where a project is. -/
def directoryRule : OptionRule :=
  valued "--project-dir" "directory"

/-- The option that sets a variable. -/
def envRule : OptionRule :=
  valued "--env" "env"

/-- The option that labels a step. -/
def labelRule : OptionRule :=
  valued "--step-name" "label"

/-- The option that keeps a command from asking. -/
def silentRule : OptionRule :=
  flag "--nointeractive" "silent"

/-- The option that asks for JSON. -/
def jsonRule : OptionRule :=
  flag "--json" "json"

/-- The option that asks for a detailed log. -/
def verboseRule : OptionRule :=
  ⟨"--verbose", some 'v', "verbose", .flag true⟩

/-! ### Commands -/

/-- The arguments of the commands by their names. -/
def usages : List (String × Usage) :=
  [("init", ⟨[directoryRule], 0, 0⟩),
    ("add", ⟨[valued "--exec" "command", valued "--description" "description",
      valued "--category" "category", valued "--condition" "condition", envRule,
      directoryRule], 1, 0⟩),
    ("exec", ⟨[flag "--prepend" "first", labelRule, envRule, directoryRule], 2, 0⟩),
    ("spawn", ⟨[labelRule, envRule, directoryRule], 2, 0⟩),
    ("reset", ⟨[silentRule, directoryRule], 0, 2⟩),
    ("env", ⟨[valued "--task" "task", directoryRule], 2, 0⟩),
    ("list", ⟨[valued "--category" "category", jsonRule, directoryRule], 0, 0⟩),
    ("view", ⟨[jsonRule, flag "--command" "command",
      ⟨"--no-command", none, "command", .flag false⟩, silentRule, directoryRule], 0, 1⟩),
    ("render", ⟨[silentRule, directoryRule], 0, 1⟩),
    ("remove", ⟨[flag "--force" "forced", silentRule, directoryRule], 0, 1⟩)]

/-- The request that a command makes with what was given for it. -/
def requestOf (command : String) (given : Given) : Option Request :=
  let text := given.text?
  let silent := given.truth "silent" false
  match command, given.positionals with
  | "init", [] => some .init
  | "add", [name] =>
    some (.add name (text "command") (text "description") (text "category") (text "condition")
      (given.textsOf "env"))
  | "exec", [name, command] =>
    some (.exec name command (given.truth "first" false) (text "label") (given.textsOf "env"))
  | "spawn", [name, target] =>
    some (.spawn name target (text "label") (given.textsOf "env"))
  | "reset", names => some (.reset names[0]? names[1]? silent)
  | "env", [key, value] => some (.env key value (text "task"))
  | "list", [] => some (.list (text "category") (given.truth "json" false))
  | "view", names =>
    some (.view names[0]? (given.truth "json" false) (given.truth "command" true) silent)
  | "render", names => some (.render names[0]? silent)
  | "remove", names => some (.remove names[0]? (given.truth "forced" false) silent)
  | _, _ => none

/-- A command line that was understood. -/
inductive Order where
  /-- A request for help. -/
  | help
  /-- A request about the project in a directory, perhaps with a detailed log. -/
  | request (verbose : Bool) (directory : Option String) (request : Request)

/-- Reads the options that are common to all commands, up to the first positional argument; none
if they are misused. -/
def readCommon (arguments : List String) : Option Given :=
  scan [helpRule, verboseRule] false .nothing arguments

/-- A request for help, if what is given is one. -/
def helpIn (given : Given) : Option Order :=
  if given.truth "help" false then some .help else none

/-- Reads a command and its arguments; none if they are misused. Only a text that can be a path
says where a project is. -/
def orderOf (verbose : Bool) (command : String) (usage : Usage) (arguments : List String) :
    Option Order := do
  match ← understand usage arguments with
  | .help => some .help
  | .given given => do
    let directory := given.text? "directory"
    if directory.all fun text => (Path.checkText text).isOk then
      let request ← requestOf command given
      some (.request verbose directory request)
    else none

/-- Reads a command line; none if it is misused. A command line without a command asks for help,
and what stands in the place of a command without being one may still be an option that
does. -/
def order? (arguments : List String) : Option Order := do
  let common ← readCommon arguments
  helpIn common <|>
    match common.positionals with
    | [] => some .help
    | command :: rest =>
      match usages.lookup command with
      | some usage => orderOf (common.truth "verbose" false) command usage rest
      | none => (readCommon (command :: rest)).bind helpIn

end Taskbook.CommandLine
