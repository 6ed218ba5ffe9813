/-
The settings of a project.

A configuration holds settings: whether questions may be asked, and variables that every
rendering starts from. A configuration that is not there or cannot be used stands for
the usual settings, and what is wrong with it is a warning. Two things are no mere
warnings: a file that is no text, and a scalar that no value can be made of.
-/

import Taskbook.Operation
import Taskbook.Project.Basic
import Taskbook.Text.Capitals
import Taskbook.Value.Equality
import Taskbook.Env
import Taskbook.Yaml.Reader
import Taskbook.Yaml.Writer

namespace Taskbook

variable [Depths]

namespace Config

/-! ### Warnings -/

def syntaxWarning (path : Path) : Except Fault String :=
  return "Unable to parse config at " ++ path.text ++ ". Falling back to defaults."

def formatWarning (path : Path) : Except Fault String :=
  return "Invalid config format at " ++ path.text ++ ". Falling back to defaults."

def keyWarning (path : Path) (key : Value) : Except Fault String :=
  return "Unsupported config key '" ++ (← key.text) ++ "' in " ++ path.text ++ ". Ignoring."

def settingsWarning (path : Path) : Except Fault String :=
  return "Invalid settings section in " ++ path.text ++ ". Using defaults."

def settingWarning (path : Path) (key : Value) : Except Fault String :=
  return "Unsupported settings key '" ++ (← key.text) ++ "' in " ++ path.text ++ ". Ignoring."

def interactiveWarning (path : Path) : Except Fault String :=
  return "Invalid settings.interactive_enabled in " ++ path.text ++ ". Using default 'True'."

def envWarning (path : Path) : Except Fault String :=
  return "Invalid settings.env in " ++ path.text ++ ". Ignoring."

def variableNameWarning (name : Value) : Except Fault String :=
  return "Invalid variable name '" ++ (← name.text) ++ "' in settings.env. Ignoring."

def variableValueWarning (name : String) : Except Fault String :=
  return "Invalid value for settings.env." ++ name ++ ". Ignoring."

/-! ### Settings -/

/-- The entries of a configuration with the given text. What does not count as given has none. -/
def ofText (path : Path) (text : String) : Warned (Ordered Value Value) :=
  match Yaml.read text with
  | .error .malformed => do
    Warned.warn (syntaxWarning path)
    return []
  | .error (.fault fault) => .silent (.error fault)
  | .ok value =>
    match (value.orElse (.ofEntries [])).entries? with
    | some entries => return entries
    | none => do
      Warned.warn (formatWarning path)
      return []

/-- Warns about the keys of some entries other than the given texts. -/
def warnUnknown (entries : Ordered Value Value) (known : List String)
    (warning : Value → Except Fault String) : Warned Unit :=
  entries.forM fun entry =>
    match entry.1 with
    | .str name => if known.contains name then return () else Warned.warn (warning (.str name))
    | other => Warned.warn (warning other)

/-- The settings of a configuration. -/
def settings (path : Path) (entries : Ordered Value Value) : Warned (Ordered Value Value) := do
  warnUnknown entries ["settings"] (keyWarning path)
  match ((Value.field? entries "settings").getD (.ofEntries [])).entries? with
  | some settings => do
    warnUnknown settings ["interactive_enabled", "env"] (settingWarning path)
    return settings
  | none => do
    Warned.warn (settingsWarning path)
    return []

/-- Whether questions may be asked: they may, unless the settings forbid it. -/
def interactive (path : Path) (settings : Ordered Value Value) : Warned Bool :=
  match Value.field settings "interactive_enabled" with
  | .null => return true
  | .bool truth => return truth
  | _ => do
    Warned.warn (interactiveWarning path)
    return true

/-- Whether a value can be the value of a variable. -/
def isVariableValue (value : Value) : Bool :=
  match value.opened with
  | .null => false
  | .list .. => false
  | .map .. => false
  | _ => true

/-- The text of a variable's value. Truth values are written in small letters. -/
def variableText : Value → Except Fault String
  | .bool true => return "true"
  | .bool false => return "false"
  | value => value.text

/-- Adds a variable, or warns why it is left out. -/
def addVariable (env : Env) (entry : Value × Value) : Warned Env := do
  match Env.checkName entry.1 with
  | .error _ => do
    Warned.warn (variableNameWarning entry.1)
    return env
  | .ok name =>
    if isVariableValue entry.2 then
      let text ← variableText entry.2
      return env.put name text
    else
      Warned.warn (variableValueWarning name)
      return env

/-- The variables that every rendering starts from. -/
def env (path : Path) (settings : Ordered Value Value) : Warned Env :=
  let value := Value.field settings "env"
  if value.isNull then return []
  else
    match value.entries? with
    | some entries => entries.foldlM addVariable []
    | none => do
      Warned.warn (envWarning path)
      return []

/-- The usual configuration. -/
def usual (interactive : Value) : Value :=
  .ofEntries
    [(.str "settings",
      .ofEntries [(.str "interactive_enabled", interactive), (.str "env", .ofEntries [])])]

/-- The text of the usual configuration. -/
def usualText (interactive : Value) : Except Fault String :=
  Yaml.write ⟨false⟩ (usual interactive)

end Config

namespace Project

/-- The entries of a project's configuration. -/
def readConfig (project : Project) (files : Files) : Warned (Ordered Value Value) := do
  if ← files.isPresent project.configPath then
    let text ← files.readText project.configPath
    Config.ofText project.configPath text
  else return []

/-- The settings of a project. -/
def settings (project : Project) (files : Files) : Warned (Ordered Value Value) := do
  Config.settings project.configPath (← project.readConfig files)

/-- Whether questions may be asked about a project. -/
def interactive (project : Project) (files : Files) : Warned Bool := do
  Config.interactive project.configPath (← project.settings files)

/-- The variables that every rendering of a project starts from. -/
def baseEnv (project : Project) (files : Files) : Warned Env := do
  Config.env project.configPath (← project.settings files)

/-- A configuration as it is given by default, written where there is none; whether it was
written. -/
def writeUsualConfig (project : Project) (interactive : Value) : Operation Bool := do
  let files ← Operation.files
  if ← files.isPresent project.configPath then return false
  let text ← Config.usualText interactive
  Operation.writeText project.configPath text
  return true

end Project

end Taskbook
