/-
Environments: variables with the texts they are set to.

An environment is given as a mapping and kept as texts by name in the order in which
the names were first set. Layers of environments are merged upwards: the keys come in
the order of their first occurrence and the highest layer that has a key decides.

The lowest layer of a rendering is not checked: whatever can fill a dictionary is
taken, a mapping or a sequence of pairs.
-/

import Taskbook.Ordered
import Taskbook.Names
import Taskbook.Error
import Taskbook.Value.Argument
import Taskbook.Value.Equality

namespace Taskbook

/-- Texts by variable name, in the order in which the names were first set. -/
abbrev Env := Ordered String String

namespace Env

/-- Refuses what cannot name a variable. -/
def checkName (name : Value) : Except Error String :=
  match name with
  | .str text => if isVariableName text then .ok text else .error (.variableName name)
  | _ => .error (.variableName name)

/-- Sets a variable to the text of a value. -/
def assign (env : Env) (name value : Value) : Except Error Env := do
  let name ← checkName name
  let text ← value.text
  return env.put name text

/-- Sets each variable of a mapping to the text of its value. -/
def ofEntries (entries : List (Value × Value)) : Except Error Env :=
  entries.foldlM (fun env entry => env.assign entry.1 entry.2) []

/-- The environment that a mapping describes; what does not count as given describes the
empty one. -/
def ofValue (value : Value) : Except Error Env :=
  if value.isTruthy then
    match value.entries? with
    | some entries => ofEntries entries
    | none => .error (.fault .missingPart)
  else .ok []

/-- The environment that an argument describes. -/
def ofArgument (argument : Argument) : Except Error Env := do
  let value ← argument.asked
  ofValue value

/-- An environment as the entries of a mapping. -/
def entries (env : Env) : Ordered Value Value :=
  env.map fun (name, text) => (.str name, .str text)

/-- An environment as a mapping. -/
def toValue (env : Env) : Value :=
  .ofEntries env.entries

end Env

/-! ### Unchecked layers -/

namespace Value

/-- What a value gives one after the other when it is gone through; none if it cannot be. -/
def elements? (value : Value) : Option (List Value) :=
  match value.opened with
  | list _ items => some items
  | pair _ first second => some [first, second]
  | set _ items => some items
  | str text => some ((Text.letters text).map fun letter => str (Text.ofLetters [letter]))
  | bytes octets => some (octets.map fun octet => int octet.toNat)
  | map _ entries => some (entries.map Prod.fst)
  | _ => none

/-- An element of a sequence as an entry of a dictionary. -/
def entry (element : Value) : Except Fault (Value × Value) :=
  match element.elements? with
  | none => .error .wrongType
  | some [key, value] => if key.isKey then .ok (key, value) else .error .wrongType
  | some _ => .error .wrongValue

/-- The entries that a value adds to a dictionary. -/
def layer (value : Value) : Except Fault (Ordered Value Value) :=
  if value.isTruthy then
    match value.entries?, value.elements? with
    | some entries, _ => .ok entries
    | none, some elements => elements.mapM entry
    | none, none => .error .wrongType
  else .ok []

end Value

/-! ### Assignments -/

/-- One variable set for the commands that follow. The value stays shell text, so that
substitutions in it take place when the command runs. -/
def assignment (name text : String) : String :=
  "export " ++ name ++ "=\"" ++ text ++ "\";"

/-- The texts of the keys and the values of some entries. -/
def entryTexts (entries : Ordered Value Value) : Except Fault (List (String × String)) :=
  entries.mapM fun (name, value) => do
    let key ← name.text
    let text ← value.text
    return (key, text)

/-- The dictionary that layers are merged to, whose keys and values may be of any type. -/
def mergeLayers (layers : List Value) : Except Fault (Ordered Value Value) := do
  let layers ← layers.mapM Value.layer
  return Ordered.mergeAll layers

/-- The assignments of merged layers. -/
def layerAssignments (layers : List Value) : Except Fault (List String) := do
  let merged ← mergeLayers layers
  let texts ← entryTexts merged
  return texts.map fun (name, text) => assignment name text

end Taskbook
