/-
Merging mappings into mappings.

Under a merge key stands a mapping, or a sequence of mappings of which the first wins,
whose entries are put in front of the mapping's own ones. A mapping that is merged has
its own merge keys resolved first. A value key is an ordinary text when its mapping is
read as one.

Every merge key is taken out of its mapping before what stands under it is looked at. So
a mapping may be merged into itself, and what is merged is what it has by then.
-/

import Taskbook.Yaml.Document.Basic
import Taskbook.Yaml.Token

namespace Taskbook.Yaml

/-- The nodes of a document while merge keys are resolved. -/
abbrev Merging (α : Type) := StateT (Array Part) (Except ReadError) α

namespace Merging

/-- The node of a number. -/
def part (place : Nat) : Merging Part :=
  return partAt (← get) place

/-- The tag of the node of a number. -/
def tag (place : Nat) : Merging Tag :=
  return (← part place).tag

/-- The entries of a mapping; whatever else there is cannot be merged. -/
def entries (place : Nat) : Merging (List (Nat × Nat)) := do
  match (← part place).content with
  | .mapping entries => return entries
  | _ => throw .malformed

/-- Gives a mapping other entries. -/
def setEntries (place : Nat) (entries : List (Nat × Nat)) : Merging Unit :=
  modify fun parts => parts.modify place fun part => { part with content := .mapping entries }

/-- Makes ordinary texts of the value keys of a mapping. -/
def retagValueKeys (place : Nat) : Merging Unit := do
  for (key, _) in ← entries place do
    if (← tag key) = .value then
      modify fun parts => parts.modify key fun part => { part with tag := .str }

/-- Splits the entries of a mapping at the first merge key; gives what stands under it and the
entries without it. -/
def splitAtMergeKey? (parts : Array Part) :
    List (Nat × Nat) → Option (Nat × List (Nat × Nat))
  | [] => none
  | (key, value) :: rest =>
    if (partAt parts key).tag = .merge then some (value, rest)
    else (splitAtMergeKey? parts rest).map fun (found, others) => (found, (key, value) :: others)

/-- Takes the first merge key out of a mapping and gives what stands under it. -/
def takeMergeKey (place : Nat) : Merging (Option Nat) := do
  match splitAtMergeKey? (← get) (← entries place) with
  | none => return none
  | some (value, others) => do
    setEntries place others
    return some value

/-- Resolves the merge keys of a mapping. The first argument bounds the number of merge keys that
are left. -/
def resolve : Nat → Nat → Merging Unit
  | 0, place => retagValueKeys place
  | bound + 1, place => do
    match ← takeMergeKey place with
    | none => retagValueKeys place
    | some source => do
      let inherited ← match (← part source).content with
        | .sequence items =>
          items.foldlM (fun later item => do
            let _ ← entries item
            resolve bound item
            return (← entries item) ++ later) []
        | _ => do
          let _ ← entries source
          resolve bound source
          entries source
      resolve bound place
      setEntries place (inherited ++ (← entries place))

/-- The number of the merge keys of a document. -/
def mergeKeyCount (parts : Array Part) : Nat :=
  parts.foldl (fun count part =>
    match part.content with
    | .mapping entries => count + entries.countP fun entry => (partAt parts entry.1).tag = .merge
    | _ => count) 0

end Merging

end Taskbook.Yaml
