/-
YAML documents as trees, between text and data.

A node is a scalar with its text, a sequence of nodes, a mapping of nodes to nodes, or an
alias. A node may have an anchor, a name by which aliases refer to it; an alias stands
for the node that has its name. How a scalar was quoted is no longer visible in it.
-/

import Taskbook.Yaml.Tag

namespace Taskbook.Yaml

/-- A node of a document. -/
inductive Node where
  | scalar (anchor : Option String) (tag : Tag) (text : String)
  | sequence (anchor : Option String) (tag : Tag) (items : List Node)
  | mapping (anchor : Option String) (tag : Tag) (entries : List (Node × Node))
  | reference (name : String)

instance : Inhabited Node := ⟨.scalar none .null ""⟩

namespace Node

mutual

/-- The names that aliases refer to, in the order of the aliases. -/
def aliases : Node → List String
  | scalar .. => []
  | sequence _ _ items => itemAliases items
  | mapping _ _ entries => entryAliases entries
  | reference name => [name]

/-- The names that aliases among several nodes refer to. -/
def itemAliases : List Node → List String
  | [] => []
  | item :: rest => item.aliases ++ itemAliases rest

/-- The names that aliases among several entries refer to. -/
def entryAliases : List (Node × Node) → List String
  | [] => []
  | (key, value) :: rest => key.aliases ++ (value.aliases ++ entryAliases rest)

end

mutual

/-- A node with other names; an anchor without another name is dropped. -/
def rename (names : String → Option String) : Node → Node
  | scalar anchor tag text => scalar (anchor.bind names) tag text
  | sequence anchor tag items => sequence (anchor.bind names) tag (renameItems names items)
  | mapping anchor tag entries => mapping (anchor.bind names) tag (renameEntries names entries)
  | reference name => reference ((names name).getD name)

/-- Several nodes with other names. -/
def renameItems (names : String → Option String) : List Node → List Node
  | [] => []
  | item :: rest => item.rename names :: renameItems names rest

/-- Several entries with other names. -/
def renameEntries (names : String → Option String) : List (Node × Node) → List (Node × Node)
  | [] => []
  | (key, value) :: rest =>
    (key.rename names, value.rename names) :: renameEntries names rest

end

end Node

end Taskbook.Yaml
