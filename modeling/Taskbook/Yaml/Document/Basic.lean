/-
Documents as tables of their nodes.

In a tree an alias only names the node that it stands for. In a document every node has a
number, in the order of the text, and a collection holds the numbers of its parts; so an
alias is the number of its node once more, and a collection may well hold itself.
-/

import Taskbook.Yaml.Node.Basic

namespace Taskbook.Yaml

/-- What a node of a document is made of; its parts are given by their numbers. -/
inductive Content where
  | scalar (text : String)
  | sequence (items : List Nat)
  | mapping (entries : List (Nat × Nat))
  deriving DecidableEq, Repr

instance : Inhabited Content := ⟨.scalar ""⟩

/-- A node of a document. -/
structure Part where
  tag : Tag
  content : Content
  deriving DecidableEq, Repr

instance : Inhabited Part := ⟨⟨.null, .scalar ""⟩⟩

/-- The nodes of a document by their numbers, and the number of its root. -/
structure Document where
  parts : Array Part
  root : Nat
  deriving DecidableEq, Repr

/-- The node of a number. -/
def partAt (parts : Array Part) (place : Nat) : Part :=
  parts.getD place default

namespace Document

/-- The nodes that have numbers so far, and the numbers of those with names. -/
structure Numbering where
  parts : Array Part
  names : List (String × Nat)

/-- Gives the next number to a node, whose name stands for it from here on. -/
def number (anchor : Option String) (part : Part) : StateM Numbering Nat := do
  let numbering ← get
  let next := numbering.parts.size
  let named := match anchor with
    | some name => (name, next) :: numbering.names
    | none => numbering.names
  set ({ parts := numbering.parts.push part, names := named } : Numbering)
  return next

/-- Says what a numbered node is made of. -/
def fill (place : Nat) (part : Part) : StateM Numbering Unit :=
  modify fun numbering => { numbering with parts := numbering.parts.setIfInBounds place part }

mutual

/-- Numbers a node and its parts; an alias has the number of its node. -/
def numberNode : Node → StateM Numbering Nat
  | .scalar anchor tag text => number anchor ⟨tag, .scalar text⟩
  | .sequence anchor tag items => do
    let place ← number anchor ⟨tag, .sequence []⟩
    let items ← numberItems items
    fill place ⟨tag, .sequence items⟩
    return place
  | .mapping anchor tag entries => do
    let place ← number anchor ⟨tag, .mapping []⟩
    let entries ← numberEntries entries
    fill place ⟨tag, .mapping entries⟩
    return place
  | .reference name => return ((← get).names.lookup name).getD 0

/-- Numbers several nodes one after the other. -/
def numberItems : List Node → StateM Numbering (List Nat)
  | [] => return []
  | item :: rest => do
    let first ← numberNode item
    let others ← numberItems rest
    return first :: others

/-- Numbers the keys and the values of several entries one after the other. -/
def numberEntries : List (Node × Node) → StateM Numbering (List (Nat × Nat))
  | [] => return []
  | (key, value) :: rest => do
    let first ← numberNode key
    let second ← numberNode value
    let others ← numberEntries rest
    return (first, second) :: others

end

/-- The document with a given root. -/
def ofNode (root : Node) : Document :=
  let (place, numbering) := (numberNode root).run ⟨#[], []⟩
  ⟨numbering.parts, place⟩

end Document

end Taskbook.Yaml
