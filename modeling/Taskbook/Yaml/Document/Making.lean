/-
What is made of the nodes of a document.

A scalar stands for what its tag makes of its text. A collection is first made empty and
filled later: when all that was asked for so far is made, the collections among it are
filled in order, which may ask for more. So of several things that are wrong with a
document the one nearest to the root is reported, and of those at one depth the first.
Each node is made once, however often it is asked for.

In a mapping a key that comes again keeps its place and takes the later value. The key of
a mapping must be a value that can be one, and there are mappings that stand for sets and
sequences that stand for lists of pairs.
-/

import Taskbook.Ordered
import Taskbook.Value.Equality
import Taskbook.Yaml.Data.Scalar
import Taskbook.Yaml.Document.Members
import Taskbook.Yaml.Document.Merging

namespace Taskbook.Yaml

/-- What is made of a node; the parts of a collection are given by their numbers. The pairs of a
list of pairs are no nodes and have numbers of their own, from a first one on. -/
inductive Made where
  | scalar (value : Value)
  | list (items : List Nat)
  | pairs (first : Nat) (items : List (Nat × Nat))
  | set (keys : List Nat)
  | map (entries : List (Nat × Nat))
  deriving Inhabited

/-- The nodes of a document while something is made of them: what there is of each by now, the
collections that are still to be filled, from the last one, the number of merge keys at the
start, and the next number that no node and no pair has. -/
structure Draft where
  parts : Array Part
  made : Array (Option Made)
  pending : List Nat
  mergeKeys : Nat
  nextNumber : Nat

/-- Making something of the nodes of a document. -/
abbrev Making (α : Type) := StateT Draft (Except ReadError) α

namespace Making

/-- The node of a number. -/
def part (place : Nat) : Making Part :=
  return partAt (← get).parts place

/-- What has been made of a node. -/
def made? (place : Nat) : Making (Option Made) :=
  return (← get).made.getD place none

/-- Says what is made of a node. -/
def make (place : Nat) (made : Made) : Making Unit :=
  modify fun draft => { draft with made := draft.made.setIfInBounds place (some made) }

/-- Goes on where merge keys are resolved. -/
def ofMerging {α : Type} (merging : Merging α) : Making α := do
  let draft ← get
  let (result, parts) ← merging.run draft.parts
  set { draft with parts := parts }
  return result

/-! ### Scalars -/

/-- The text of a scalar, or of what stands under the value key of a mapping. The first argument
bounds the number of mappings inside each other; there are no more than that unless one is
inside itself. -/
def scalarText (parts : Array Part) : Nat → Nat → Except ReadError String
  | 0, _ => .error (.fault .tooDeep)
  | bound + 1, place =>
    match (partAt parts place).content with
    | .scalar text => .ok text
    | .sequence _ => .error .malformed
    | .mapping entries =>
      match entries.find? fun entry => (partAt parts entry.1).tag = .value with
      | some (_, value) => scalarText parts bound value
      | none => .error .malformed

/-- A point in time has to be a scalar itself. -/
def stampOf (content : Content) (text : String) : Except ReadError Value :=
  match content with
  | .scalar _ => pointInTime text.toList
  | _ => .error (.fault .wrongType)

/-- The value of a node whose tag makes a scalar. -/
def scalarValue (parts : Array Part) (place : Nat) : Except ReadError Value := do
  let part := partAt parts place
  let text := scalarText parts (parts.size + 1) place
  match part.tag with
  | .null =>
    let _ ← text
    return .null
  | .bool => truthValue (← text)
  | .int => integer (← text).toList
  | .float => float (← text).toList
  | .str => return .str (← text)
  | .binary => octets (← text).toList
  | .timestamp => stampOf part.content (← text)
  | _ => throw .malformed

/-! ### Asking for nodes -/

/-- The collection that a tag makes, before it is filled. -/
def empty? : Tag → Option Made
  | .seq => some (.list [])
  | .omap => some (.pairs 0 [])
  | .pairs => some (.pairs 0 [])
  | .set => some (.set [])
  | .map => some (.map [])
  | _ => none

/-- Asks for a node: a scalar is made at once, a collection empty. -/
def ask (place : Nat) : Making Unit := do
  if (← made? place).isSome then return ()
  match empty? (← part place).tag with
  | some empty => do
    make place empty
    modify fun draft => { draft with pending := place :: draft.pending }
  | none => do
    let value ← scalarValue (← get).parts place
    make place (.scalar value)

/-- Asks for a node that is a key: it must not be a collection. -/
def askKey (place : Nat) : Making Unit := do
  ask place
  match ← made? place with
  | some (.scalar _) => return ()
  | _ => throw .malformed

/-! ### Filling collections -/

/-- The items of a sequence; what stands for a list must be one. -/
def itemsOf (place : Nat) : Making (List Nat) := do
  match (← part place).content with
  | .sequence items => return items
  | _ => throw .malformed

/-- Asks for the key and the value of a mapping of one entry. -/
def askPair (place : Nat) : Making (Nat × Nat) := do
  match (← part place).content with
  | .mapping [(key, value)] => do
    ask key
    ask value
    return (key, value)
  | _ => throw .malformed

/-- The text of a scalar node; none for other nodes. -/
def plainText? (parts : Array Part) (place : Nat) : Option String :=
  match (partAt parts place).content with
  | .scalar text => some text
  | _ => none

/-- Whether a node is a float that names the one not-a-number. -/
def isNamedNaNAt (parts : Array Part) (place : Nat) : Bool :=
  (partAt parts place).tag = .float &&
    (plainText? parts place).any fun text => isNamedNaN text.toList

/-- Whether two nodes make the same key: they are one node, or their values are equal, or both
name the one not-a-number. -/
def isSameKey (draft : Draft) (first second : Nat) : Bool :=
  first = second ||
    (isNamedNaNAt draft.parts first && isNamedNaNAt draft.parts second) ||
    match draft.made.getD first none, draft.made.getD second none with
    | some (.scalar left), some (.scalar right) => Value.same left right
    | _, _ => false

/-- Puts an entry into a mapping: in the place of its key if that is there, else at the end. -/
def putEntry (draft : Draft) (entries : List (Nat × Nat)) (entry : Nat × Nat) :
    List (Nat × Nat) :=
  match entries with
  | [] => [entry]
  | other :: rest =>
    if isSameKey draft other.1 entry.1 then (other.1, entry.2) :: rest
    else other :: putEntry draft rest entry

/-- Asks for the entries of a mapping after those that are merged into it. -/
def askEntries (place : Nat) : Making (List (Nat × Nat)) := do
  let bound := (← get).mergeKeys
  let entries ← ofMerging do
    let _ ← Merging.entries place
    Merging.resolve bound place
    Merging.entries place
  entries.foldlM (fun entries entry => do
    askKey entry.1
    ask entry.2
    return putEntry (← get) entries entry) []

/-- Gives numbers to so many pairs and tells the first one. -/
def numberPairs (count : Nat) : Making Nat := do
  let first := (← get).nextNumber
  modify fun draft => { draft with nextNumber := first + count }
  return first

/-- The value that has been made of a scalar node; null for other nodes. -/
def scalarMade (draft : Draft) (place : Nat) : Value :=
  match draft.made.getD place none with
  | some (.scalar value) => value
  | _ => .null

/-- Fills a collection. -/
def fill (place : Nat) : Making Unit := do
  match ← made? place with
  | some (.list _) => do
    let items ← itemsOf place
    items.forM ask
    make place (.list items)
  | some (.pairs ..) => do
    let items ← (← itemsOf place).mapM askPair
    make place (.pairs (← numberPairs items.length) items)
  | some (.set _) => do
    let members := (← askEntries place).map Prod.fst
    make place (.set (Members.inOrder (scalarMade (← get)) members))
  | some (.map _) => do
    let entries ← askEntries place
    make place (.map entries)
  | _ => return ()

/-- Fills the collections that are pending, and those that filling them asks for. The argument
bounds the depth. -/
def fillPending : Nat → Making Unit
  | 0 => return ()
  | bound + 1 => do
    let pending := (← get).pending
    if pending.isEmpty then return ()
    modify fun draft => { draft with pending := [] }
    pending.reverse.forM fill
    fillPending bound

end Making

/-- What is made of the nodes of a document. -/
def Document.make (document : Document) : Except ReadError (Array (Option Made)) := do
  let parts := document.parts
  let draft : Draft :=
    { parts := parts, made := parts.map fun _ => none, pending := []
      mergeKeys := Merging.mergeKeyCount parts, nextNumber := parts.size }
  let making : Making Unit := do
    Making.ask document.root
    Making.fillPending (parts.size + 1)
  let (_, draft) ← making.run draft
  return draft.made

end Taskbook.Yaml
