/-
Tokens as trees.

A text holds at most one document. Its nodes are read by descent: each kind of
collection is a row of entries between its marks, and an entry that is not written is an
empty scalar, which is null unless it has a tag. No two nodes have one name, and an alias
refers to a node whose name comes before it. That node may still be open, so that it
becomes part of itself. Collections too deep inside each other are not read.

What is wrong with the text behind the tokens counts only when the tokens before it make
sense.
-/

import Taskbook.Depths
import Taskbook.Yaml.Node.Basic
import Taskbook.Yaml.Plain
import Taskbook.Yaml.Token

namespace Taskbook.Yaml

variable [Depths]

/-- What is left of the tokens, the names given so far, what tag handles stand for, and how many
collections are open. -/
structure Reading where
  tokens : List Token
  failure : Option ReadError
  names : List String
  handles : List (String × String)
  depth : Nat

/-- Reading tokens step by step. -/
abbrev Read (α : Type) := StateT Reading (Except ReadError) α

namespace Read

/-- The next token; none at the end of the text. -/
def peek : Read (Option Token) := do
  let reading ← get
  match reading.tokens, reading.failure with
  | token :: _, _ => return some token
  | [], none => return none
  | [], some error => throw error

/-- Goes past a token. -/
def skip : Read Unit :=
  modify fun reading => { reading with tokens := reading.tokens.drop 1 }

/-- Whether the next token is among the given ones. -/
def nextIs (tokens : List Token) : Read Bool := do
  match ← peek with
  | some token => return tokens.contains token
  | none => return false

/-- Goes past a token if it is next. -/
def accept (token : Token) : Read Bool := do
  if ← nextIs [token] then do
    skip
    return true
  else return false

/-- Goes past a token that must be next. -/
def expect (token : Token) : Read Unit := do
  if !(← accept token) then throw .malformed

/-! ### Properties of nodes -/

/-- The anchor and the tag in front of a node. -/
structure Properties where
  anchor : Option String
  tag : Option (Option String × String)

def acceptAnchor : Read (Option String) := do
  match ← peek with
  | some (.anchor name) => do
    skip
    return some name
  | _ => return none

def acceptTag : Read (Option (Option String × String)) := do
  match ← peek with
  | some (.tag handle suffix) => do
    skip
    return some (handle, suffix)
  | _ => return none

/-- The properties of a node in either order. -/
def properties : Read Properties := do
  match ← acceptAnchor with
  | some name => do
    let tag ← acceptTag
    return ⟨some name, tag⟩
  | none =>
    match ← acceptTag with
    | some tag => do
      let anchor ← acceptAnchor
      return ⟨anchor, some tag⟩
    | none => return ⟨none, none⟩

/-- The full name of a tag; a handle must have been declared. -/
def tagName (tag : Option String × String) : Read String := do
  match tag with
  | (none, suffix) => return suffix
  | (some handle, suffix) =>
    match (← get).handles.find? (·.1 = handle) with
    | some (_, beginning) => return beginning ++ suffix
    | none => throw .malformed

/-- The tag of a scalar: the written one, else that of its looks. An exclamation mark alone asks
for the looks also of a quoted scalar. -/
def scalarTag (tag : Option String) (plain : Bool) (text : String) : Tag :=
  match tag with
  | none => if plain then plainTag text else .str
  | some name => if name = "!" then plainTag text else .ofName name

/-- The tag of a collection: the written one, else the usual one. -/
def collectionTag (tag : Option String) (usual : Tag) : Tag :=
  match tag with
  | none => usual
  | some name => if name = "!" then usual else .ofName name

/-- Takes a name for a node that is about to be read. The token after the properties is looked
at first. -/
def declare (anchor : Option String) : Read Unit := do
  match anchor with
  | none => return ()
  | some name => do
    let _ ← peek
    if (← get).names.contains name then throw .malformed
    modify fun reading => { reading with names := name :: reading.names }

/-- The alias of a name, which must have been given. -/
def aliasOf (name : String) : Read Node := do
  if (← get).names.contains name then return .reference name else throw .malformed

/-- The scalar that stands where nothing is written. -/
def absent : Node := .scalar none .null ""

/-- Reads the parts of a collection, unless it is too deep inside others. -/
def inside {α : Type} (parts : Read α) : Read α := do
  let reading ← get
  if reading.depth < Depths.reading then do
    set { reading with depth := reading.depth + 1 }
    let result ← parts
    modify fun reading => { reading with depth := reading.depth - 1 }
    return result
  else throw (.fault .tooDeep)

/-! ### Nodes -/

mutual

/-- A node. Inside a mapping the items of a sequence may start in the column of the key, so
that no block is opened for them. The first argument of all these readers bounds the depth
and the length of what they read. -/
def node (block indentless : Bool) : Nat → Read Node
  | 0 => throw .malformed
  | bound + 1 => do
    match ← peek with
    | some (.reference name) => do
      skip
      aliasOf name
    | _ => do
      let properties ← properties
      let tag ← properties.tag.mapM tagName
      declare properties.anchor
      content block indentless properties.anchor tag bound

/-- The content of a node after its properties. -/
def content (block indentless : Bool) (anchor tag : Option String) : Nat → Read Node
  | 0 => throw .malformed
  | bound + 1 => do
    match ← peek with
    | some (.scalar plain text) => do
      skip
      return .scalar anchor (scalarTag tag plain text) text
    | some .flowSequenceStart => do
      skip
      return .sequence anchor (collectionTag tag .seq) (← inside (flowItems true bound))
    | some .flowMappingStart => do
      skip
      return .mapping anchor (collectionTag tag .map) (← inside (flowEntries true bound))
    | next =>
      if indentless && next = some .blockEntry then
        return .sequence anchor (collectionTag tag .seq) (← inside (indentlessItems bound))
      else if block && next = some .blockSequenceStart then do
        skip
        return .sequence anchor (collectionTag tag .seq) (← inside (blockItems bound))
      else if block && next = some .blockMappingStart then do
        skip
        return .mapping anchor (collectionTag tag .map) (← inside (blockEntries bound))
      else if anchor.isSome || tag.isSome then
        return .scalar anchor (scalarTag tag true "") ""
      else throw .malformed

/-- The items of a block sequence up to its end. -/
def blockItems : Nat → Read (List Node)
  | 0 => throw .malformed
  | bound + 1 => do
    if ← accept .blockEntry then do
      let item ←
        if ← nextIs [.blockEntry, .blockEnd] then pure absent else node true false bound
      return item :: (← blockItems bound)
    else do
      expect .blockEnd
      return []

/-- The items of a sequence that opened no block. -/
def indentlessItems : Nat → Read (List Node)
  | 0 => throw .malformed
  | bound + 1 => do
    if ← accept .blockEntry then do
      let item ←
        if ← nextIs [.blockEntry, .key, .value, .blockEnd] then pure absent
        else node true false bound
      return item :: (← indentlessItems bound)
    else return []

/-- A key or a value of a block mapping after its mark. -/
def blockPart : Nat → Read Node
  | 0 => throw .malformed
  | bound + 1 => do
    if ← nextIs [.key, .value, .blockEnd] then return absent else node true true bound

/-- The entries of a block mapping up to its end. -/
def blockEntries : Nat → Read (List (Node × Node))
  | 0 => throw .malformed
  | bound + 1 => do
    if ← accept .key then do
      let key ← blockPart bound
      let value ← if ← accept .value then blockPart bound else pure absent
      return (key, value) :: (← blockEntries bound)
    else do
      expect .blockEnd
      return []

/-- An item of a sequence in brackets after the mark of a key: a mapping of one entry. -/
def singleEntry : Nat → Read Node
  | 0 => throw .malformed
  | bound + 1 => do
    let key ←
      if ← nextIs [.value, .flowEntry, .flowSequenceEnd] then pure absent
      else node false false bound
    let value ←
      if ← accept .value then
        if ← nextIs [.flowEntry, .flowSequenceEnd] then pure absent else node false false bound
      else pure absent
    return .mapping none .map [(key, value)]

/-- The items of a sequence in brackets up to its end. -/
def flowItems (first : Bool) : Nat → Read (List Node)
  | 0 => throw .malformed
  | bound + 1 => do
    if ← accept .flowSequenceEnd then return []
    if !first then expect .flowEntry
    if ← accept .key then do
      let item ← inside (singleEntry bound)
      return item :: (← flowItems false bound)
    else if ← accept .flowSequenceEnd then return []
    else do
      let item ← node false false bound
      return item :: (← flowItems false bound)

/-- The entries of a mapping in braces up to its end. -/
def flowEntries (first : Bool) : Nat → Read (List (Node × Node))
  | 0 => throw .malformed
  | bound + 1 => do
    if ← accept .flowMappingEnd then return []
    if !first then expect .flowEntry
    if ← accept .key then do
      let key ←
        if ← nextIs [.value, .flowEntry, .flowMappingEnd] then pure absent
        else node false false bound
      let value ←
        if ← accept .value then
          if ← nextIs [.flowEntry, .flowMappingEnd] then pure absent else node false false bound
        else pure absent
      return (key, value) :: (← flowEntries false bound)
    else if ← accept .flowMappingEnd then return []
    else do
      let key ← node false false bound
      return (key, absent) :: (← flowEntries false bound)

end

/-! ### Documents -/

/-- The handles that need no directive. -/
def usualHandles : List (String × String) :=
  [("!", "!"), ("!!", Tag.standard)]

/-- The directives in front of a document: at most one version, which must be 1, and at most one
beginning for each handle. The first argument bounds their number. -/
def directives : Nat → Bool → List (String × String) → Read (List (String × String))
  | 0, _, handles => return handles
  | bound + 1, versioned, handles => do
    match ← peek with
    | some (.directive directive) => do
      skip
      match directive with
      | .version major =>
        if versioned || major ≠ 1 then throw .malformed
        directives bound true handles
      | .handle handle beginning =>
        if handles.any (·.1 = handle) then throw .malformed
        directives bound versioned (handles ++ [(handle, beginning)])
      | .other => directives bound versioned handles
    | _ => return handles

/-- Whether a document without content ends here. -/
def documentIsEmpty : Read Bool := do
  match ← peek with
  | none => return true
  | some (.directive _) => return true
  | some token => return token = .documentStart || token = .documentEnd

/-- Goes past the marks of the end of a document. The argument bounds their number. -/
def skipDocumentEnds : Nat → Read Unit
  | 0 => return ()
  | bound + 1 => do
    if ← accept .documentEnd then skipDocumentEnds bound else return ()

/-- The directives and the start of a document that are written out. -/
def documentStart (bound : Nat) : Read Unit := do
  let handles ← directives bound false []
  modify fun reading => { reading with handles := handles ++ usualHandles }
  expect .documentStart

/-- The root of a document whose start is written out; none if the text is over. -/
def explicitDocument (bound : Nat) : Read (Option Node) := do
  skipDocumentEnds bound
  if (← peek).isNone then return none
  else do
    documentStart bound
    if ← documentIsEmpty then return some absent
    else return some (← node true false bound)

/-- Refuses another document after the first one. -/
def expectEnd (bound : Nat) : Read Unit := do
  skipDocumentEnds bound
  if (← peek).isSome then do
    documentStart bound
    throw .malformed

/-- The only document of the text; none if there is none. -/
def document (bound : Nat) : Read (Option Node) := do
  let implicit ← match ← peek with
    | none => pure false
    | some (.directive _) => pure false
    | some token => pure (token ≠ .documentStart)
  let root ←
    if implicit then do
      modify fun reading => { reading with handles := usualHandles }
      pure (some (← node true false bound))
    else explicitDocument bound
  expectEnd bound
  return root

end Read

/-- The root of the document that tokens make up; none without a document. -/
def Node.ofTokens (tokens : List Token) (failure : Option ReadError) :
    Except ReadError (Option Node) :=
  let reading : Reading := ⟨tokens, failure, [], [], 0⟩
  (Read.document (4 * tokens.length + 8)).run' reading

end Taskbook.Yaml
