/-
Outlines: documents of texts.

What is saved for a registry are mappings of names to texts, to mappings and to lists of mappings.
An outline is the tree of such a document. Nothing in it has a name of its own or a tag that is
written, a list stands under a key that is short enough for one line, and the columns that its
blocks begin in leave room for texts. The words of an outline are the tokens that its text is made
of: a list under a key opens no block, and what is empty stands in brackets.
-/

import Taskbook.Names
import Taskbook.Value.Basic
import Taskbook.Yaml.Token
import Taskbook.Yaml.Writer

namespace Taskbook.Yaml

/-! ### Texts -/

/-- Whether a text is one that is read as it was written. It spells letters, and it is not written
between single quotes with a next-line character in it, which would be read as another line end. -/
structure IsRestorable (text : String) : Prop where
  spelled : Text.ofLetters (Text.letters text) = text
  readable : nextLine ∈ text.toList → (analyze ⟨true⟩ text.toList).single = false

/-- Whether a text is written without quotes. -/
def isPlainText (text : String) : Bool :=
  plainTag text = .str && (analyze ⟨true⟩ text.toList).plain

/-- Whether a text can be a key: a name of a task, of a variable or of a field. -/
def isKeyName (name : String) : Bool :=
  match name.toList with
  | [] => false
  | first :: rest => (startsTaskName first || first = '_') && rest.all continuesTaskName

namespace Node

/-! ### Outlines -/

/-- Whether a node is a mapping that is not empty. -/
def isRecord : Node → Bool
  | mapping _ _ (_ :: _) => true
  | _ => false

/-- Whether a node is a sequence. -/
def isSequence : Node → Bool
  | sequence .. => true
  | _ => false

theorem not_isSequence_of_isRecord {node : Node} (record : node.isRecord = true) :
    ¬node.isSequence = true := by
  cases node with
  | sequence => cases record
  | _ => nofun

/-- The last column that a text may be indented to. -/
def lastColumn : Nat := 78

mutual

/-- Whether a node is an outline in a block that begins in a column. -/
def IsOutline (column : Nat) : Node → Prop
  | scalar anchor tag text =>
    anchor = none ∧ tag = .str ∧ IsRestorable text ∧ column + 2 ≤ lastColumn
  | sequence anchor tag items =>
    anchor = none ∧ tag = .seq ∧ column + 2 ≤ lastColumn ∧ AreRecords column items
  | mapping anchor tag entries =>
    anchor = none ∧ tag = .map ∧ column + 2 ≤ lastColumn ∧ HasOutlines (column + 2) entries
  | reference _ => False

/-- Whether the items of a sequence are outlines of mappings. -/
def AreRecords (column : Nat) : List Node → Prop
  | [] => True
  | item :: rest => item.isRecord = true ∧ item.IsOutline column ∧ AreRecords column rest

/-- Whether the entries of a mapping are outlines under different names. -/
def HasOutlines (column : Nat) : List (Node × Node) → Prop
  | [] => True
  | (key, value) :: rest =>
    (∃ name, key = scalar none .str name ∧ isKeyName name = true) ∧
      value.IsOutline column ∧ (value.isSequence = true → isSimpleKey ⟨true⟩ key = true) ∧
      (∀ entry ∈ rest, entry.1 ≠ key) ∧ HasOutlines column rest

end

mutual

/-- The value of an outline. -/
def value : Node → Value
  | scalar _ _ text => .str text
  | sequence _ _ items => .list none (itemValues items)
  | mapping _ _ entries => .map none (entryValues entries)
  | reference _ => .null

/-- The values of several outlines. -/
def itemValues : List Node → List Value
  | [] => []
  | item :: rest => item.value :: itemValues rest

/-- The values of entries of an outline. -/
def entryValues : List (Node × Node) → List (Value × Value)
  | [] => []
  | (key, value) :: rest => (key.value, value.value) :: entryValues rest

end

/-! ### Words -/

mutual

/-- The tokens of an outline. -/
def words : Node → List Token
  | scalar _ _ text => [.scalar (isPlainText text) text]
  | sequence _ _ [] => [.flowSequenceStart, .flowSequenceEnd]
  | sequence _ _ items => itemWords items
  | mapping _ _ [] => [.flowMappingStart, .flowMappingEnd]
  | mapping _ _ entries => .blockMappingStart :: (entryWords entries ++ [.blockEnd])
  | reference _ => []

/-- The tokens of the items of a sequence. -/
def itemWords : List Node → List Token
  | [] => []
  | item :: rest => .blockEntry :: (item.words ++ itemWords rest)

/-- The tokens of the entries of a mapping. -/
def entryWords : List (Node × Node) → List Token
  | [] => []
  | (key, value) :: rest => .key :: (key.words ++ .value :: (value.words ++ entryWords rest))

end

end Node

end Taskbook.Yaml
