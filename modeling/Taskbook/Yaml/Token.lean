/-
The tokens of YAML, and what can be wrong with a text.

Tokens are marks, names and scalars. Where a block begins and ends is not written in a
text but follows from its indentation; it is a token nevertheless.
-/

import Taskbook.Fault

namespace Taskbook.Yaml

/-- Why a text gives no data: it is not well formed, or a scalar of it stands for nothing. -/
inductive ReadError where
  | malformed
  | fault (cause : Fault)
  deriving DecidableEq, Repr

/-- What a directive says. -/
inductive Directive where
  | version (major : Nat)
  | handle (handle beginning : String)
  | other
  deriving DecidableEq, Repr

/-- The tokens of a text. -/
inductive Token where
  | directive (directive : Directive)
  | documentStart
  | documentEnd
  | blockSequenceStart
  | blockMappingStart
  | blockEnd
  | flowSequenceStart
  | flowSequenceEnd
  | flowMappingStart
  | flowMappingEnd
  | blockEntry
  | flowEntry
  | key
  | value
  | reference (name : String)
  | anchor (name : String)
  | tag (handle : Option String) (suffix : String)
  | scalar (plain : Bool) (text : String)
  deriving DecidableEq, Repr

end Taskbook.Yaml
