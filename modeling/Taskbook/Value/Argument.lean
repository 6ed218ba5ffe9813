/-
What a caller in memory hands over.

Some of it is kept without being looked at. The rest is asked first whether it counts as given, and
a thing can refuse even that: an array of several numbers does, and a buffer that was released. So
it is up to an argument whether it is asked with success. A manifest or a record is asked part by
part, and can be read only if none of its parts refuses.
-/

import Taskbook.Fault
import Taskbook.Value.Basic

namespace Taskbook

/-- What a caller hands over for an operation that asks whether it counts as given. -/
inductive Argument where
  | value (given : Value)
  /-- What cannot be asked. -/
  | refusing (fault : Fault)

instance : Coe Value Argument := ⟨Argument.value⟩

namespace Argument

/-- What is handed over where nothing is given. -/
abbrev null : Argument :=
  value .null

/-- The value of an argument that can be asked whether it counts as given. -/
def asked : Argument → Except Fault Value
  | value given => .ok given
  | refusing fault => .error fault

/-- The value of an argument, if it has one. -/
def value? : Argument → Option Value
  | value given => some given
  | refusing _ => none

end Argument

end Taskbook
