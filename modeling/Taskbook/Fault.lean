/-
What goes wrong outside the rules of the program itself.

The program checks the shape of a manifest but not the type of every value in it, and
it reads and writes files that may not be there. A fault is what comes of that: not an
error that the program words, but an operation that cannot be carried out.
-/

namespace Taskbook

/-- An operation that cannot be carried out. -/
inductive Fault where
  /-- A value of a type that the operation does not take. -/
  | wrongType
  /-- A value without the part that the operation asks it for. -/
  | missingPart
  /-- A value of the right type outside the range of the operation. -/
  | wrongValue
  /-- A number too large for the operation. -/
  | tooLarge
  /-- A look-up of a key that is not there. -/
  | missingKey
  /-- A look-up of a place that is not there. -/
  | missingPlace
  /-- Octets that are no text. -/
  | undecodable
  /-- A text that no octets can be made of. -/
  | unencodable
  /-- Things too deep inside each other to be followed. -/
  | tooDeep
  /-- More than there is room for. -/
  | outOfMemory
  /-- A file that is not there. -/
  | missingFile
  /-- A directory where a file is wanted. -/
  | directoryInTheWay
  /-- A file where a directory is wanted on the way to another file. -/
  | fileOnTheWay
  /-- A file where a directory is to be made. -/
  | fileInTheWay
  /-- A name longer than the file system allows. -/
  | nameTooLong
  /-- A table cell that nothing can show. -/
  | notRenderable
  deriving DecidableEq, Repr, Inhabited

end Taskbook
