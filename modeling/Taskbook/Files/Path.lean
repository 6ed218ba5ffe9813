/-
Absolute paths.

A path is the list of names that lead to a place from the root. A text is read as a path
from some directory on: blank names and single points lead nowhere, and a text that starts
with a slash starts from the root. Two points lead back. When a path is resolved they take
off the name before them, whatever is there, since no directory is a link to another; when
a path is only extended they stay in it, and whoever follows it finds out.

A path has to be written in octets to be looked up, and it must not be too long. A half
of a pair that stands for an octet which is no text is written as that octet; other halves
cannot be written, and nothing can have a name with the null character in it.
-/

import Taskbook.Fault
import Taskbook.Text.Letters

namespace Taskbook

/-- A place in the file system, as the names that lead to it from the root. -/
structure Path where
  parts : List String
  deriving DecidableEq, Repr

namespace Path

/-- The place that is in every other. -/
def root : Path :=
  ⟨[]⟩

/-- The place of a name in a directory. -/
def child (path : Path) (name : String) : Path :=
  ⟨path.parts ++ [name]⟩

/-- The path without its last name; the root has none. -/
def parent (path : Path) : Path :=
  ⟨path.parts.dropLast⟩

/-- The directories that a place is in, from the nearest to the root. -/
def ancestors (path : Path) : List Path :=
  (List.range path.parts.length).reverse.map fun count => ⟨path.parts.take count⟩

/-- A path as it is written. -/
def text (path : Path) : String :=
  "/" ++ "/".intercalate path.parts

/-! ### Texts as paths -/

/-- The name that leads back. -/
def backward : String := ".."

/-- The names between the slashes of a text that lead anywhere. -/
def namesOf (text : String) : List String :=
  ((text.toList.splitOn '/').map String.ofList).filter fun name => name ≠ "" && name ≠ "."

/-- Where a text starts that is read in a directory. -/
def start (directory : Path) (text : String) : Path :=
  if text.toList.head? = some '/' then root else directory

/-- Follows one name from a directory, or leads back from it. -/
def follow (path : Path) (name : String) : Path :=
  if name = backward then path.parent else path.child name

/-- The path that a text leads to from a directory. -/
def resolve (directory : Path) (text : String) : Path :=
  (namesOf text).foldl follow (start directory text)

/-- A directory's path with the names of a text behind it. -/
def extend (directory : Path) (text : String) : Path :=
  ⟨(start directory text).parts ++ namesOf text⟩

/-! ### Paths in octets -/

/-- The most octets that a name may have. -/
def nameLimit : Nat := 255

/-- The most octets that a path may have. -/
def pathLimit : Nat := 4095

/-- How many octets a letter takes in a path; none where it cannot be written. The halves from
0xDC80 to 0xDCFF stand for octets. -/
def octets? : Text.Letter → Option Nat
  | .plain character => some character.utf8Size
  | .half place => if 0x480 ≤ place.val && place.val < 0x500 then some 1 else none

/-- How many octets a text takes in a path. -/
def octetCount (text : String) : Except Fault Nat := do
  let sizes ← match (Text.letters text).mapM octets? with
    | some sizes => pure sizes
    | none => .error .unencodable
  if text.toList.contains (Char.ofNat 0) then throw .wrongValue
  return sizes.foldl (fun total size => total + size) 0

/-- Refuses a text that is no path: one that cannot be written, or that has the null character in
it. -/
def checkText (text : String) : Except Fault Unit :=
  (octetCount text).map fun _ => ()

/-- Refuses a path that cannot be looked up. -/
def check (path : Path) : Except Fault Unit := do
  if pathLimit < (← octetCount path.text) then throw .nameTooLong

/-- Refuses a name that no place can have. -/
def checkName (name : String) : Except Fault Unit := do
  if nameLimit < (← octetCount name) then throw .nameTooLong

/-- The path that a text leads to from a directory. Each of its names must be one that can be
written, also where it is left again. -/
def resolve? (directory : Path) (text : String) : Except Fault Path := do
  (namesOf text).forM checkText
  return directory.resolve text

end Path

end Taskbook
