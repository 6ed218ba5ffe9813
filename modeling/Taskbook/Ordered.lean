/-
Dictionaries that remember the order of their keys.

A key keeps the place where it was first written and takes the value that was last
written for it. Merging dictionaries writes the entries of one after the other, so
the keys come in the order of their first occurrence and the last dictionary that has
a key decides its value.
-/

namespace Taskbook

/-- Entries in the order in which their keys were first written. -/
abbrev Ordered (κ ν : Type) := List (κ × ν)

namespace Ordered

variable {κ ν : Type} [BEq κ]

/-- The value of a key. -/
def find? (entries : Ordered κ ν) (key : κ) : Option ν :=
  match entries with
  | [] => none
  | (other, value) :: rest => if other == key then some value else find? rest key

/-- The keys in order. -/
def keys (entries : Ordered κ ν) : List κ :=
  entries.map Prod.fst

/-- Writes a value for a key: in its place if the key is there, else at the end. -/
def put (entries : Ordered κ ν) (key : κ) (value : ν) : Ordered κ ν :=
  match entries with
  | [] => [(key, value)]
  | (other, old) :: rest =>
    if other == key then (other, value) :: rest else (other, old) :: put rest key value

/-- Writes the entries of the second dictionary into the first. -/
def merge (lower upper : Ordered κ ν) : Ordered κ ν :=
  upper.foldl (fun merged entry => merged.put entry.1 entry.2) lower

/-- Writes the entries of all dictionaries one after the other. -/
def mergeAll (layers : List (Ordered κ ν)) : Ordered κ ν :=
  layers.foldl merge []

/-- The dictionary that a sequence of entries writes. -/
def ofEntries (entries : List (κ × ν)) : Ordered κ ν :=
  merge [] entries

end Ordered

end Taskbook
