/-
How far the program can follow things that are inside each other.

Collections in a manifest and directories in a path are followed by recursion, so it is up to the
stack of the caller how many of them can be inside each other. Where there are more, following them
is a fault. All that is relied on is some room: for more collections than a line of a manifest can
be indented by, and for one directory.
-/

namespace Taskbook

/-- How many things inside each other can be followed. -/
class Depths where
  /-- The most collections inside each other that are read. -/
  reading : Nat
  /-- The most collections inside each other that nodes are made of. -/
  noting : Nat
  /-- The most directories inside each other that are made at once. -/
  making : Nat
  /-- There is room for what can be written in a line. -/
  reading_room : 80 ≤ reading
  noting_room : 80 ≤ noting
  making_room : 1 ≤ making

/-- A few collections inside each other can be made to nodes. -/
theorem Depths.le_noting [Depths] {depth : Nat} (few : depth ≤ 80) : depth ≤ Depths.noting :=
  Nat.le_trans few Depths.noting_room

/-- What a stack of a thousand calls leaves. -/
instance : Depths where
  reading := 485
  noting := 325
  making := 970
  reading_room := by decide
  noting_room := by decide
  making_room := by decide

end Taskbook
