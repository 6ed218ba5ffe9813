/-
Finding the project that a directory belongs to.

Projects are looked for from a directory upward, and the nearest one is taken. A new
project is made at the root of the repository that the directory is in, or right there
if it is in none.
-/

import Taskbook.Files
import Taskbook.Project.Basic

namespace Taskbook

namespace Project

/-- A place and the directories that it is in, from the nearest. -/
def upward (start : Path) : List Path :=
  start :: start.ancestors

/-- The name of what marks the root of a repository. -/
def repositoryName : String := ".git"

/-- Whether the root of a repository is at a path. -/
def isRepository (files : Files) (path : Path) : Except Fault Bool :=
  files.isPresent (path.child repositoryName)

/-- The root of the repository that a place is in. -/
def repository? (files : Files) (start : Path) : Except Fault (Option Path) :=
  (upward start).findM? (isRepository files)

/-- The projects that a place belongs to, from the nearest. -/
def enclosing (files : Files) (start : Path) : Except Fault (List Project) := do
  let directories := (upward start).map (Path.child · directoryName)
  return (← directories.filterM files.isDirectory).map Project.mk

/-- The nearest project, and whether there are others. -/
def nearest (files : Files) (start : Path) : Except Fault (Option Project × Bool) := do
  match ← enclosing files start with
  | [] => return (none, false)
  | project :: others => return (some project, !others.isEmpty)

/-- Where a new project is made. -/
def fresh (files : Files) (start : Path) : Except Fault Project := do
  let repository ← repository? files start
  return ⟨(repository.getD start).child directoryName⟩

end Project

end Taskbook
