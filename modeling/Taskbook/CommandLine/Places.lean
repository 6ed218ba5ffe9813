/-
The places that a command line is about.

A command looks for projects in the directory it is given in and in those that this is
in, or works on the project that is named. What it reads and changes is there and
nowhere else.
-/

import Taskbook.CommandLine.Request
import Taskbook.Project.Discovery

namespace Taskbook.CommandLine

/-- The places of a project's files. -/
def projectPlaces (project : Project) : List Path :=
  [project.directory, project.configPath, project.manifestPath]

/-- The places to look for projects and repositories from a directory upward. -/
def searchedPlaces (here : Path) : List Path :=
  (Project.upward here).flatMap fun place =>
    place :: place.child Project.repositoryName ::
      projectPlaces ⟨place.child Project.directoryName⟩

/-- The places of a project that is named. -/
def namedPlaces (here : Path) (text : String) : List Path :=
  Project.upward (here.resolve text) ++ projectPlaces ⟨here.resolve text⟩

/-- The places that a command line is about when it is given in a directory. -/
def places (here : Path) (arguments : List String) : List Path :=
  match order? arguments with
  | some (.request _ (some text) _) => namedPlaces here text
  | some (.request _ none _) => searchedPlaces here
  | _ => []

end Taskbook.CommandLine
