/-
The directory that holds the tasks of a project.

A project keeps its tasks in a manifest and its settings in a configuration, both in one
directory.
-/

import Taskbook.Files.Path

namespace Taskbook

/-- A project, known by the directory that holds its files. -/
structure Project where
  directory : Path
  deriving DecidableEq, Repr

namespace Project

/-- The name of the directory that holds a project's files. -/
def directoryName : String := ".shell-tasks"

/-- Where a project keeps its tasks. -/
def manifestPath (project : Project) : Path :=
  project.directory.child "tasks.yaml"

/-- Where a project keeps its settings. -/
def configPath (project : Project) : Path :=
  project.directory.child "config.yaml"

end Project

end Taskbook
