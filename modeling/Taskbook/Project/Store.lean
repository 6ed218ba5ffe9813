/-
The manifest of a project on disk.

A project without a manifest has no tasks. A manifest that is there is read as data; a
text that is not well formed and data that are no mapping are errors, while a manifest
that says nothing is an empty one. Writing makes the directory first, whatever comes of
the rest, and replaces the whole manifest.
-/

import Taskbook.Operation
import Taskbook.Manifest.Compact
import Taskbook.Manifest.Record
import Taskbook.Project.Basic
import Taskbook.Yaml.Reader

namespace Taskbook

variable [Depths]

namespace Manifest

/-- The manifest of a project without tasks. -/
def empty : Value :=
  .ofEntries [(.str "env", .ofEntries []), (.str "tasks", .ofEntries [])]

/-- The manifest with the given text. -/
def ofText (path : Path) (text : String) : Except Error Value :=
  match Yaml.read text with
  | .error .malformed => .error (.manifestSyntax path.text)
  | .error (.fault fault) => .error (.fault fault)
  | .ok data =>
    let manifest := data.orElse (.ofEntries [])
    if manifest.isMap then .ok manifest else .error (.manifestFormat path.text)

end Manifest

namespace Project

/-- The manifest of a project. -/
def readManifest (project : Project) (files : Files) : Except Error Value := do
  if ← files.isPresent project.manifestPath then
    let text ← files.readText project.manifestPath
    Manifest.ofText project.manifestPath text
  else return Manifest.empty

/-- The tasks of a project. -/
def load (project : Project) (files : Files) : Logged Registry := do
  let manifest ← project.readManifest files
  Registry.ofManifest manifest

/-- Makes the directory of a project. -/
def ensureDirectory (project : Project) : Operation Unit :=
  Operation.attempt fun files => files.ensureDirectory project.directory

/-- The record of a manifest being written. -/
def writtenRecord (project : Project) : Record :=
  .info .store ("Wrote manifest " ++ project.manifestPath.text)

/-- Writes the manifest of a project. -/
def writeManifest (project : Project) (manifest : Value) : Operation Unit := do
  project.ensureDirectory
  let text ← Manifest.text manifest
  Operation.writeText project.manifestPath text
  Operation.report [.record project.writtenRecord]

/-- Writes the tasks of a project. -/
def save (project : Project) (registry : Registry) : Operation Unit :=
  project.writeManifest registry.manifest

end Project

end Taskbook
