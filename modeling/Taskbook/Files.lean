/-
Directories and files.

A file system is a tree of directories and files below a root, which is a directory
itself. A file holds octets, which need not be a text. A path is followed name by name,
and what is wrong on the way is told by a fault: a file where a directory is needed, a
name that is too long, a place where nothing is. Writing a text replaces the whole file,
and only where its directory is there. Making a directory makes those it is in first, and
what has been made stays also if the rest fails.
-/

import Taskbook.Depths
import Taskbook.Files.Path
import Taskbook.Ordered
import Taskbook.Text.Lines

namespace Taskbook

/-- What can be at a place. -/
inductive Entry where
  | file (content : ByteArray)
  | directory (entries : List (String × Entry))

namespace Entry

/-- A directory with nothing in it. -/
def empty : Entry :=
  directory []

/-- Whether an entry is a directory. -/
def isDirectory : Entry → Bool
  | directory _ => true
  | file _ => false

/-- Puts an entry into a directory, in place of one of the same name; a file is left as it is. -/
def put (outer : Entry) (name : String) (inner : Entry) : Entry :=
  match outer with
  | directory entries => directory (Ordered.put entries name inner)
  | file content => file content

/-- An entry with another at the end of some names, and with directories on the way there where
there were none. A directory in the place of a directory changes nothing. -/
def place (entry inner : Entry) : List String → Entry
  | [] =>
    match entry, inner with
    | directory entries, directory [] => directory entries
    | _, other => other
  | name :: rest =>
    match entry with
    | directory entries =>
      let next := (Ordered.find? entries name).getD empty
      directory (Ordered.put entries name (next.place inner rest))
    | file _ => empty.put name (empty.place inner rest)

mutual

/-- The places in an entry from a path on, each with the content of its file; a directory has
none. -/
def listed (path : Path) : Entry → List (Path × Option ByteArray)
  | file content => [(path, some content)]
  | directory entries => (path, none) :: listedIn path entries

/-- The places in the entries of a directory. -/
def listedIn (path : Path) : List (String × Entry) → List (Path × Option ByteArray)
  | [] => []
  | (name, entry) :: rest => entry.listed (path.child name) ++ listedIn path rest

end

end Entry

/-! ### Following paths -/

/-- Where a path leads: what is there, and the directories on the way, each with the name that
was followed from it, the last one first. -/
structure Visit where
  entry : Entry
  trail : List (String × Entry)

namespace Visit

/-- The directory that a place is in; the root is in itself. -/
def back (visit : Visit) : Visit :=
  match visit.trail with
  | [] => visit
  | (_, outer) :: rest => ⟨outer, rest⟩

/-- Follows one name. -/
def follow (visit : Visit) (name : String) : Except Fault Visit :=
  match visit.entry with
  | .file _ => .error .fileOnTheWay
  | .directory entries =>
    if name = Path.backward then .ok visit.back
    else do
      Path.checkName name
      match Ordered.find? entries name with
      | some entry => return ⟨entry, (name, visit.entry) :: visit.trail⟩
      | none => throw .missingFile

/-- The root with another entry at the place. -/
def replace (visit : Visit) (entry : Entry) : Entry :=
  visit.trail.foldl (fun inner (name, outer) => outer.put name inner) entry

/-- The root with an entry of a name in the place. -/
def put (visit : Visit) (name : String) (entry : Entry) : Entry :=
  visit.replace (visit.entry.put name entry)

end Visit

/-- A file system, as its root. -/
structure Files where
  root : Entry

namespace Files

/-- The file system with nothing in it. -/
def empty : Files :=
  ⟨Entry.empty⟩

/-- Follows a path from the root. -/
def visit (files : Files) (path : Path) : Except Fault Visit := do
  path.check
  path.parts.foldlM Visit.follow ⟨files.root, []⟩

/-- What is at a path. That a path leads nowhere is no fault, nor that nothing can have its
names. -/
def entry? (files : Files) (path : Path) : Except Fault (Option Entry) :=
  match files.visit path with
  | .ok visit => .ok (some visit.entry)
  | .error .nameTooLong => .error .nameTooLong
  | .error _ => .ok none

/-- Whether there is anything at a path. -/
def isPresent (files : Files) (path : Path) : Except Fault Bool := do
  return (← files.entry? path).isSome

/-- Whether there is a directory at a path. -/
def isDirectory (files : Files) (path : Path) : Except Fault Bool := do
  return (← files.entry? path).any Entry.isDirectory

/-! ### Changing files -/

/-- Makes a directory in a directory that is there. -/
def makeDirectory (files : Files) (path : Path) : Except Fault Files := do
  path.check
  match path.parts.getLast? with
  | none => throw .fileInTheWay
  | some name => do
    let outer ← files.visit path.parent
    match outer.follow name with
    | .ok _ => throw .fileInTheWay
    | .error .missingFile => return ⟨outer.put name .empty⟩
    | .error fault => throw fault

/-- A fault of making a directory, unless the directory is there. -/
def unlessDirectory (files : Files) (path : Path) (fault : Fault) : Except Fault Unit := do
  if !(← files.isDirectory path) then throw fault

/-- Makes a directory where there is none, and those it is in. The first argument bounds how many
of them are made. -/
def ensureWithin : Nat → Files → Path → Files × Except Fault Unit
  | 0, files, _ => (files, .error .tooDeep)
  | bound + 1, files, path =>
    match files.makeDirectory path with
    | .ok changed => (changed, .ok ())
    | .error .missingFile =>
      let (prepared, outcome) := ensureWithin bound files path.parent
      match outcome with
      | .error fault => (prepared, .error fault)
      | .ok () =>
        match prepared.makeDirectory path with
        | .ok changed => (changed, .ok ())
        | .error fault => (prepared, prepared.unlessDirectory path fault)
    | .error fault => (files, files.unlessDirectory path fault)

/-- Makes a directory where there is none, and those it is in. -/
def ensureDirectory [Depths] (files : Files) (path : Path) : Files × Except Fault Unit :=
  ensureWithin Depths.making files path

/-- Writes a file, in a directory that must be there. -/
def writeOctets (files : Files) (path : Path) (content : ByteArray) : Except Fault Files :=
  match files.visit path, path.parts.getLast? with
  | .ok ⟨.directory _, _⟩, _ => .error .directoryInTheWay
  | .ok visit, _ => .ok ⟨visit.replace (.file content)⟩
  | .error .missingFile, some name => do
    let outer ← files.visit path.parent
    return ⟨outer.put name (.file content)⟩
  | .error fault, _ => .error fault

/-- Writes a text that can be encoded. -/
def writeText (files : Files) (path : Path) (text : String) : Except Fault Files :=
  match Text.plain? text with
  | some plain => files.writeOctets path plain.toUTF8
  | none => .error .unencodable

/-! ### Reading files -/

/-- The octets of a file. -/
def readOctets (files : Files) (path : Path) : Except Fault ByteArray := do
  match (← files.visit path).entry with
  | .directory _ => throw .directoryInTheWay
  | .file content => return content

/-- The characters of a file, with a newline at the end of every line. -/
def readText (files : Files) (path : Path) : Except Fault String := do
  let content ← files.readOctets path
  match String.fromUTF8? content with
  | some text => return Text.unifyEnds text
  | none => throw .undecodable

/-- The files of a file system with their paths, and its directories without a content. -/
def toList (files : Files) : List (Path × Option ByteArray) :=
  files.root.listed .root

/-- Puts an entry at a path, with directories on the way there where there were none. -/
def place (files : Files) (path : Path) (entry : Entry) : Files :=
  ⟨files.root.place entry path.parts⟩

end Files

end Taskbook
