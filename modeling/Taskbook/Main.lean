/-
The program on a real file system.

The files that a command line is about are read, the command line is run on them, and
what has changed is written back. A run that asks a question is repeated with the reply,
which changes nothing before the question. There is no picker here, and results are
shown as plain text.
-/

import Taskbook.CommandLine.Places
import Taskbook.CommandLine.Transcript

namespace Taskbook

open CommandLine

/-- A text as it is handed to the system. -/
def plainText (text : String) : String :=
  (Text.plain? text).getD text

/-- What is at a place on disk. A directory is taken to be empty. -/
def entryOnDisk? (path : Path) : IO (Option Entry) := do
  let place := (← IO.currentDir) / plainText path.text
  if ← place.isDir then return some .empty
  else if ← place.pathExists then return some (.file (← IO.FS.readBinFile place))
  else return none

/-- The files at some places on disk. -/
def filesOnDisk (places : List Path) : IO Files :=
  places.foldlM (fun files path => do
    match ← entryOnDisk? path with
    | some entry => return files.place path entry
    | none => return files) .empty

/-- Whether a file with a content is at a path. -/
def holds (files : Files) (path : Path) (content : ByteArray) : Bool :=
  match files.readOctets path with
  | .ok found => found.data == content.data
  | .error _ => false

/-- Puts what has changed on disk. -/
def writeChanges (before after : Files) : IO Unit :=
  after.toList.forM fun (path, content?) => do
    match content? with
    | some content =>
      if !holds before path content then IO.FS.writeBinFile (plainText path.text) content
    | none =>
      if !(before.isDirectory path).toOption.getD false then
        IO.FS.createDirAll (plainText path.text)

/-- Shows what a run wrote. -/
def showTranscript (transcript : Transcript) : IO Unit := do
  let notices ← IO.getStderr
  notices.putStr (plainText (transcript.notices "-"))
  notices.flush
  let output ← IO.getStdout
  output.putStr (plainText transcript.output)
  output.flush

/-- Reads a line of the input. -/
def readAnswer (input : IO.FS.Stream) : IO Choice.Answer := do
  try return Choice.Answer.ofLine? (Text.firstLine? (Text.ofPlain (← input.getLine)))
  catch _ => return .unread .undecodable

/-- Runs a command line at the terminal, and asks the question of the run if it has one. -/
def runAtTerminal (here : Path) (arguments : List String) (files : Files) :
    IO Transcript := do
  let input ← IO.getStdin
  let interactive := (← input.isTty) && (← (← IO.getStdout).isTty)
  let terminal : Terminal := ⟨interactive, false, .absent "", .ended⟩
  let first := run terminal here arguments files
  if first.reports.any Transcript.isQuestion then
    showTranscript first.untilQuestion
    let second := run { terminal with answer := ← readAnswer input } here arguments files
    showTranscript second.afterReply
    return second
  else
    showTranscript first
    return first

end Taskbook

open Taskbook in
/-- Runs a command line and gives the code that it ends with. -/
def main (arguments : List String) : IO UInt32 := do
  let here := Path.root.resolve (Text.ofPlain (← IO.currentDir).toString)
  let arguments := arguments.map Text.ofPlain
  let files ← filesOnDisk (CommandLine.places here arguments)
  let transcript ← runAtTerminal here arguments files
  writeChanges files transcript.files
  return transcript.ending.code.toUInt32
