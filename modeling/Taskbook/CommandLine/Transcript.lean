/-
What a run of the program leaves behind.

A run carries out one command line on the files as they are. It ends with a code and
leaves what it wrote to the output, what it wrote for the person at the terminal, and
what it had laid out. The log goes to the person at the terminal: all of it if a
detailed log is asked for, else only warnings. Control sequences are left out of what the
program says itself, but neither out of the log nor out of what was typed. What cannot be
encoded is escaped where the person at the terminal sees it.
-/

import Taskbook.CommandLine.Run
import Taskbook.Log.Console
import Taskbook.Text.Escapes

namespace Taskbook.CommandLine

/-- What a run of the program leaves behind, with the files afterwards. -/
structure Transcript where
  ending : Ending
  reports : List Report
  setup : Log.Setup
  files : Files

/-- The level of the log on the terminal. -/
def consoleLevel (verbose : Bool) : Level :=
  if verbose then Level.debug else Level.warning

/-- The lines that explain the commands. -/
def helpLines : List String :=
  ["Compose project tasks and render them as shell commands.",
    "Commands: " ++ ", ".intercalate (usages.map Prod.fst)]

/-- Runs a command line in a directory. -/
def run [Depths] (terminal : Terminal) (here : Path) (arguments : List String) (files : Files) :
    Transcript :=
  match order? arguments with
  | none => ⟨.misused, [], Log.untouched, files⟩
  | some .help => ⟨.done, helpLines.map .line, Log.untouched, files⟩
  | some (.request verbose directory request) =>
    let (ending, session) := runRequest terminal here directory request ⟨files, []⟩
    ⟨ending, session.reports, Log.untouched.setUp (consoleLevel verbose), session.files⟩

/-- What a report adds to the output. -/
def outputOf : Report → String
  | .line text => Text.withoutEscapes text ++ "\n"
  | .question text => text
  | .reply text => text ++ "\n"
  | _ => ""

/-- A text with an escape in place of every character that cannot be encoded. -/
def encodableText (text : String) : String :=
  String.ofList ((Text.letters text).flatMap fun letter =>
    match letter with
    | .plain _ => Text.spelling letter
    | .half _ => numberEscape letter.number)

/-- What a report adds to what the person at the terminal sees beside the output. Each line of
the log starts with its time. -/
def noticeOf (setup : Log.Setup) (time : String) : Report → String
  | .notice text => Text.withoutEscapes text ++ "\n"
  | .warning message => Text.withoutEscapes ("Warning: " ++ message) ++ "\n"
  | .record record =>
    String.join ((Log.lines setup record).map fun line => time ++ " " ++ line ++ "\n")
  | _ => ""

/-- What a report lays out. -/
def displayOf? : Report → Option View.Display
  | .display display => some display
  | _ => none

namespace Transcript

/-- What a run wrote to the output. -/
def output (transcript : Transcript) : String :=
  String.join (transcript.reports.map outputOf)

/-- What a run wrote for the person at the terminal. -/
def notices (transcript : Transcript) (time : String) : String :=
  encodableText (String.join (transcript.reports.map (noticeOf transcript.setup time)))

/-- Whether a report is a question. -/
def isQuestion : Report → Bool
  | .question _ => true
  | _ => false

/-- A transcript up to the question that it asks, if it asks one. -/
def untilQuestion (transcript : Transcript) : Transcript :=
  let before := transcript.reports.takeWhile (!isQuestion ·)
  { transcript with
    reports := before ++ (transcript.reports.drop before.length).take 1 }

/-- A transcript from the reply to its question on. -/
def afterReply (transcript : Transcript) : Transcript :=
  let rest := transcript.reports.dropWhile (!isQuestion ·)
  { transcript with reports := rest.drop 2 }

/-- What a run had laid out. -/
def displays (transcript : Transcript) : List View.Display :=
  transcript.reports.filterMap displayOf?

end Transcript

end Taskbook.CommandLine
