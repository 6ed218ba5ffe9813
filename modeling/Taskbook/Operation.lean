/-
Operations on the files of a project.

An operation reads and changes files and reports what it does. It may fail, and then
the files are as it left them and the reports are those made so far: failing does not
undo anything.

What is read can come with warnings. They are worded only where they are reported, and a
warning that cannot be worded is a failure there.
-/

import Taskbook.Files
import Taskbook.Report

namespace Taskbook

/-- What an operation works on: the files, and the reports made so far. -/
structure Session where
  files : Files
  reports : List Report

/-- A computation on the files of a project that reports what it does. -/
abbrev Operation (α : Type) := ExceptT Error (StateM Session) α

/-- What comes of a computation with the warnings it gives, each by its wording. -/
structure Warned (α : Type) where
  warnings : List (Except Fault String)
  result : Except Fault α

namespace Warned

variable {α β : Type}

/-- A result without warnings. -/
def silent (result : Except Fault α) : Warned α :=
  ⟨[], result⟩

/-- Goes on from a result, after the warnings so far. -/
def andThen (first : Warned α) (next : α → Warned β) : Warned β :=
  match first.result with
  | .ok value => ⟨first.warnings ++ (next value).warnings, (next value).result⟩
  | .error fault => ⟨first.warnings, .error fault⟩

instance : Monad Warned where
  pure value := silent (.ok value)
  bind := andThen

instance : MonadLift (Except Fault) Warned := ⟨silent⟩

/-- Gives one warning. -/
def warn (wording : Except Fault String) : Warned Unit :=
  ⟨[wording], .ok ()⟩

end Warned

namespace Operation

variable {α : Type}

/-- The files as they are. -/
def files : Operation Files := do
  let session ← get
  return session.files

/-- Adds reports to those made so far. -/
def report (reports : List Report) : Operation Unit :=
  modify fun session => { session with reports := session.reports ++ reports }

/-- Fails where a computation fails. -/
def ofExcept (result : Except Error α) : Operation α :=
  fun session => (result, session)

instance : MonadLift (Except Error) Operation := ⟨ofExcept⟩

/-- Fails where a computation cannot be carried out. -/
def ofFault (result : Except Fault α) : Operation α :=
  ofExcept (orFault result)

instance : MonadLift (Except Fault) Operation := ⟨ofFault⟩

/-- Writes the records of a computation to the log, also if it fails. -/
def ofLogged (outcome : Logged α) : Operation α := do
  report (outcome.records.map .record)
  ofExcept outcome.result

instance : MonadLift Logged Operation := ⟨ofLogged⟩

/-- Reports the warnings of a computation, up to one that cannot be worded. -/
def ofWarned (warned : Warned α) : Operation α := do
  warned.warnings.forM fun wording => do
    let message ← wording
    report [.warning message]
  warned.result

instance : MonadLift Warned Operation := ⟨ofWarned⟩

/-- Reports a line of the result, which must be a text that can be encoded. -/
def tell (text : String) : Operation Unit :=
  if Text.isEncodable text then report [.line text] else throw (.fault .unencodable)

/-- Reports a line for the person at the terminal. -/
def notify (text : String) : Operation Unit :=
  report [.notice text]

/-- Changes the files as far as the change can be carried out. -/
def attempt (step : Files → Files × Except Fault Unit) : Operation Unit := do
  let session ← get
  let (files, outcome) := step session.files
  set { session with files := files }
  ofFault outcome

/-- Changes the files where the change can be carried out. -/
def change (step : Files → Except Fault Files) : Operation Unit := do
  let session ← get
  let files ← ofFault (step session.files)
  set { session with files := files }

/-- Writes a text to a file. The file is emptied when it is opened, before the text is encoded. -/
def writeText (path : Path) (text : String) : Operation Unit := do
  change fun files => files.writeOctets path ByteArray.empty
  change fun files => files.writeText path text

end Operation

end Taskbook
