/-
What is reported while the program works.

Reports are kept in the order in which they are made: records of the log, warnings about
the configuration, and what a person is shown and asked.
-/

import Taskbook.Log
import Taskbook.View.Styled

namespace Taskbook

/-- Something that is reported. -/
inductive Report where
  /-- A record of the log. -/
  | record (record : Record)
  /-- A warning about the configuration. -/
  | warning (message : String)
  /-- A line of the result. -/
  | line (text : String)
  /-- A line for the person at the terminal, which is not part of the result. -/
  | notice (text : String)
  /-- Something for a terminal to lay out. -/
  | display (display : View.Display)
  /-- A question, with the cursor left behind it. -/
  | question (text : String)
  /-- The line that was given in answer to a question. -/
  | reply (text : String)
  deriving DecidableEq, Repr

namespace Report

/-- The log record of a report that is one. -/
def record? : Report → Option Record
  | .record entry => some entry
  | _ => none

/-- The message of a report that is a warning. -/
def warning? : Report → Option String
  | .warning message => some message
  | _ => none

end Report

end Taskbook
