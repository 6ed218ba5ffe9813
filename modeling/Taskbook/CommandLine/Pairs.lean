/-
Variables given on the command line as KEY=VALUE.

The first equals sign separates the key from the value. Blanks around the key are
dropped, the value is taken as it is. A key that is given again keeps its place and
takes the later value. A missing equals sign anywhere is reported before any name that
cannot name a variable.
-/

import Taskbook.Env
import Taskbook.Text.Blank

namespace Taskbook.CommandLine

/-- The texts before and after the first equals sign; none without one. -/
def splitPair? (characters : List Char) : Option (List Char × List Char) :=
  match characters with
  | [] => none
  | '=' :: rest => some ([], rest)
  | character :: rest =>
    (splitPair? rest).map fun (key, value) => (character :: key, value)

/-- The key and the value of a pair. -/
def pair (text : String) : Except Error (String × String) :=
  match splitPair? text.toList with
  | none => .error (.envPair text)
  | some (key, value) => .ok (Text.strip (String.ofList key), String.ofList value)

/-- The variables that a list of pairs sets. -/
def envOfPairs (pairs : List String) : Except Error Env := do
  let entries ← pairs.mapM pair
  Env.ofValue (Env.toValue (Ordered.ofEntries entries))

end Taskbook.CommandLine
