/-
The ends of lines.

A line may end in a newline, a carriage return, or a carriage return before a newline.
A text that is read has newlines for all of them.
-/

namespace Taskbook.Text

/-- The characters of a text with a newline at the end of every line. -/
def unifiedEnds : List Char → List Char
  | [] => []
  | '\r' :: '\n' :: rest => '\n' :: unifiedEnds rest
  | '\r' :: rest => '\n' :: unifiedEnds rest
  | character :: rest => character :: unifiedEnds rest

/-- A text with a newline at the end of every line. -/
def unifyEnds (text : String) : String :=
  String.ofList (unifiedEnds text.toList)

/-- The first line of a text without its end; none where there is nothing to read. -/
def firstLine? (text : String) : Option String :=
  if text.isEmpty then none
  else some (String.ofList ((unifiedEnds text.toList).takeWhile (· ≠ '\n')))

end Taskbook.Text
