/-
The page that a document is written on.

A sheet is the text so far with the column reached. It knows whether the last thing
written was white space, so that a blank is put between two things only where it is
missing, and whether nothing but indentation and its marks stands on the line, so that
what follows may start on the same line.
-/

namespace Taskbook.Yaml

/-- A text being written. -/
structure Sheet where
  text : String
  column : Nat
  spaced : Bool
  indented : Bool

namespace Sheet

/-- The width beyond which lines are broken where they may be. -/
def width : Nat := 80

def empty : Sheet :=
  { text := "", column := 0, spaced := true, indented := true }

/-- Writes characters without a line end. -/
def put (sheet : Sheet) (characters : List Char) : Sheet :=
  { sheet with
    text := sheet.text ++ String.ofList characters
    column := sheet.column + characters.length }

/-- Writes a line end. -/
def newline (sheet : Sheet) (character : Char) : Sheet :=
  { text := sheet.text.push character, column := 0, spaced := true, indented := true }

/-- Goes to a column: on this line if nothing but indentation stands before it, else on a new
one. -/
def indent (sheet : Sheet) (column : Nat) : Sheet :=
  let onNewLine := !sheet.indented || sheet.column > column ||
    (sheet.column = column && !sheet.spaced)
  let sheet := if onNewLine then sheet.newline '\n' else sheet
  if sheet.column < column then
    { sheet.put (List.replicate (column - sheet.column) ' ') with spaced := true }
  else sheet

/-- Writes a mark, with a blank before it where one is missing and wanted. -/
def mark (sheet : Sheet) (mark : String) (apart spaced indented : Bool) : Sheet :=
  let characters := if sheet.spaced || !apart then mark.toList else ' ' :: mark.toList
  { sheet.put characters with spaced := spaced, indented := sheet.indented && indented }

/-- Says that what was written last is part of a word. -/
def inWord (sheet : Sheet) : Sheet :=
  { sheet with spaced := false, indented := false }

end Sheet

end Taskbook.Yaml
