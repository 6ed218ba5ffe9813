/-
A place in a text that is read.

A cursor is what is left of a text with the number of characters in it, and the number of
characters, lines and columns before it. A byte-order mark takes no column.
-/

import Taskbook.Yaml.Character

namespace Taskbook.Yaml

/-- A place in a text. -/
structure Cursor where
  rest : List Char
  left : Nat
  index : Nat
  line : Nat
  column : Nat

namespace Cursor

def start (text : List Char) : Cursor :=
  ⟨text, text.length, 0, 0, 0⟩

/-- The place after the next character. -/
def next (cursor : Cursor) : Cursor :=
  match cursor.rest with
  | [] => cursor
  | character :: rest =>
    let endsLine := isDataBreak character || (character = '\r' && rest.head? ≠ some '\n')
    let left := cursor.left - 1
    if endsLine then ⟨rest, left, cursor.index + 1, cursor.line + 1, 0⟩
    else if character = byteOrderMark then
      ⟨rest, left, cursor.index + 1, cursor.line, cursor.column⟩
    else ⟨rest, left, cursor.index + 1, cursor.line, cursor.column + 1⟩

/-- The place after so many characters. -/
def advance (cursor : Cursor) : Nat → Cursor
  | 0 => cursor
  | count + 1 => cursor.next.advance count

/-- The place after the characters up to the first one that is not as described. -/
def advanceWhile (cursor : Cursor) (holds : Char → Bool) : Cursor :=
  cursor.advance (cursor.rest.takeWhile holds).length

/-- The place where a given rest of the text begins. -/
def moveTo (cursor : Cursor) (rest : List Char) : Cursor :=
  cursor.advance (cursor.left - rest.length)

end Cursor

end Taskbook.Yaml
