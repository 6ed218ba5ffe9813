/-
Line ends and document marks in a text that is read.

A carriage return and a line feed together are one line end. All line ends are read as
a line feed, except the line and paragraph separators, which stand for themselves. Three
hyphens or three points at the start of a line, with white space after them, mark the
start or the end of a document.
-/

import Taskbook.Yaml.Character
import Taskbook.Yaml.Token

namespace Taskbook.Yaml

/-- The line end at the start of a text, as it is read, and the rest. -/
def lineBreak? : List Char → Option (Char × List Char)
  | '\r' :: '\n' :: rest => some ('\n', rest)
  | character :: rest =>
    if character = '\r' || character = '\n' || character = nextLine then some ('\n', rest)
    else if isBreak character then some (character, rest)
    else none
  | [] => none

/-- How many characters the line end at the start of a text takes. -/
def breakLength : List Char → Nat
  | '\r' :: '\n' :: _ => 2
  | _ => 1

/-- Whether a mark of three equal characters stands at the start of a text. -/
def isMark (character : Char) : List Char → Bool
  | first :: second :: third :: rest =>
    first = character && second = character && third = character && endsWord rest
  | _ => false

/-- Whether a document mark stands at the start of a line. -/
def isDocumentMark (line : List Char) : Bool :=
  isMark '-' line || isMark '.' line

/-- What line ends between words are read as: one line feed as a blank, more without the first
one, and a separator as itself. -/
def foldBreaks (first : Char) (others : List Char) : List Char :=
  if first ≠ '\n' then first :: others
  else if others.isEmpty then [' ']
  else others

/-- Drops blanks and a comment up to the end of the line, which must be there. -/
def restOfLine? (text : List Char) : Option (List Char) :=
  let afterBlanks := text.dropWhile (· = ' ')
  let afterComment := match afterBlanks with
    | '#' :: comment => comment.dropWhile fun character => !isBreak character
    | other => other
  if endsLine afterComment then
    match lineBreak? afterComment with
    | some (_, rest) => some rest
    | none => some afterComment
  else none

end Taskbook.Yaml
