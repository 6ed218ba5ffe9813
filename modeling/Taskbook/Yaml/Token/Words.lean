/-
Plain scalars.

A plain scalar is a run of words. A word ends at white space, before a colon that ends
a word, and inside brackets also at the marks of brackets. Blanks between words are
kept, and line ends between them are folded. The scalar goes on over a line end as long
as the next line is indented, has no document mark and does not start with a comment.
-/

import Taskbook.Yaml.Token.Line

namespace Taskbook.Yaml

/-- The marks that end a word inside brackets. -/
def isFlowMark (character : Char) : Bool :=
  ",?[]\x7b\x7d".toList.contains character

/-- Whether what follows a colon makes it a mark. -/
def endsKey (inFlow : Bool) (rest : List Char) : Bool :=
  endsWord rest ||
    (inFlow && match rest with
      | [] => false
      | next :: _ => ",[]\x7b\x7d".toList.contains next)

/-- The word at the start of a text. -/
def word (inFlow : Bool) : List Char → List Char
  | [] => []
  | character :: rest =>
    if isSpaceOrBreak character || (character = ':' && endsKey inFlow rest) ||
        (inFlow && isFlowMark character) then []
    else character :: word inFlow rest

/-- What stands between two words: how it is read, what follows it, and the column reached if
there is a line end in it. No text means that the scalar is over. -/
structure Gap where
  text : List Char
  rest : List Char
  column : Option Nat

/-- Line ends in a gap: how they are read, what follows them, the column reached, and whether a
document mark ends the scalar there. -/
structure GapBreaks where
  breaks : List Char
  rest : List Char
  column : Nat
  atMark : Bool

/-- Further line ends after a first one, with blanks around them. The first argument bounds
their number and the third is the column reached. -/
def furtherBreaks : Nat → List Char → Nat → GapBreaks
  | 0, text, column => ⟨[], text, column, true⟩
  | bound + 1, text, column =>
    match text with
    | ' ' :: rest => furtherBreaks bound rest (column + 1)
    | _ =>
      match lineBreak? text with
      | none => ⟨[], text, column, false⟩
      | some (character, rest) =>
        if isDocumentMark rest then ⟨[], rest, 0, true⟩
        else
          let others := furtherBreaks bound rest 0
          { others with breaks := character :: others.breaks }

/-- What follows a word. The first argument bounds the number of line ends in it. -/
def gap (bound : Nat) (text : List Char) : Gap :=
  let blanks := text.takeWhile (· = ' ')
  let afterBlanks := text.dropWhile (· = ' ')
  match lineBreak? afterBlanks with
  | none => ⟨blanks, afterBlanks, none⟩
  | some (first, rest) =>
    if isDocumentMark rest then ⟨[], rest, some 0⟩
    else
      let further := furtherBreaks bound rest 0
      let folded := if further.atMark then [] else foldBreaks first further.breaks
      ⟨folded, further.rest, some further.column⟩

/-- A plain scalar: its text, what follows it, and whether a line end was passed at its end. -/
structure Words where
  text : List Char
  rest : List Char
  brokeLine : Bool

/-- The words of a plain scalar, the text that stands before the next word given. The first
argument bounds their number. -/
def wordsFrom (inFlow : Bool) (indent : Int) : Nat → Gap → Words
  | 0, before => ⟨[], before.rest, before.column.isSome⟩
  | bound + 1, before =>
    let first := word inFlow before.rest
    if first.isEmpty then ⟨[], before.rest, before.column.isSome⟩
    else
      let after := gap (bound + 1) (before.rest.drop first.length)
      let outdented := match after.column with
        | some column => !inFlow && (column : Int) < indent
        | none => false
      if after.text.isEmpty || after.rest.head? = some '#' || outdented then
        ⟨before.text ++ first, after.rest, after.column.isSome⟩
      else
        let others := wordsFrom inFlow indent bound after
        ⟨before.text ++ first ++ others.text, others.rest, others.brokeLine⟩

/-- The plain scalar at the start of a text. Its lines after the first must reach a column. The
first argument bounds the number of characters in it. -/
def plainScalar (bound : Nat) (inFlow : Bool) (indent : Int) (text : List Char) : Words :=
  wordsFrom inFlow indent bound ⟨[], text, none⟩

end Taskbook.Yaml
