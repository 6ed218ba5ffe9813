/-
Styled text, and what a terminal is given to show.

A styled text has a style of its own and spans of further styles, counted in letters.
Characters that would move the cursor or ring the bell are dropped when a text becomes a
styled one. A display is a line of text, a table, or several styled texts below each
other; how it is laid out is the terminal's affair.
-/

import Taskbook.Text.Letters

namespace Taskbook.View

/-- A part of a text in a style. -/
structure Span where
  first : Nat
  last : Nat
  style : String
  deriving DecidableEq, Repr

/-- A text with styles. -/
structure Styled where
  text : String
  style : String
  spans : List Span
  deriving DecidableEq, Repr

/-- The bell, the backspace, the vertical tab, the form feed and the carriage return. -/
def isControl (character : Char) : Bool :=
  let code := character.toNat
  code = 7 || code = 8 || code = 11 || code = 12 || code = 13

/-- A text without the characters that a terminal would act on. -/
def withoutControls (text : String) : String :=
  String.ofList (text.toList.filter fun character => !isControl character)

namespace Styled

/-- A text in one style. -/
def ofText (text style : String) : Styled :=
  ⟨withoutControls text, style, []⟩

/-- A text without a style. -/
def plain (text : String) : Styled :=
  ofText text ""

/-- Adds a text in a style; an empty style, like an empty text, adds no span. -/
def append (styled : Styled) (text style : String) : Styled :=
  if text.isEmpty then styled
  else
    let shown := withoutControls text
    let first := Text.length styled.text
    let span := if style.isEmpty then [] else [⟨first, first + Text.length shown, style⟩]
    { styled with text := styled.text ++ shown, spans := styled.spans ++ span }

end Styled

/-- A cell of a table. -/
inductive Cell where
  | text (text : String)
  | styled (styled : Styled)
  deriving DecidableEq, Repr

/-- How a column of a table is set. Its cells are kept on one line and cut with an ellipsis. -/
structure Column where
  header : String
  style : String
  justify : String
  minWidth : Option Int
  deriving DecidableEq, Repr

/-- What a terminal is given to show. -/
inductive Display where
  | line (text : String)
  | table (columns : List Column) (rows : List (List Cell))
  | group (items : List Styled)
  deriving DecidableEq, Repr

end Taskbook.View
