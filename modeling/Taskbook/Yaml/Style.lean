/-
How a scalar may be written.

A scalar is written plain where its looks and its characters allow it, between single
quotes where only its looks forbid that, and between double quotes, with escapes, where
its characters cannot stand for themselves. Octets are written as a literal block.
-/

import Taskbook.Text.Letters
import Taskbook.Yaml.Plain

namespace Taskbook.Yaml

/-- The ways to write a scalar. -/
inductive Style where
  | plain
  | single
  | double
  | literal
  deriving DecidableEq, Repr

/-- Which characters outside ASCII a text may hold unescaped. -/
structure Charset where
  unicode : Bool

/-- What matters about a text for the way it is written. -/
structure Analysis where
  empty : Bool
  multiline : Bool
  plain : Bool
  single : Bool
  literal : Bool
  deriving DecidableEq, Repr

/-- Characters that start something else than a plain scalar. -/
def isIndicator (character : Char) : Bool :=
  ",[]\x7b\x7d#&*!|>\"%@\x60".toList.contains character || character = Char.ofNat 39

/-- Whether the characters after the first one hold what ends a plain scalar: a colon at the
end of a word or a number sign at the start of one. -/
def hasInnerIndicator (previous : Char) : List Char → Bool
  | [] => false
  | character :: rest =>
    (character = ':' && endsWord rest) || (character = '#' && isSpaceOrBreak previous) ||
      hasInnerIndicator character rest

/-- Whether a text holds what would not be read as a plain scalar. -/
def hasIndicator (text : List Char) : Bool :=
  match text with
  | [] => false
  | first :: rest =>
    ['-', '-', '-'].isPrefixOf text || ['.', '.', '.'].isPrefixOf text ||
      isIndicator first ||
      ((first = '?' || first = ':' || first = '-') && endsWord rest) ||
      hasInnerIndicator first rest

/-- Whether a character can stand for itself between single quotes. The last of all characters
cannot, and so neither can what it spells. -/
def isWritable (charset : Charset) (character : Char) : Bool :=
  let code := character.toNat
  character = '\n' || (0x20 ≤ code && code ≤ 0x7E) ||
    (charset.unicode &&
      (code = 0x85 || (0xA0 ≤ code && code ≤ 0xFFFD && code ≠ 0xFEFF) ||
        (0x10000 ≤ code && code < 0x10FFFF)))

/-- Whether two neighbouring characters are as described somewhere in a text. -/
def hasNeighbours (first second : Char → Bool) : List Char → Bool
  | left :: right :: rest => (first left && second right) || hasNeighbours first second (right :: rest)
  | _ => false

/-- Looks at a text. -/
def analyze (charset : Charset) (text : List Char) : Analysis :=
  match text with
  | [] => { empty := true, multiline := false, plain := true, single := true, literal := false }
  | first :: _ =>
    let last := text.getLast?.getD first
    let blank := fun (character : Char) => character == ' '
    let outer := fun (character : Char) => blank character || isDataBreak character
    let multiline := text.any isDataBreak
    let special := !text.all (isWritable charset)
    let blankBreak := hasNeighbours blank isDataBreak text
    let breakBlank := hasNeighbours isDataBreak blank text
    let escaped := special || blankBreak
    { empty := false
      multiline := multiline
      plain := !(outer first || outer last || breakBlank || escaped || multiline ||
        hasIndicator text)
      single := !(breakBlank || escaped)
      literal := !(blank last || escaped) }

/-- The way a scalar is written. A plain scalar must have its tag by its looks; a key on one
line must not be empty or run over several lines. -/
def chooseStyle (tag : Tag) (text : String) (analysis : Analysis) (key : Bool) : Style :=
  if tag = .binary then
    if !key && analysis.literal then .literal else .double
  else if plainTag text = tag && !(key && (analysis.empty || analysis.multiline)) &&
      analysis.plain then .plain
  else if analysis.single && !(key && analysis.multiline) then .single
  else .double

/-- Whether the tag of a scalar has to be written out. -/
def needsTag (tag : Tag) (text : String) (style : Style) : Bool :=
  if style = .plain then plainTag text ≠ tag else tag ≠ .str

end Taskbook.Yaml
