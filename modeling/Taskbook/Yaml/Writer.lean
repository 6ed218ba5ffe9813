/-
Documents as text.

Mappings and sequences are written as blocks, one entry a line, the levels of mappings
two columns apart; a sequence in a mapping starts in the column of its key. Empty ones
are a pair of brackets. A node that is referred to stands behind its anchor, and an alias
is its name. A key stands before its colon if it is a short scalar on one line or an
alias, and otherwise behind a question mark. Long scalars are folded at blanks.
-/

import Taskbook.Yaml.Node.OfValue
import Taskbook.Yaml.Sheet
import Taskbook.Yaml.Style

namespace Taskbook.Yaml

/-! ### Scalars -/

/-- A run of blanks, of line ends, or of other characters. -/
inductive RunKind where
  | blanks
  | breaks
  | word
  deriving DecidableEq, Repr

def runKind (character : Char) : RunKind :=
  if character = ' ' then .blanks
  else if isDataBreak character then .breaks
  else .word

/-- The runs of a text in order. -/
def runs (text : List Char) : List (List Char) :=
  text.splitBy fun left right => runKind left == runKind right

/-- Writes line ends, the first of them doubled if it is a line feed: a single one would be read
as a blank. -/
def writeBreaks (sheet : Sheet) (column : Nat) (breaks : List Char) : Sheet :=
  let doubled := if breaks.head? = some '\n' then sheet.newline '\n' else sheet
  (breaks.foldl Sheet.newline doubled).indent column

/-- Writes blanks, or a line end in place of a single one in a line that has become too long. -/
def writeBlanks (sheet : Sheet) (column : Nat) (fold : Bool) (blanks : List Char) : Sheet :=
  if fold && blanks.length = 1 && sheet.column > Sheet.width then sheet.indent column
  else sheet.put blanks

/-- Writes the runs of a plain scalar. -/
def writePlainRuns (column : Nat) (fold : Bool) (sheet : Sheet) (run : List Char) : Sheet :=
  match run.head?.map runKind with
  | some .blanks => (writeBlanks sheet column fold run).inWord
  | some .breaks => (writeBreaks sheet column run).inWord
  | _ => sheet.put run

/-- Writes a plain scalar. -/
def writePlain (sheet : Sheet) (column : Nat) (fold : Bool) (text : List Char) : Sheet :=
  if text.isEmpty then sheet
  else
    let started := (if sheet.spaced then sheet else sheet.put [' ']).inWord
    (runs text).foldl (writePlainRuns column fold) started

/-- A single quote is written twice between single quotes. -/
def doubleQuotes (text : List Char) : List Char :=
  text.flatMap fun character =>
    if character = Char.ofNat 39 then [character, character] else [character]

/-- Writes the runs of a scalar between single quotes; neither its first nor its last run is
folded. -/
def writeSingleRuns (column : Nat) (fold : Bool) (sheet : Sheet) (first : Bool) :
    List (List Char) → Sheet
  | [] => sheet
  | run :: rest =>
    let written := match run.head?.map runKind with
      | some .blanks => writeBlanks sheet column (fold && !first && !rest.isEmpty) run
      | some .breaks => writeBreaks sheet column run
      | _ => sheet.put (doubleQuotes run)
    writeSingleRuns column fold written false rest

/-- Writes a scalar between single quotes. -/
def writeSingle (sheet : Sheet) (column : Nat) (fold : Bool) (text : List Char) : Sheet :=
  let quote := String.ofList [Char.ofNat 39]
  let opened := sheet.mark quote true false false
  (writeSingleRuns column fold opened true (runs text)).mark quote false false false

/-- The escapes that are a single letter. -/
def letterEscape? (character : Char) : Option Char :=
  match character.toNat with
  | 0x00 => some '0'
  | 0x07 => some 'a'
  | 0x08 => some 'b'
  | 0x09 => some 't'
  | 0x0A => some 'n'
  | 0x0B => some 'v'
  | 0x0C => some 'f'
  | 0x0D => some 'r'
  | 0x1B => some 'e'
  | 0x22 => some '"'
  | 0x5C => some '\\'
  | 0x85 => some 'N'
  | 0xA0 => some '_'
  | 0x2028 => some 'L'
  | 0x2029 => some 'P'
  | _ => none

/-- A number in hexadecimal with capital letters and zeros in front up to a width. -/
def upperHex (width number : Nat) : List Char :=
  let digits := (Nat.toDigits 16 number).map Char.toUpper
  List.replicate (width - digits.length) '0' ++ digits

/-- The escape of a letter between double quotes. -/
def escape (letter : Text.Letter) : List Char :=
  let code := letter.number
  match letter.character?.bind letterEscape? with
  | some name => ['\\', name]
  | none =>
    if code ≤ 0xFF then '\\' :: 'x' :: upperHex 2 code
    else if code ≤ 0xFFFF then '\\' :: 'u' :: upperHex 4 code
    else '\\' :: 'U' :: upperHex 8 code

/-- Whether a character has to be escaped between double quotes. -/
def isEscaped (charset : Charset) (character : Char) : Bool :=
  let code := character.toNat
  character = '"' || character = '\\' || character = nextLine || character = lineSeparator ||
    character = paragraphSeparator || character = byteOrderMark ||
    !((0x20 ≤ code && code ≤ 0x7E) ||
      (charset.unicode && 0xA0 ≤ code && code ≤ 0xFFFD))

/-- Breaks a line inside double quotes: a backslash ends the line, and another one keeps a blank
at the start of the next. -/
def breakDouble (sheet : Sheet) (column : Nat) (pending : List Char) (next : Option Char) :
    Sheet :=
  let broken := ((sheet.put (pending ++ ['\\'])).indent column).inWord
  if next = some ' ' then broken.put ['\\'] else broken

/-- The character that a letter is written as between double quotes, unless it is escaped. -/
def unescaped? (charset : Charset) (letter : Text.Letter) : Option Char :=
  letter.character?.filter fun character => !isEscaped charset character

/-- Writes the letters of a scalar between double quotes. The pending characters are not written
yet: they are those since the last escape or line break. -/
def writeDoubleFrom (charset : Charset) (column : Nat) (fold : Bool) (sheet : Sheet)
    (first : Bool) (pending : List Char) : List Text.Letter → Sheet
  | [] => sheet.put pending
  | letter :: rest =>
    let inner := fold && !first && !rest.isEmpty
    match unescaped? charset letter with
    | none =>
      let written := (sheet.put pending).put (escape letter)
      let broken :=
        if inner && written.column > Sheet.width + 1 then
          breakDouble written column [] (rest.head?.bind Text.Letter.character?)
        else written
      writeDoubleFrom charset column fold broken false [] rest
    | some character =>
      if inner && (character = ' ' || pending.isEmpty) &&
          sheet.column + pending.length > Sheet.width then
        writeDoubleFrom charset column fold (breakDouble sheet column pending (some character))
          false [character] rest
      else writeDoubleFrom charset column fold sheet false (pending ++ [character]) rest

/-- Writes a scalar between double quotes. -/
def writeDouble (charset : Charset) (sheet : Sheet) (column : Nat) (fold : Bool)
    (letters : List Text.Letter) : Sheet :=
  let opened := sheet.mark "\"" true false false
  (writeDoubleFrom charset column fold opened true [] letters).mark "\"" false false false

/-- Writes a literal block: every line of the text on a line of its own. -/
def writeLiteral (sheet : Sheet) (column : Nat) (text : List Char) : Sheet :=
  let opened := (sheet.mark "|" true false false).newline '\n'
  let lines := (pieces '\n' text).dropLast
  lines.foldl (fun sheet line => ((sheet.indent column).put line).newline '\n') opened

/-- Writes the text of a scalar behind its tag. A key keeps to its line. -/
def writeScalar (charset : Charset) (sheet : Sheet) (column : Nat) (key : Bool) (tag : Tag)
    (text : String) : Sheet :=
  let characters := text.toList
  let style := chooseStyle tag text (analyze charset characters) key
  let sheet := if needsTag tag text style then sheet.mark tag.shorthand true false false else sheet
  match style with
  | .plain => writePlain sheet column (!key) characters
  | .single => writeSingle sheet column (!key) characters
  | .double => writeDouble charset sheet column (!key) (Text.letters text)
  | .literal => writeLiteral sheet column characters

/-! ### Names -/

/-- Writes the anchor of a node that has one. -/
def writeAnchor (sheet : Sheet) (anchor : Option String) : Sheet :=
  match anchor with
  | some name => sheet.mark ("&" ++ name) true false false
  | none => sheet

/-- Writes an alias. -/
def writeAlias (sheet : Sheet) (name : String) : Sheet :=
  sheet.mark ("*" ++ name) true false false

/-! ### Collections -/

/-- The length of what stands in front of a node. -/
def headLength (anchor : Option String) (tag : Tag) : Nat :=
  (anchor.map String.length).getD 0 + tag.shorthand.length

/-- The longest key that stands before its colon. -/
def simpleKeyLimit : Nat := 128

/-- Whether a key can stand before its colon: it is short and on one line. -/
def isSimpleKey (charset : Charset) (key : Node) : Bool :=
  match key with
  | .scalar anchor tag text =>
    let analysis := analyze charset text.toList
    !analysis.empty && !analysis.multiline &&
      headLength anchor tag + Text.length text < simpleKeyLimit
  | .sequence anchor tag items => items.isEmpty && headLength anchor tag < simpleKeyLimit
  | .mapping anchor tag entries => entries.isEmpty && headLength anchor tag < simpleKeyLimit
  | .reference name => name.length < simpleKeyLimit

/-- Writes the tag of a collection that is no ordinary one. -/
def writeTag (sheet : Sheet) (tag usual : Tag) : Sheet :=
  if tag = usual then sheet else sheet.mark tag.shorthand true false false

/-- Writes what stands in front of a collection. -/
def writeHead (sheet : Sheet) (anchor : Option String) (tag usual : Tag) : Sheet :=
  writeTag (writeAnchor sheet anchor) tag usual

mutual

/-- Writes a node inside a collection that is indented to a column. The value of a key that
stands on the same line is `inMapping`. -/
def writeNode (charset : Charset) (sheet : Sheet) (column : Nat) (inMapping key : Bool) :
    Node → Sheet
  | .reference name => writeAlias sheet name
  | .scalar anchor tag text =>
    writeScalar charset (writeAnchor sheet anchor) (column + 2) key tag text
  | .sequence anchor tag [] =>
    ((writeHead sheet anchor tag .seq).mark "[" true true false).mark "]" false false false
  | .sequence anchor tag items =>
    let headed := writeHead sheet anchor tag .seq
    let inner := if inMapping && !headed.indented then column else column + 2
    writeItems charset headed inner items
  | .mapping anchor tag [] =>
    ((writeHead sheet anchor tag .map).mark "\x7b" true true false).mark "\x7d" false false false
  | .mapping anchor tag entries =>
    writeEntries charset (writeHead sheet anchor tag .map) (column + 2) entries

/-- Writes the items of a sequence in a column. -/
def writeItems (charset : Charset) (sheet : Sheet) (column : Nat) : List Node → Sheet
  | [] => sheet
  | item :: rest =>
    let marked := (sheet.indent column).mark "-" true false true
    writeItems charset (writeNode charset marked column false false item) column rest

/-- Writes the entries of a mapping in a column. -/
def writeEntries (charset : Charset) (sheet : Sheet) (column : Nat) : List (Node × Node) → Sheet
  | [] => sheet
  | (key, value) :: rest =>
    let started := sheet.indent column
    let separated :=
      if isSimpleKey charset key then
        (writeNode charset started column true true key).mark ":" false false false
      else
        let asked := started.mark "?" true false true
        ((writeNode charset asked column true false key).indent column).mark ":" true false true
    writeEntries charset (writeNode charset separated column true false value) column rest

end

/-- Writes a document. -/
def writeDocument (charset : Charset) (node : Node) : Sheet :=
  match node with
  | .mapping anchor tag (entry :: entries) =>
    writeEntries charset (writeHead Sheet.empty anchor tag .map) 0 (entry :: entries)
  | .sequence anchor tag (item :: items) =>
    writeItems charset (writeHead Sheet.empty anchor tag .seq) 0 (item :: items)
  | node => writeNode charset Sheet.empty 0 false false node

/-- The text of a document that holds a value. -/
def write [Depths] (charset : Charset) (value : Value) : Except Fault String := do
  let node ← Node.ofValue value
  return ((writeDocument charset node).indent 0).text

end Taskbook.Yaml
