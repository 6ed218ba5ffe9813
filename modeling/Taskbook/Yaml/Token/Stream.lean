/-
The tokens of a text.

Marks, names and scalars are read one after the other. Two things make that more than
a row of lexemes. Outside brackets the column of a line opens and closes blocks: a mark
further right than the current block opens one, and a token further left closes those
it has left. And a key is recognised by the colon after it: wherever a key may begin
the place is remembered, and when a colon follows on the same line, not too far away,
the mark of the key is put in front of what has been read since.

So a token is settled only when no mark can be put in front of it any more. Where the
text turns out to be wrong, only the tokens that were settled before count.
-/

import Taskbook.Yaml.Cursor
import Taskbook.Yaml.Token.Quoted
import Taskbook.Yaml.Token.Words
import Taskbook.Yaml.Token.Block
import Taskbook.Yaml.Token.Property

namespace Taskbook.Yaml

/-- A place where a key may have begun, by the number of tokens before it. A key is required
where nothing else can stand. -/
structure KeyPlace where
  level : Nat
  number : Nat
  required : Bool
  index : Nat
  line : Nat
  column : Nat

/-- The longest key before a colon. -/
def keyLimit : Nat := 1024

/-- A text being split into tokens. The tokens read are kept in reverse, with their number. -/
structure Scan where
  cursor : Cursor
  tokens : List Token
  count : Nat
  indent : Int
  outer : List Int
  level : Nat
  mayStartKey : Bool
  places : List KeyPlace

namespace Scan

def start (text : List Char) : Scan :=
  { cursor := .start text, tokens := [], count := 0, indent := -1, outer := [], level := 0
    mayStartKey := true, places := [] }

/-- The text that is left. -/
def rest (scan : Scan) : List Char :=
  scan.cursor.rest

def inFlow (scan : Scan) : Bool :=
  scan.level > 0

def emit (scan : Scan) (token : Token) : Scan :=
  { scan with tokens := token :: scan.tokens, count := scan.count + 1 }

/-- Puts a token in front of those read since so many. -/
def insert (scan : Scan) (number : Nat) (token : Token) : Scan :=
  let since := scan.count - number
  { scan with
    tokens := scan.tokens.take since ++ token :: scan.tokens.drop since
    count := scan.count + 1 }

/-- More than the number of characters that are left. -/
def bound (scan : Scan) : Nat :=
  scan.cursor.left + 1

/-- Goes past so many characters. -/
def pass (scan : Scan) (count : Nat) : Scan :=
  { scan with cursor := scan.cursor.advance count }

/-- Goes past the characters up to the first one that is not as described. -/
def passWhile (scan : Scan) (holds : Char → Bool) : Scan :=
  { scan with cursor := scan.cursor.advanceWhile holds }

/-- Goes on after a lexeme. -/
def goTo (scan : Scan) (rest : List Char) : Scan :=
  { scan with cursor := scan.cursor.moveTo rest }

/-- Whether a key may begin with the next token. -/
def allowKey (scan : Scan) (allowed : Bool) : Scan :=
  { scan with mayStartKey := allowed }

/-! ### Blanks, comments and line ends -/

/-- Goes past blanks, comments and line ends. Outside brackets a key may begin on a new line.
The first argument bounds the number of lines. -/
def skipLines : Nat → Scan → Scan
  | 0, scan => scan
  | bound + 1, scan =>
    let afterBlanks := scan.passWhile (· = ' ')
    let afterComment :=
      if afterBlanks.rest.head? = some '#' then
        afterBlanks.passWhile fun character => !isBreak character
      else afterBlanks
    match lineBreak? afterComment.rest with
    | none => afterComment
    | some _ =>
      let next := afterComment.pass (breakLength afterComment.rest)
      skipLines bound (if next.inFlow then next else next.allowKey true)

/-- Goes to the next token. A byte-order mark may start the text. -/
def toNextToken (scan : Scan) : Scan :=
  let begun := match scan.cursor.index, scan.rest with
    | 0, first :: _ => if first = byteOrderMark then scan.pass 1 else scan
    | _, _ => scan
  skipLines begun.bound begun

/-! ### Places of keys -/

/-- Forgets places from which no key can reach this far; a required key must not be forgotten. -/
def forgetStale (scan : Scan) : Except ReadError Scan :=
  let stale := fun (place : KeyPlace) =>
    place.line ≠ scan.cursor.line || scan.cursor.index - place.index > keyLimit
  if scan.places.any fun place => stale place && place.required then .error .malformed
  else .ok { scan with places := scan.places.filter fun place => !stale place }

/-- Forgets the place of the current level. -/
def forgetPlace (scan : Scan) : Except ReadError Scan :=
  if scan.places.any fun place => place.level = scan.level && place.required then
    .error .malformed
  else .ok { scan with places := scan.places.filter fun place => place.level ≠ scan.level }

/-- Remembers that a key may begin here. -/
def rememberPlace (scan : Scan) : Except ReadError Scan :=
  if scan.mayStartKey then do
    let cleared ← scan.forgetPlace
    let place : KeyPlace :=
      { level := scan.level
        number := scan.count
        required := !scan.inFlow && scan.indent = scan.cursor.column
        index := scan.cursor.index
        line := scan.cursor.line
        column := scan.cursor.column }
    return { cleared with places := place :: cleared.places }
  else .ok scan

/-! ### Blocks -/

/-- Closes the blocks that are further right than a column. The second argument are the columns
of the blocks around the current one. -/
def closeBlocks (column : Int) (scan : Scan) : List Int → Scan
  | [] => scan
  | indent :: outer =>
    if scan.indent > column then
      closeBlocks column { scan.emit .blockEnd with indent := indent, outer := outer } outer
    else scan

/-- Closes the blocks that are further right than a column; inside brackets columns mean
nothing. -/
def outdent (scan : Scan) (column : Int) : Scan :=
  if scan.inFlow then scan else scan.closeBlocks column scan.outer

/-- Opens a block in a column if it is further right than the current block. -/
def openBlock? (scan : Scan) (column : Nat) : Option Scan :=
  if scan.indent < column then
    some { scan with indent := column, outer := scan.indent :: scan.outer }
  else none

/-- Opens a block in the column of the next mark, with a token at the end. -/
def openHere (scan : Scan) (token : Token) : Scan :=
  match scan.openBlock? scan.cursor.column with
  | some opened => opened.emit token
  | none => scan

/-! ### Marks -/

/-- A mark of one character. -/
def mark (scan : Scan) (token : Token) : Scan :=
  (scan.pass 1).emit token

/-- The mark of a document. -/
def documentMark (scan : Scan) (token : Token) : Except ReadError Scan := do
  let closed ← (scan.outdent (-1)).forgetPlace
  return ((closed.allowKey false).pass 3).emit token

def directiveLine (scan : Scan) : Except ReadError Scan := do
  let closed ← (scan.outdent (-1)).forgetPlace
  let (directive, rest) ← directiveAfterMark (scan.rest.drop 1)
  return ((closed.allowKey false).goTo rest).emit (.directive directive)

def flowStart (scan : Scan) (token : Token) : Except ReadError Scan := do
  let remembered ← scan.rememberPlace
  return ({ remembered with level := scan.level + 1 }.allowKey true).mark token

def flowEnd (scan : Scan) (token : Token) : Except ReadError Scan := do
  if scan.level = 0 then throw .malformed
  let cleared ← scan.forgetPlace
  return ({ cleared with level := scan.level - 1 }.allowKey false).mark token

def flowComma (scan : Scan) : Except ReadError Scan := do
  let cleared ← (scan.allowKey true).forgetPlace
  return cleared.mark .flowEntry

/-- The mark of an item of a sequence. -/
def itemMark (scan : Scan) : Except ReadError Scan := do
  if !scan.inFlow && !scan.mayStartKey then throw .malformed
  let opened := if scan.inFlow then scan else scan.openHere .blockSequenceStart
  let cleared ← (opened.allowKey true).forgetPlace
  return cleared.mark .blockEntry

/-- The mark of a key that is no simple one. -/
def keyMark (scan : Scan) : Except ReadError Scan := do
  if !scan.inFlow && !scan.mayStartKey then throw .malformed
  let opened := if scan.inFlow then scan else scan.openHere .blockMappingStart
  let cleared ← (opened.allowKey (!scan.inFlow)).forgetPlace
  return cleared.mark .key

/-- A colon after a key whose place is remembered: the mark of the key goes in front of it, and
that of a block if it opens one. -/
def closeKey (scan : Scan) (place : KeyPlace) : Scan :=
  let cleared := { scan with places := scan.places.filter fun other => other.level ≠ scan.level }
  let keyed := cleared.insert place.number .key
  let opened :=
    if scan.inFlow then keyed
    else
      match keyed.openBlock? place.column with
      | some opened => opened.insert place.number .blockMappingStart
      | none => keyed
  (opened.allowKey false).mark .value

/-- The mark of a value. -/
def valueMark (scan : Scan) : Except ReadError Scan :=
  match scan.places.find? fun place => place.level = scan.level with
  | some place => .ok (scan.closeKey place)
  | none => do
    if !scan.inFlow && !scan.mayStartKey then throw .malformed
    let opened := if scan.inFlow then scan else scan.openHere .blockMappingStart
    let cleared ← (opened.allowKey (!scan.inFlow)).forgetPlace
    return cleared.mark .value

/-! ### Names and scalars -/

/-- A name after a mark of one character. -/
def nameAfterMark (scan : Scan) (token : String → Token) : Except ReadError Scan := do
  let remembered ← scan.rememberPlace
  match anchorName? (scan.rest.drop 1) with
  | none => throw .malformed
  | some (name, rest) => return ((remembered.allowKey false).goTo rest).emit (token name)

def tagMark (scan : Scan) : Except ReadError Scan := do
  let remembered ← scan.rememberPlace
  match tagProperty? (scan.rest.drop 1) with
  | none => throw .malformed
  | some (handle, suffix, rest) =>
    return ((remembered.allowKey false).goTo rest).emit (.tag handle suffix)

def blockText (scan : Scan) (folded : Bool) : Except ReadError Scan := do
  let cleared ← (scan.allowKey true).forgetPlace
  let (text, rest) ← blockScalar scan.bound folded scan.indent (scan.rest.drop 1)
  return (cleared.goTo rest).emit (.scalar false (String.ofList (Text.spelled text)))

def quotedText (scan : Scan) (quote : Char) : Except ReadError Scan := do
  let remembered ← scan.rememberPlace
  let (text, rest) ← quotedScalar scan.bound quote (scan.rest.drop 1)
  return ((remembered.allowKey false).goTo rest).emit (.scalar false (String.ofList text))

def plainText (scan : Scan) : Except ReadError Scan := do
  let remembered ← scan.rememberPlace
  let words := plainScalar scan.bound scan.inFlow (scan.indent + 1) scan.rest
  return ((remembered.allowKey words.brokeLine).goTo words.rest).emit
    (.scalar true (String.ofList (Text.spelled words.text)))

/-- Whether a plain scalar may start with a character, followed by the rest. -/
def startsPlain (inFlow : Bool) (first : Char) (rest : List Char) : Bool :=
  if first = '-' then !endsWord rest
  else if first = '?' || first = ':' then !inFlow && !endsWord rest
  else
    !(isSpaceOrBreak first || ",[]\x7b\x7d#&*!|>\"%@\x60".toList.contains first ||
      first = Char.ofNat 39)

/-- The token that starts with a character, followed by the rest. -/
def token (scan : Scan) (first : Char) (rest : List Char) : Except ReadError Scan :=
  let atMargin := scan.cursor.column = 0
  let isMarkHere := scan.inFlow || endsWord rest
  if first = '%' && atMargin then scan.directiveLine
  else if atMargin && isMark '-' scan.rest then scan.documentMark .documentStart
  else if atMargin && isMark '.' scan.rest then scan.documentMark .documentEnd
  else if first = '[' then scan.flowStart .flowSequenceStart
  else if first = '\x7b' then scan.flowStart .flowMappingStart
  else if first = ']' then scan.flowEnd .flowSequenceEnd
  else if first = '\x7d' then scan.flowEnd .flowMappingEnd
  else if first = ',' then scan.flowComma
  else if first = '-' && endsWord rest then scan.itemMark
  else if first = '?' && isMarkHere then scan.keyMark
  else if first = ':' && isMarkHere then scan.valueMark
  else if first = '*' then scan.nameAfterMark .reference
  else if first = '&' then scan.nameAfterMark .anchor
  else if first = '!' then scan.tagMark
  else if first = '|' && !scan.inFlow then scan.blockText false
  else if first = '>' && !scan.inFlow then scan.blockText true
  else if first = '"' || first = Char.ofNat 39 then scan.quotedText first
  else if startsPlain scan.inFlow first rest then scan.plainText
  else .error .malformed

/-- How many tokens are settled: those before the first place where a key may have begun. -/
def settled (scan : Scan) : Nat :=
  scan.places.foldl (fun least place => min least place.number) scan.count

/-- What there is of a text that is wrong: the tokens that were settled before. -/
def stopped (scan : Scan) (settled : Nat) (error : ReadError) : List Token × Option ReadError :=
  (scan.tokens.reverse.take settled, some error)

/-- Reads up to the end of the next token, and tells whether the text is over instead. -/
def step (scan : Scan) : Except ReadError (Scan × Bool) := do
  let fresh ← scan.toNextToken.forgetStale
  let closed := fresh.outdent fresh.cursor.column
  match closed.rest with
  | [] =>
    let done ← (closed.outdent (-1)).forgetPlace
    return (done, true)
  | first :: rest =>
    let next ← closed.token first rest
    return (← next.forgetStale, false)

/-- The tokens of the text in order, up to its end or to what is wrong with it, when so many
are settled. The first argument bounds their number. -/
def run : Nat → Nat → Scan → List Token × Option ReadError
  | 0, settled, scan => scan.stopped settled .malformed
  | bound + 1, settled, scan =>
    match scan.step with
    | .error error => scan.stopped settled error
    | .ok (done, true) => (done.tokens.reverse, none)
    | .ok (next, false) => run bound next.settled next

end Scan

/-- The tokens of a text in order, and what is wrong with it after them, if anything is. -/
def tokens (text : List Char) : List Token × Option ReadError :=
  (Scan.start text).run (text.length + 1) 0

end Taskbook.Yaml
