/-
Scalars between quotes.

Between single quotes a single quote is written twice and everything else stands for
itself. Between double quotes a backslash starts an escape: a letter, the number of a
character in two, four or eight hexadecimal digits, or a line end, which is dropped
with the white space at the start of the next line. In both, line ends are folded and
the white space around them is dropped. A document mark may not stand inside.
-/

import Taskbook.Text.Letters
import Taskbook.Yaml.Token.Line

namespace Taskbook.Yaml

/-- The spelling of a quoted scalar's text, and the characters that follow it. -/
abbrev Lexed := Except ReadError (List Char × List Char)

/-- The character that an escape of one letter stands for. -/
def escapedLetter? (letter : Char) : Option Char :=
  match letter with
  | '0' => some (Char.ofNat 0x00)
  | 'a' => some (Char.ofNat 0x07)
  | 'b' => some (Char.ofNat 0x08)
  | 't' => some (Char.ofNat 0x09)
  | '\t' => some (Char.ofNat 0x09)
  | 'n' => some (Char.ofNat 0x0A)
  | 'v' => some (Char.ofNat 0x0B)
  | 'f' => some (Char.ofNat 0x0C)
  | 'r' => some (Char.ofNat 0x0D)
  | 'e' => some (Char.ofNat 0x1B)
  | ' ' => some ' '
  | '"' => some '"'
  | '\\' => some '\\'
  | '/' => some '/'
  | 'N' => some nextLine
  | '_' => some (Char.ofNat 0xA0)
  | 'L' => some lineSeparator
  | 'P' => some paragraphSeparator
  | _ => none

/-- How many digits follow the letter of an escape by number. -/
def escapeDigits? (letter : Char) : Option Nat :=
  match letter with
  | 'x' => some 2
  | 'u' => some 4
  | 'U' => some 8
  | _ => none

/-- The number that a fixed count of hexadecimal digits spells, and the rest. -/
def hexNumber? : Nat → Nat → List Char → Option (Nat × List Char)
  | 0, total, rest => some (total, rest)
  | count + 1, total, digit :: rest =>
    match hexValue? digit with
    | some value => hexNumber? count (total * 16 + value) rest
    | none => none
  | _ + 1, _, [] => none

/-- The letter of a number. A number past the last character stands for none. -/
def letterOf (code : Nat) : Except ReadError Text.Letter :=
  if code < 0x110000 then .ok (.ofNumber code)
  else if code < 0x80000000 then .error (.fault .wrongValue)
  else .error (.fault .tooLarge)

/-- Line ends and the white space at the start of lines, after a first line end. The first
argument bounds their number. -/
def foldedLines : Nat → List Char → Lexed
  | 0, _ => .error .malformed
  | bound + 1, line =>
    if isDocumentMark line then .error .malformed
    else
      let text := line.dropWhile isSpace
      match lineBreak? text with
      | none => .ok ([], text)
      | some (character, rest) => do
        let (breaks, rest) ← foldedLines bound rest
        return (character :: breaks, rest)

/-- White space and the line ends after it. The first argument bounds their number. -/
def foldedSpace (bound : Nat) (text : List Char) : Lexed :=
  let spaces := text.takeWhile isSpace
  let afterSpaces := text.dropWhile isSpace
  match afterSpaces with
  | [] => .error .malformed
  | _ =>
    match lineBreak? afterSpaces with
    | none => .ok (spaces, afterSpaces)
    | some (first, rest) => do
      let (others, rest) ← foldedLines bound rest
      return (foldBreaks first others, rest)

/-- An escape, after its backslash. The first argument bounds the number of line ends in it. -/
def escaped (bound : Nat) (text : List Char) : Lexed :=
  match text with
  | [] => .error .malformed
  | letter :: rest =>
    match escapedLetter? letter, escapeDigits? letter with
    | some character, _ => .ok ([character], rest)
    | none, some count =>
      match hexNumber? count 0 rest with
      | none => .error .malformed
      | some (code, rest) => do
        let letter ← letterOf code
        return (Text.spelling letter, rest)
    | none, none =>
      match lineBreak? text with
      | none => .error .malformed
      | some (_, rest) => foldedLines bound rest

/-- The text of a scalar between double quotes, after the first one, and what follows the last
one. The first argument bounds the number of characters, escapes and foldings. -/
def doubleQuoted : Nat → List Char → Lexed
  | 0, _ => .error .malformed
  | bound + 1, text =>
    match text with
    | [] => .error .malformed
    | '"' :: rest => .ok ([], rest)
    | character :: rest => do
      let (unit, rest) ←
        if character = '\\' then escaped (bound + 1) rest
        else if isSpaceOrBreak character then foldedSpace (bound + 1) text
        else Except.ok (Text.spelling (.plain character), rest)
      let (others, rest) ← doubleQuoted bound rest
      return (unit ++ others, rest)

/-- The text of a scalar between single quotes, after the first one, and what follows the last
one. The first argument bounds the number of characters and foldings. -/
def singleQuoted : Nat → List Char → Lexed
  | 0, _ => .error .malformed
  | bound + 1, text =>
    match text with
    | [] => .error .malformed
    | character :: rest =>
      if character = Char.ofNat 39 then
        match rest with
        | next :: further =>
          if next = Char.ofNat 39 then do
            let (others, rest) ← singleQuoted bound further
            return (character :: others, rest)
          else .ok ([], rest)
        | [] => .ok ([], [])
      else do
        let (unit, rest) ←
          if isSpaceOrBreak character then foldedSpace (bound + 1) text
          else Except.ok (Text.spelling (.plain character), rest)
        let (others, rest) ← singleQuoted bound rest
        return (unit ++ others, rest)

/-- A quoted scalar after its first quote. The first argument bounds the number of characters in
it. -/
def quotedScalar (bound : Nat) (quote : Char) (text : List Char) : Lexed :=
  if quote = '"' then doubleQuoted bound text else singleQuoted bound text

end Taskbook.Yaml
