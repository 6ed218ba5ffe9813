/-
Values as text.

Every value has a literal, the way it is written in a message or inside another value,
and a text, the way it is put into a command. They differ for texts and points in time
alone: the text of a text is itself, its literal is quoted.

A quoted literal stands between single quotes unless the text holds single quotes and
no double ones. Inside it the quote used and the backslash are escaped, and so is every
character that is not printable.

A collection inside itself is written as three points between its brackets there. An
integer of too many digits cannot be written at all.

The items of a set have no order of their own. They are written in the order in which
they were put in, where a set that keeps them in a table writes them in the order of the
table.
-/

import Taskbook.Fault
import Taskbook.Value.Basic
import Taskbook.Number.Numeral
import Taskbook.Text.Letters
import Taskbook.Text.Printable

namespace Taskbook

open Taskbook.Text Taskbook.Number

/-! ### Quoted literals -/

def singleQuote : Char := Char.ofNat 39

def doubleQuote : Char := '"'

/-- A number in hexadecimal with small letters and zeros in front up to a width. -/
def hexadecimal (width number : Nat) : List Char :=
  let digits := Nat.toDigits 16 number
  List.replicate (width - digits.length) '0' ++ digits

/-- The quote that a literal of these characters stands between. -/
def quoteFor (characters : List Char) : Char :=
  if characters.contains singleQuote && !characters.contains doubleQuote then doubleQuote
  else singleQuote

/-- The escape of a character by its number, as short as the number allows. -/
def numberEscape (code : Nat) : List Char :=
  if code < 0x100 then '\\' :: 'x' :: hexadecimal 2 code
  else if code < 0x10000 then '\\' :: 'u' :: hexadecimal 4 code
  else '\\' :: 'U' :: hexadecimal 8 code

/-- A character as it is written inside a literal between the given quotes. -/
def escapeCharacter (quote : Char) (written : Char → Bool) (character : Char) : List Char :=
  if character = quote || character = '\\' then ['\\', character]
  else if character = '\t' then ['\\', 't']
  else if character = '\n' then ['\\', 'n']
  else if character = '\r' then ['\\', 'r']
  else if written character then [character]
  else numberEscape character.toNat

/-- A letter as it is written inside a literal between the given quotes. -/
def escapeLetter (quote : Char) : Letter → List Char
  | .plain character => escapeCharacter quote isPrintable character
  | .half place => numberEscape (Letter.half place).number

/-- A text as a literal. -/
def quoted (text : String) : String :=
  let quote := quoteFor text.toList
  String.ofList (quote :: (letters text).flatMap (escapeLetter quote) ++ [quote])

/-- Octets as a literal: those of printable ASCII stand for themselves. -/
def quotedOctets (octets : List UInt8) : String :=
  let characters := octets.map fun octet => Char.ofNat octet.toNat
  let quote := quoteFor characters
  let written := fun (character : Char) => 32 ≤ character.toNat && character.toNat < 127
  String.ofList ('b' :: quote :: characters.flatMap (escapeCharacter quote written) ++ [quote])

/-! ### Numbers -/

/-- An integer in decimal; one of too many digits cannot be written. -/
def integerText (number : Int) : Except Fault String :=
  match writeInt? number with
  | some text => .ok text
  | none => .error .wrongValue

/-! ### Points in time -/

/-- Numbers as the arguments of a literal. -/
def argumentList (numbers : List Nat) : String :=
  ", ".intercalate (numbers.map fun number => toString number)

def Day.literal (date : Day) : String :=
  "datetime.date(" ++ argumentList [date.year, date.month, date.day] ++ ")"

/-- An offset as a literal; a negative one counts seconds from the day before. -/
def offsetLiteral (offset : Int) : String :=
  if offset = 0 then "datetime.timezone.utc"
  else
    let days := if offset < 0 then "days=-1, " else ""
    let seconds := (offset % 86400).toNat
    "datetime.timezone(datetime.timedelta(" ++ days ++ "seconds=" ++ toString seconds ++ "))"

/-- Seconds and microseconds are left out where they and all that follows them are zero. -/
def Moment.literal (moment : Moment) : String :=
  let fine :=
    if moment.microsecond ≠ 0 then [moment.second, moment.microsecond]
    else if moment.second ≠ 0 then [moment.second]
    else []
  let numbers := [moment.date.year, moment.date.month, moment.date.day, moment.hour,
    moment.minute] ++ fine
  let zone := match moment.offset with
    | none => ""
    | some offset => ", tzinfo=" ++ offsetLiteral offset
  "datetime.datetime(" ++ argumentList numbers ++ zone ++ ")"

/-! ### Values -/

/-- Items between brackets. -/
def bracketed (items : List String) : String :=
  "[" ++ ", ".intercalate items ++ "]"

/-- Items between parentheses. -/
def parenthesized (items : List String) : String :=
  "(" ++ ", ".intercalate items ++ ")"

/-- Items between braces. -/
def braced (items : List String) : String :=
  "\x7b" ++ ", ".intercalate items ++ "\x7d"

/-- What stands for a collection inside itself. -/
def repetition : List String := ["..."]

/-- A value and another with a colon between them. -/
def withColon (name content : String) : String :=
  name ++ ": " ++ content

namespace Value

/-- The literal of a value without parts. -/
def scalarLiteral : Value → Except Fault String
  | null => .ok "None"
  | bool true => .ok "True"
  | bool false => .ok "False"
  | int number => integerText number
  | float number => .ok (programForm.write number)
  | str text => .ok (quoted text)
  | bytes octets => .ok (quotedOctets octets)
  | date _ day => .ok day.literal
  | moment _ point => .ok point.literal
  | _ => .error .wrongType

end Value

/-! ### Collections of a web -/

namespace Web

/-- The literal of a part of a cell. -/
def partLiteral (cellLiteral : Nat → Except Fault String) : Slot Value → Except Fault String
  | .leaf value => value.scalarLiteral
  | .cell place => cellLiteral place

/-- The literal of the collection at a place inside those at the given places. The first argument
bounds the number of collections inside each other. -/
def literalInside (web : Web) : Nat → List Nat → Nat → Except Fault String
  | 0, _, _ => .error .tooDeep
  | bound + 1, places, place =>
    let inside := partLiteral (literalInside web bound (place :: places))
    let known := places.contains place
    match web.cell place with
    | .list items =>
      if known then .ok (bracketed repetition) else (items.mapM inside).map bracketed
    | .pair first second =>
      if known then .ok (parenthesized repetition)
      else ([first, second].mapM inside).map parenthesized
    | .set [] => .ok "set()"
    | .set items => (items.mapM inside).map braced
    | .map entries =>
      if known then .ok (braced repetition)
      else do
        let texts ← entries.mapM fun (key, value) => do
          let name ← inside key
          let content ← inside value
          return withColon name content
        return braced texts

/-- The literal of the collection at a place. -/
def literal (web : Web) (place : Nat) : Except Fault String :=
  literalInside web (web.size + 1) [] place

end Web

/-! ### All values -/

namespace Value

mutual

/-- A value as it is written in a message or inside another value. -/
def literal : Value → Except Fault String
  | list _ items => (literals items).map bracketed
  | pair _ first second => do
    let first ← first.literal
    let second ← second.literal
    return parenthesized [first, second]
  | set _ [] => .ok "set()"
  | set _ items => (literals items).map braced
  | map _ entries => (entryLiterals entries).map braced
  | knot web place => Web.literal web place
  | scalar => scalar.scalarLiteral

/-- The literals of several values. -/
def literals : List Value → Except Fault (List String)
  | [] => .ok []
  | item :: rest => do
    let first ← item.literal
    let others ← literals rest
    return first :: others

/-- The entries of a mapping, each a key and a value with a colon between them. -/
def entryLiterals : List (Value × Value) → Except Fault (List String)
  | [] => .ok []
  | (key, value) :: rest => do
    let name ← key.literal
    let content ← value.literal
    let others ← entryLiterals rest
    return withColon name content :: others

end

/-- A value as it is put into a command or a message: texts and points in time as they are,
everything else as its literal. -/
def text : Value → Except Fault String
  | str text => .ok text
  | date _ day => .ok day.text
  | moment _ point => .ok point.text
  | other => other.literal

end Value

end Taskbook
