/-
Values as JSON.

Collections are written over several lines, each level two blanks further in, and the
empty ones as a pair of brackets. Texts are written in ASCII: every other character is
escaped by its UTF-16 units. The keys of an object are texts, and so numbers, truth
values and null are written as texts where they are keys. Octets, points in time and
sets have no JSON, and neither has a collection that is part of itself.
-/

import Taskbook.Value.Literal

namespace Taskbook

open Taskbook.Number Taskbook.Text

/-- Numbers in JSON are written as in program text, the special ones by name. -/
def jsonForm : FloatForm :=
  { programForm with infinity := "Infinity", notANumber := "NaN" }

/-- The escape of one UTF-16 unit. -/
def unitEscape (unit : Nat) : List Char :=
  '\\' :: 'u' :: hexadecimal 4 unit

/-- A character as it is written inside a JSON text. -/
def jsonCharacter (character : Char) : List Char :=
  let code := character.toNat
  if character = '"' || character = '\\' then ['\\', character]
  else if character = '\n' then ['\\', 'n']
  else if character = '\r' then ['\\', 'r']
  else if character = '\t' then ['\\', 't']
  else if code = 12 then ['\\', 'f']
  else if code = 8 then ['\\', 'b']
  else if 32 ≤ code && code < 127 then [character]
  else if code < 0x10000 then unitEscape code
  else
    unitEscape (0xD800 + (code - 0x10000) / 0x400) ++
      unitEscape (0xDC00 + (code - 0x10000) % 0x400)

/-- A letter as it is written inside a JSON text. -/
def jsonLetter : Letter → List Char
  | .plain character => jsonCharacter character
  | .half place => unitEscape (Letter.half place).number

/-- A text as JSON. -/
def jsonText (text : String) : String :=
  String.ofList ('"' :: (letters text).flatMap jsonLetter ++ ['"'])

/-- A line break and the blanks of a level. -/
def jsonBreak (level : Nat) : String :=
  String.ofList ('\n' :: List.replicate (2 * level) ' ')

/-- Parts, each behind the break of its line, between an opening and a closing mark. Where there
are no parts, nothing stands between the marks. -/
def jsonLines (opening closing : String) (level : Nat) (parts : List String) : String :=
  if parts.isEmpty then opening ++ closing
  else
    let lines := parts.map (jsonBreak (level + 1) ++ ·)
    opening ++ ",".intercalate lines ++ jsonBreak level ++ closing

/-- The items of a list between brackets. -/
def jsonList (level : Nat) (items : List String) : String :=
  jsonLines "[" "]" level items

/-- The entries of a mapping between braces. -/
def jsonObject (level : Nat) (entries : List String) : String :=
  jsonLines "\x7b" "\x7d" level entries

/-- A key and a value with a colon between them. -/
def jsonEntry (name content : String) : String :=
  jsonText name ++ ": " ++ content

namespace Value

/-- A key of a mapping as the text of a key in JSON. -/
def jsonKey : Value → Except Fault String
  | str text => .ok text
  | null => .ok "null"
  | bool true => .ok "true"
  | bool false => .ok "false"
  | int number => integerText number
  | float number => .ok (jsonForm.write number)
  | _ => .error .wrongType

/-- A value without parts as JSON. -/
def scalarJson : Value → Except Fault String
  | null => .ok "null"
  | bool true => .ok "true"
  | bool false => .ok "false"
  | int number => integerText number
  | float number => .ok (jsonForm.write number)
  | str text => .ok (jsonText text)
  | _ => .error .wrongType

end Value

/-! ### Collections of a web -/

namespace Web

/-- A part of a cell as JSON. -/
def partJson (cellJson : Nat → Except Fault String) : Slot Value → Except Fault String
  | .leaf value => value.scalarJson
  | .cell place => cellJson place

/-- A part of a cell as a key in JSON; a collection is none. -/
def partKey : Slot Value → Except Fault String
  | .leaf value => value.jsonKey
  | .cell _ => .error .wrongType

/-- The collection at a place as JSON at a level of nesting, inside those at the given places. The
first argument bounds the number of collections inside each other. -/
def jsonInside (web : Web) : Nat → Nat → List Nat → Nat → Except Fault String
  | 0, _, _, _ => .error .tooDeep
  | bound + 1, level, places, place =>
    let inside := partJson (jsonInside web bound (level + 1) (place :: places))
    let known := places.contains place
    match web.cell place with
    | .set _ => .error .wrongType
    | .list items =>
      if known && !items.isEmpty then .error .wrongValue
      else (items.mapM inside).map (jsonList level)
    | .pair first second =>
      if known then .error .wrongValue else ([first, second].mapM inside).map (jsonList level)
    | .map entries =>
      if known && !entries.isEmpty then .error .wrongValue
      else do
        let texts ← entries.mapM fun (key, value) => do
          let name ← partKey key
          let content ← inside value
          return jsonEntry name content
        return jsonObject level texts

/-- The collection at a place as JSON at a level of nesting. -/
def json (web : Web) (level place : Nat) : Except Fault String :=
  jsonInside web (web.size + 1) level [] place

end Web

/-! ### All values -/

namespace Value

mutual

/-- A value as JSON at a level of nesting. -/
def jsonAt (level : Nat) : Value → Except Fault String
  | list _ items => (jsonItems (level + 1) items).map (jsonList level)
  | pair _ first second => do
    let first ← first.jsonAt (level + 1)
    let second ← second.jsonAt (level + 1)
    return jsonList level [first, second]
  | map _ entries => (jsonEntries (level + 1) entries).map (jsonObject level)
  | knot web place => Web.json web level place
  | other => other.scalarJson

/-- The items of a list as JSON. -/
def jsonItems (level : Nat) : List Value → Except Fault (List String)
  | [] => .ok []
  | item :: rest => do
    let first ← item.jsonAt level
    let others ← jsonItems level rest
    return first :: others

/-- The entries of a mapping as JSON. -/
def jsonEntries (level : Nat) : List (Value × Value) → Except Fault (List String)
  | [] => .ok []
  | (key, value) :: rest => do
    let name ← key.jsonKey
    let content ← value.jsonAt level
    let others ← jsonEntries level rest
    return jsonEntry name content :: others

end

/-- A value as JSON. -/
def json (value : Value) : Except Fault String :=
  value.jsonAt 0

end Value

end Taskbook
