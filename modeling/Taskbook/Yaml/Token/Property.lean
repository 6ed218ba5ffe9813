/-
Names, tags and directives.

An anchor or an alias is a mark and a name. A tag is a name in angle brackets, or a
handle and a suffix; the suffix may escape octets by a percent sign. A directive stands
on a line of its own before a document: it gives the version of the text or the
beginning of the tags of a handle.
-/

import Taskbook.Number.Numeral
import Taskbook.Yaml.Token.Line

namespace Taskbook.Yaml

/-- The marks that may follow a name. -/
def endsName (text : List Char) : Bool :=
  endsWord text || match text with
    | [] => true
    | character :: _ => "?:,]\x7d%@\x60".toList.contains character

/-- The name of an anchor or an alias, after its mark. -/
def anchorName? (text : List Char) : Option (String × List Char) :=
  let name := text.takeWhile isNameCharacter
  let rest := text.dropWhile isNameCharacter
  if !name.isEmpty && endsName rest then some (String.ofList name, rest) else none

/-! ### Tags -/

/-- The characters of tags. -/
def isTagCharacter (character : Char) : Bool :=
  isNameCharacter character || ";/?:@&=+$,_.!~*()[]%".toList.contains character ||
    character = Char.ofNat 39

/-- Octets that are escaped one after the other, and the rest. -/
def tagOctets : Nat → List Char → Option (List UInt8 × List Char)
  | 0, text => some ([], text)
  | bound + 1, text =>
    match text with
    | '%' :: rest =>
      match hexNumber 2 0 rest with
      | none => none
      | some (code, rest) =>
        (tagOctets bound rest).map fun (octets, rest) => (UInt8.ofNat code :: octets, rest)
    | _ => some ([], text)
where
  /-- The number that a fixed count of hexadecimal digits spells, and the rest. -/
  hexNumber : Nat → Nat → List Char → Option (Nat × List Char)
    | 0, total, rest => some (total, rest)
    | count + 1, total, digit :: rest =>
      match hexValue? digit with
      | some value => hexNumber count (total * 16 + value) rest
      | none => none
    | _ + 1, _, [] => none

/-- The characters of a tag, its escapes read as text, and the rest. The first argument bounds
their number. -/
def tagText : Nat → List Char → Option (List Char × List Char)
  | 0, text => some ([], text)
  | bound + 1, text =>
    match text with
    | [] => some ([], [])
    | '%' :: _ =>
      match tagOctets (text.length + 1) text with
      | none => none
      | some (octets, rest) =>
        match String.fromUTF8? ⟨octets.toArray⟩ with
        | none => none
        | some escaped =>
          (tagText bound rest).map fun (others, rest) => (escaped.toList ++ others, rest)
    | character :: rest =>
      if isTagCharacter character then
        (tagText bound rest).map fun (others, rest) => (character :: others, rest)
      else some ([], text)

/-- At least one character of a tag, and the rest. -/
def tagSuffix? (text : List Char) : Option (String × List Char) :=
  match tagText (text.length + 1) text with
  | none => none
  | some (suffix, rest) =>
    if rest.length = text.length then none else some (String.ofList suffix, rest)

/-- A handle: an exclamation mark, or a name between two of them. -/
def tagHandle? (text : List Char) : Option (String × List Char) :=
  match text with
  | '!' :: rest =>
    if rest.head? = some ' ' then some ("!", rest)
    else
      let name := rest.takeWhile isNameCharacter
      match rest.dropWhile isNameCharacter with
      | '!' :: further => some (String.ofList ('!' :: name ++ ['!']), further)
      | _ => none
  | _ => none

/-- Whether an exclamation mark stands in a word. -/
def hasHandle (text : List Char) : Bool :=
  (text.takeWhile fun character => !(character = ' ' || isBreak character)).contains '!'

/-- A tag after its first exclamation mark: its handle, its suffix, and what follows. -/
def tagProperty? (text : List Char) : Option (Option String × String × List Char) := do
  let (handle, suffix, rest) ← match text with
    | '<' :: inner =>
      match tagSuffix? inner with
      | some (name, '>' :: rest) => some (none, name, rest)
      | _ => none
    | _ =>
      if endsWord text then some (none, "!", text)
      else if hasHandle text then
        match tagHandle? ('!' :: text) with
        | some (handle, rest) =>
          (tagSuffix? rest).map fun (suffix, rest) => (some handle, suffix, rest)
        | none => none
      else (tagSuffix? text).map fun (suffix, rest) => (some "!", suffix, rest)
  if endsEntry rest then some (handle, suffix, rest) else none

/-! ### Directives -/

/-- A part of a text that must be there. -/
def wellFormed {α : Type} (part? : Option α) : Except ReadError α :=
  match part? with
  | some part => .ok part
  | none => .error .malformed

/-- A number of at least one digit, and the rest. A number of too many digits is a fault. -/
def versionNumber (text : List Char) : Except ReadError (Nat × List Char) :=
  let digits := text.takeWhile isDecimal
  if digits.isEmpty then .error .malformed
  else
    match Number.readInt? 10 (String.ofList digits) with
    | some number => .ok (number.toNat, text.dropWhile isDecimal)
    | none => .error (.fault .wrongValue)

/-- The version that a directive gives: two numbers with a point between them, of which the
first one counts. -/
def versionValue (text : List Char) : Except ReadError (Directive × List Char) := do
  let (major, rest) ← versionNumber (text.dropWhile (· = ' '))
  match rest with
  | '.' :: rest =>
    let (_, rest) ← versionNumber rest
    if endsEntry rest then return (.version major, rest) else throw .malformed
  | _ => throw .malformed

/-- The handle that a directive declares, with the beginning of its tags. -/
def handleValue? (text : List Char) : Option (Directive × List Char) := do
  let (handle, rest) ← tagHandle? (text.dropWhile (· = ' '))
  if rest.head? ≠ some ' ' then none
  let (beginning, rest) ← tagSuffix? (rest.dropWhile (· = ' '))
  if endsEntry rest then some (.handle handle beginning, rest) else none

/-- What the directive of a name says. -/
def directiveValue (name : String) (text : List Char) :
    Except ReadError (Directive × List Char) :=
  if name = "YAML" then versionValue text
  else if name = "TAG" then wellFormed (handleValue? text)
  else .ok (.other, text.dropWhile fun character => !isBreak character)

/-- A directive after its percent sign, with the rest of its line. -/
def directiveAfterMark (text : List Char) : Except ReadError (Directive × List Char) := do
  let name := text.takeWhile isNameCharacter
  let rest := text.dropWhile isNameCharacter
  if name.isEmpty || !endsEntry rest then throw .malformed
  let (directive, rest) ← directiveValue (String.ofList name) rest
  let rest ← wellFormed (restOfLine? rest)
  return (directive, rest)

end Taskbook.Yaml
