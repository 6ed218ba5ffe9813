/-
Block scalars: literal and folded.

After a bar the lines of a scalar are kept, after an angle bracket line ends between
lines of text are folded. The first line of text sets the column of the scalar unless a
digit after the mark does. A hyphen after the mark drops the line end of the last line,
a plus sign keeps all line ends at the end; without either, one is kept.
-/

import Taskbook.Yaml.Token.Line

namespace Taskbook.Yaml

/-- What becomes of the line ends at the end of a block scalar. -/
inductive Chomping where
  | clip
  | drop
  | keep
  deriving DecidableEq, Repr

/-- The marks after the bar or the angle bracket. -/
structure BlockHeader where
  chomping : Chomping
  increment : Option Nat
  rest : List Char

/-- A hyphen or a plus sign. -/
def chomping? : List Char → Option (Chomping × List Char)
  | '-' :: rest => some (.drop, rest)
  | '+' :: rest => some (.keep, rest)
  | _ => none

/-- A digit other than zero; zero is refused. -/
def increment? : List Char → Except ReadError (Option Nat × List Char)
  | digit :: rest =>
    if digit = '0' then .error .malformed
    else if isDecimal digit then .ok (some (digit.toNat - 48), rest)
    else .ok (none, digit :: rest)
  | [] => .ok (none, [])

/-- The marks after the bar or the angle bracket, in either order. -/
def blockHeader (text : List Char) : Except ReadError BlockHeader := do
  match chomping? text with
  | some (chomping, rest) =>
    let (increment, rest) ← increment? rest
    return ⟨chomping, increment, rest⟩
  | none =>
    let (increment, rest) ← increment? text
    match increment with
    | none => return ⟨.clip, none, rest⟩
    | some _ =>
      match chomping? rest with
      | some (chomping, rest) => return ⟨chomping, increment, rest⟩
      | none => return ⟨.clip, increment, rest⟩

/-- Empty lines in front of a block scalar, with the column reached after them. -/
structure Margin where
  breaks : List Char
  rest : List Char
  column : Nat
  widest : Nat

/-- Line ends and blanks in front of the first line of text. The widest line of blanks counts
for the column of the scalar. The first argument bounds their number. -/
def margin : Nat → List Char → Nat → Nat → Margin
  | 0, text, column, widest => ⟨[], text, column, widest⟩
  | bound + 1, text, column, widest =>
    match text with
    | ' ' :: rest => margin bound rest (column + 1) (max widest (column + 1))
    | _ =>
      match lineBreak? text with
      | none => ⟨[], text, column, widest⟩
      | some (character, rest) =>
        let others := margin bound rest 0 widest
        { others with breaks := character :: others.breaks }

/-- Line ends and the blanks up to a column in front of a line of text. The first argument
bounds the number of line ends. -/
def blockBreaks (indent : Nat) : Nat → List Char → Margin
  | 0, text => ⟨[], text, 0, 0⟩
  | bound + 1, text =>
    let blanks := min indent (text.takeWhile (· = ' ')).length
    let afterBlanks := text.drop blanks
    match lineBreak? afterBlanks with
    | none => ⟨[], afterBlanks, blanks, 0⟩
    | some (character, rest) =>
      let others := blockBreaks indent bound rest
      { others with breaks := character :: others.breaks }

/-- The lines of a block scalar: their text, the last line end, the line ends after it, and what
follows. -/
structure BlockLines where
  text : List Char
  last : List Char
  breaks : List Char
  rest : List Char

/-- How the line end between two lines of text is read. -/
def betweenLines (folded : Bool) (line : List Char) (ending breaks next : List Char) : List Char :=
  let startsWithSpace := fun (text : List Char) => match text with
    | [] => false
    | character :: _ => isSpace character
  if folded && ending = ['\n'] && !startsWithSpace line && !startsWithSpace next then
    if breaks.isEmpty then [' '] else []
  else ending

/-- The lines of text of a block scalar, from the end of the blanks in front of one. The first
argument bounds their number. -/
def blockLines (folded : Bool) (indent : Nat) : Nat → Margin → BlockLines
  | 0, before => ⟨[], [], before.breaks, before.rest⟩
  | bound + 1, before =>
    if before.column = indent && !before.rest.isEmpty then
      let line := before.rest.takeWhile fun character => !isBreak character
      let afterLine := before.rest.dropWhile fun character => !isBreak character
      let (ending, rest) := match lineBreak? afterLine with
        | some (character, rest) => ([character], rest)
        | none => ([], afterLine)
      let after := blockBreaks indent (bound + 1) rest
      if after.column = indent && !after.rest.isEmpty then
        let others := blockLines folded indent bound after
        let joint := betweenLines folded line ending after.breaks after.rest
        { others with text := before.breaks ++ line ++ joint ++ others.text }
      else ⟨before.breaks ++ line, ending, after.breaks, after.rest⟩
    else ⟨[], [], before.breaks, before.rest⟩

/-- A block scalar after its bar or angle bracket, inside a block of a given column. The first
argument bounds the number of characters in it. -/
def blockScalar (bound : Nat) (folded : Bool) (indent : Int) (text : List Char) :
    Except ReadError (List Char × List Char) := do
  let header ← blockHeader text
  if !endsEntry header.rest then throw .malformed
  match restOfLine? header.rest with
  | none => throw .malformed
  | some body =>
    let least := max 1 (indent + 1).toNat
    let (column, before) := match header.increment with
      | none =>
        let before := margin bound body 0 0
        (max least before.widest, before)
      | some increment =>
        let column := least + increment - 1
        (column, blockBreaks column bound body)
    let lines := blockLines folded column bound before
    let ending := match header.chomping with
      | .drop => []
      | .clip => lines.last
      | .keep => lines.last ++ lines.breaks
    return (lines.text ++ ending, lines.rest)

end Taskbook.Yaml
