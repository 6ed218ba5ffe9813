/-
The characters that YAML gives a meaning to.

A line ends at a line feed, a carriage return, a next-line character, or a line or
paragraph separator. Of the other white space only the blank and the tab count.
-/

namespace Taskbook.Yaml

def nextLine : Char := Char.ofNat 0x85

def lineSeparator : Char := Char.ofNat 0x2028

def paragraphSeparator : Char := Char.ofNat 0x2029

def byteOrderMark : Char := Char.ofNat 0xFEFF

/-- Line ends in data: a carriage return is not one of them. -/
def isDataBreak (character : Char) : Bool :=
  character = '\n' || character = nextLine || character = lineSeparator ||
    character = paragraphSeparator

/-- Line ends in a text that is read. -/
def isBreak (character : Char) : Bool :=
  character = '\r' || isDataBreak character

/-- A blank or a tab. -/
def isSpace (character : Char) : Bool :=
  character = ' ' || character = '\t'

/-- The characters that may follow a token, the end of the text aside. -/
def isSpaceOrBreak (character : Char) : Bool :=
  isSpace character || isBreak character

/-- Whether a text is over or goes on with white space. -/
def endsWord : List Char → Bool
  | [] => true
  | character :: _ => isSpaceOrBreak character

/-- Whether a text is over or goes on with a line end. -/
def endsLine : List Char → Bool
  | [] => true
  | character :: _ => isBreak character

/-- Whether a text is over or goes on with a blank or a line end. -/
def endsEntry : List Char → Bool
  | [] => true
  | character :: _ => character = ' ' || isBreak character

def isDecimal (character : Char) : Bool :=
  '0' ≤ character && character ≤ '9'

/-- The value of a hexadecimal digit. -/
def hexValue? (character : Char) : Option Nat :=
  if isDecimal character then some (character.toNat - 48)
  else if 'a' ≤ character && character ≤ 'f' then some (character.toNat - 87)
  else if 'A' ≤ character && character ≤ 'F' then some (character.toNat - 55)
  else none

/-- The characters of names: of anchors, directives and tag handles. -/
def isNameCharacter (character : Char) : Bool :=
  isDecimal character || ('a' ≤ character && character ≤ 'z') ||
    ('A' ≤ character && character ≤ 'Z') || character = '-' || character = '_'

/-- The characters that a text may hold at all: no controls other than tab and line ends. -/
def isAllowed (character : Char) : Bool :=
  let code := character.toNat
  code = 9 || code = 10 || code = 13 || (0x20 ≤ code && code ≤ 0x7E) || code = 0x85 ||
    (0xA0 ≤ code && code ≤ 0xFFFD) || 0x10000 ≤ code

/-- The pieces of a text between the places where a character stands. -/
def pieces (separator : Char) : List Char → List (List Char)
  | [] => [[]]
  | character :: rest =>
    if character = separator then [] :: pieces separator rest
    else
      match pieces separator rest with
      | [] => [[character]]
      | first :: others => (character :: first) :: others

end Taskbook.Yaml
