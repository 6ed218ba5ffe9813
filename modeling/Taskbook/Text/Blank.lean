/-
Blank characters and the trimming of text.

A character is blank when Unicode counts it as white space, or when it is one of
the four information separators U+001C to U+001F. This is wider than the blanks of
ASCII: the no-break space, the line and paragraph separators and the ideographic
space all count. Trimming removes blank characters from the ends of a text and
leaves those inside it alone. Around a numeral the information separators do not count
as blank.
-/

namespace Taskbook.Text

/-- White space of any script, together with the information separators. -/
def isBlank (character : Char) : Bool :=
  let code := character.toNat
  (9 ≤ code && code ≤ 13) || (28 ≤ code && code ≤ 32) || code == 0x85 || code == 0xA0 ||
    code == 0x1680 || (0x2000 ≤ code && code ≤ 0x200A) || code == 0x2028 || code == 0x2029 ||
    code == 0x202F || code == 0x205F || code == 0x3000

/-- The characters of a text without the blank ones at its start. -/
def dropBlanks (characters : List Char) : List Char :=
  characters.dropWhile isBlank

/-- The characters of a text without the blank ones at its end. -/
def dropBlanksEnd (characters : List Char) : List Char :=
  (characters.reverse.dropWhile isBlank).reverse

/-- A text without the blank characters at its two ends. -/
def strip (text : String) : String :=
  String.ofList (dropBlanksEnd (dropBlanks text.toList))

/-- A text without the blank characters at its end. -/
def stripEnd (text : String) : String :=
  String.ofList (dropBlanksEnd text.toList)

/-- A text of blank characters only; the empty text is one. -/
def isBlankText (text : String) : Bool :=
  text.toList.all isBlank

/-- The blank octets of ASCII. -/
def isBlankOctet (octet : UInt8) : Bool :=
  (9 ≤ octet && octet ≤ 13) || octet == 32

/-- The blanks that may stand around a numeral: all but the information separators. -/
def isNumeralBlank (character : Char) : Bool :=
  isBlank character && !(28 ≤ character.toNat && character.toNat ≤ 31)

/-- The characters of a numeral without the blanks around it. -/
def numeralOf (text : String) : List Char :=
  ((text.toList.dropWhile isNumeralBlank).reverse.dropWhile isNumeralBlank).reverse

end Taskbook.Text
