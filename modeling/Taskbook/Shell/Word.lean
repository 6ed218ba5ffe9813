/-
Texts as single words of the shell.

A text of characters that mean nothing to the shell is a word as it stands. Any other
is put between single quotes, inside which nothing but the single quote itself means
anything; that one is put between double quotes of its own.
-/

import Taskbook.Names
import Taskbook.Value.Literal

namespace Taskbook.Shell

/-- Characters that mean nothing to the shell wherever they stand in a word. -/
def isPlain (character : Char) : Bool :=
  isLetter character || isDigit character || "_@%+=:,./-".toList.contains character

/-- A character inside single quotes. A single quote closes them, stands between double quotes,
and opens them again. -/
def wordCharacter (character : Char) : List Char :=
  if character = singleQuote then
    [singleQuote, doubleQuote, singleQuote, doubleQuote, singleQuote]
  else [character]

/-- A text as one word of the shell. -/
def word (text : String) : String :=
  let characters := text.toList
  if characters.isEmpty then String.ofList [singleQuote, singleQuote]
  else if characters.all isPlain then text
  else String.ofList (singleQuote :: characters.flatMap wordCharacter ++ [singleQuote])

end Taskbook.Shell
