/-
Capital forms that are spelled with the letters A to Z.

Names that are compared without regard to case are compared by their capitals. The
capital form of a character may be several characters long (the ligature `ﬆ` has the
capitals `ST`), and some letters outside ASCII have a capital inside it (the long `ſ`,
the dotless `ı`). A character whose capital form is not spelled in ASCII is kept as it
is: it cannot equal any of the capitals that names are compared with.
-/

namespace Taskbook.Text

/-- The capital form of a character where it is spelled with A to Z, else the character. -/
def capitals (character : Char) : List Char :=
  match character with
  | 'ß' => ['S', 'S']
  | 'ı' => ['I']
  | 'ſ' => ['S']
  | 'ﬀ' => ['F', 'F']
  | 'ﬁ' => ['F', 'I']
  | 'ﬂ' => ['F', 'L']
  | 'ﬃ' => ['F', 'F', 'I']
  | 'ﬄ' => ['F', 'F', 'L']
  | 'ﬅ' => ['S', 'T']
  | 'ﬆ' => ['S', 'T']
  | other => [other.toUpper]

/-- A text in capitals, as far as they are spelled in ASCII. -/
def capitalize (text : String) : String :=
  String.ofList (text.toList.flatMap capitals)

end Taskbook.Text
