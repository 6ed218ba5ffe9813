/-
The letters of a text.

A text is a row of letters. A letter is a character or the half of a UTF-16 pair: the
numbers that UTF-16 keeps for the halves are those of no character, and yet an escape
inside a quoted text can name one of them. A half is written by its escape again, it has
its place in the order of texts, and only where a text is encoded does it fail.

A letter is spelled by characters: a character by itself, and a half by a mark and a
further character that tells which half it is. The mark is the last of all characters, and
where it is meant as a letter it is spelled twice. So every row of letters has one
spelling, and reading the spelling gives the letters back. Lengths, orders and escapes
count letters; whatever looks for characters in ASCII may look at the spelling.
-/

namespace Taskbook.Text

/-- How many halves of UTF-16 pairs there are. -/
abbrev halfCount : Nat := 0x800

/-- A letter of a text. -/
inductive Letter where
  /-- A character. -/
  | plain (character : Char)
  /-- The half of a pair, by its place among all halves. -/
  | half (place : Fin halfCount)
  deriving DecidableEq, Repr

/-- The number of the first half. -/
def firstHalf : Nat := 0xD800

namespace Letter

/-- The number of a letter. -/
def number : Letter → Nat
  | plain character => character.toNat
  | half place => firstHalf + place

/-- The letter of a number below the first one that is no letter's. -/
def ofNumber (number : Nat) : Letter :=
  if inRange : firstHalf ≤ number ∧ number < firstHalf + halfCount then
    half ⟨number - firstHalf, by omega⟩
  else plain (Char.ofNat number)

/-- Whether a letter is the half of a pair. -/
def isHalf : Letter → Bool
  | plain _ => false
  | half _ => true

end Letter

/-! ### Spelling -/

/-- The character in front of what is not spelled by itself. -/
def mark : Char := Char.ofNat 0x10FFFF

/-- The number of the character that stands behind a mark for the first half. -/
def halfBase : Nat := 0xE000

/-- The characters that spell a letter. -/
def spelling : Letter → List Char
  | .plain character => if character = mark then [mark, mark] else [character]
  | .half place => [mark, Char.ofNat (halfBase + place)]

/-- The letter that a character behind a mark stands for. -/
def marked (character : Char) : Letter :=
  if character = mark then .plain mark
  else .half (Fin.ofNat halfCount (character.toNat - halfBase))

/-- The letters that characters spell. -/
def lettersOf : List Char → List Letter
  | [] => []
  | [character] => [.plain character]
  | character :: next :: rest =>
    if character = mark then marked next :: lettersOf rest
    else .plain character :: lettersOf (next :: rest)

/-- The letters of a text. -/
def letters (text : String) : List Letter :=
  lettersOf text.toList

/-- The text of some letters. -/
def ofLetters (letters : List Letter) : String :=
  String.ofList (letters.flatMap spelling)

/-! ### Reading a spelling -/

theorem toNat_halfCharacter (place : Fin halfCount) :
    (Char.ofNat (halfBase + place)).toNat = halfBase + place := by
  have bound : place.val < 0x800 := place.isLt
  have valid : (halfBase + place.val).isValidChar := by
    right
    unfold halfBase
    omega
  rw [Char.ofNat, dif_pos valid]
  rfl

theorem halfCharacter_ne_mark (place : Fin halfCount) :
    Char.ofNat (halfBase + place) ≠ mark := by
  intro same
  have numbers := congrArg Char.toNat same
  have bound : place.val < 0x800 := place.isLt
  rw [toNat_halfCharacter] at numbers
  have last : mark.toNat = 0x10FFFF := by decide
  unfold halfBase at numbers
  omega

/-- A half is told by the character behind its mark. -/
theorem marked_halfCharacter (place : Fin halfCount) :
    marked (Char.ofNat (halfBase + place)) = .half place := by
  unfold marked
  rw [if_neg (halfCharacter_ne_mark place), toNat_halfCharacter, Nat.add_sub_cancel_left]
  exact congrArg Letter.half (Fin.ext (Nat.mod_eq_of_lt place.isLt))

/-- The letter that characters start with is read first. -/
theorem lettersOf_spelling_append (letter : Letter) (rest : List Char) :
    lettersOf (spelling letter ++ rest) = letter :: lettersOf rest := by
  cases letter with
  | half place =>
    simp only [spelling, List.cons_append, List.nil_append, lettersOf, if_pos,
      marked_halfCharacter]
  | plain character =>
    by_cases same : character = mark
    · simp only [spelling, same, if_pos, List.cons_append, List.nil_append, lettersOf, marked]
    · cases rest with
      | nil => simp only [spelling, if_neg same, List.append_nil, lettersOf]
      | cons next others =>
        simp only [spelling, if_neg same, List.cons_append, List.nil_append, lettersOf]

/-- The letters of a text are those that it was made of. -/
theorem letters_ofLetters (row : List Letter) : letters (ofLetters row) = row := by
  unfold letters ofLetters
  rw [String.toList_ofList]
  induction row with
  | nil => rfl
  | cons letter rest inductionHypothesis =>
    rw [List.flatMap_cons, lettersOf_spelling_append, inductionHypothesis]

/-! ### Texts -/

/-- The number of letters of a text. -/
def length (text : String) : Nat :=
  (letters text).length

/-- The first letters of a text. -/
def take (count : Nat) (text : String) : String :=
  ofLetters ((letters text).take count)

/-- The characters that spell some characters. -/
def spelled (characters : List Char) : List Char :=
  characters.flatMap fun character => spelling (.plain character)

/-- A text of characters alone. -/
def ofPlain (text : String) : String :=
  String.ofList (spelled text.toList)

/-- The character of a letter that is one. -/
def Letter.character? : Letter → Option Char
  | plain character => some character
  | half _ => none

/-- The characters of a text, if it has no halves in it. -/
def plain? (text : String) : Option String :=
  ((letters text).mapM Letter.character?).map String.ofList

/-- Whether a text can be encoded: it has no halves in it. -/
def isEncodable (text : String) : Bool :=
  !(letters text).any Letter.isHalf

/-- Whether a text comes before another in the order of the numbers of their letters. -/
def isBefore (first second : String) : Bool :=
  decide ((letters first).map Letter.number < (letters second).map Letter.number)

end Taskbook.Text
