/-
What is read as a decimal integer.

A numeral is digits of any script, perhaps behind a sign, and a single low line may stand between
two of them. Blanks around it do not count. Reading it gives the number that its digits spell, and
no other text is read as a number.
-/

import Mathlib.Data.List.TakeWhile
import Taskbook.Number.Numeral

namespace Taskbook.Number

open Text

/-! ### Digits -/

variable {character : Char} {value : Nat}

/-- A digit is as far behind the first one of its script as its value says. -/
theorem exists_first_of_digit (isDigit : digitValue? character = some value) :
    value < 10 ∧ ∃ first ∈ digitZeros, character.toNat = first + value := by
  rw [digitValue?] at isDigit
  simp only [Bool.and_eq_true, decide_eq_true_eq] at isDigit
  split at isDigit
  · split at isDigit
    next range =>
      obtain rfl := Option.some.inj isDigit
      exact ⟨by omega, 48, by decide, by omega⟩
    next => cases isDigit
  · obtain ⟨first, found, rfl⟩ := Option.map_eq_some_iff.1 isDigit
    have range := List.find?_some found
    simp only [Bool.and_eq_true, decide_eq_true_eq] at range
    exact ⟨by omega, first, List.mem_of_find?_eq_some found, by omega⟩

/-- The digits of a script stand between the blank characters. -/
theorem digitZeros_ranges : ∀ first ∈ digitZeros, first = 48 ∨
    0xA1 ≤ first ∧ first + 10 ≤ 0x1680 ∨ 0x1681 ≤ first ∧ first + 10 ≤ 0x2000 ∨
      0x3001 ≤ first := by
  decide

theorem notBlank_of_digit (isDigit : digitValue? character = some value) :
    isNumeralBlank character = false := by
  obtain ⟨small, first, member, code⟩ := exists_first_of_digit isDigit
  have ranges := digitZeros_ranges first member
  have notBlank : isBlank character = false := by
    simp only [isBlank, Bool.or_eq_false_iff, Bool.and_eq_false_iff, decide_eq_false_iff_not,
      beq_eq_false_iff_ne]
    omega
  rw [isNumeralBlank, notBlank, Bool.false_and]

/-- The letters are no digits in base ten. -/
theorem baseDigitValue?_ten (character : Char) :
    baseDigitValue? 10 character = digitValue? character := by
  rw [baseDigitValue?]
  cases isDigit : digitValue? character with
  | some value =>
    have small := (exists_first_of_digit isDigit).1
    exact Option.filter_some_pos (by simpa using small)
  | none =>
    dsimp only
    split
    next small =>
      rw [Bool.and_eq_true, decide_eq_true_eq] at small
      have least : 97 ≤ character.toNat := small.1
      exact Option.filter_some_neg (by simp; omega)
    next =>
      split
      next capital =>
        rw [Bool.and_eq_true, decide_eq_true_eq] at capital
        have least : 65 ≤ character.toNat := capital.1
        exact Option.filter_some_neg (by simp; omega)
      next => rfl

/-! ### Rows of digits -/

/-- Characters that continue a row of digits, with the values of the digits: single low lines may
stand before them. -/
inductive IsRow : List Char → List Nat → Prop where
  | nil : IsRow [] []
  | digit {character : Char} {value : Nat} {characters : List Char} {values : List Nat}
      (isDigit : digitValue? character = some value) (rest : IsRow characters values) :
      IsRow (character :: characters) (value :: values)
  | spaced {character : Char} {value : Nat} {characters : List Char} {values : List Nat}
      (isDigit : digitValue? character = some value) (rest : IsRow characters values) :
      IsRow ('_' :: character :: characters) (value :: values)

variable {characters : List Char} {values : List Nat}

/-- There are as many digits as there are characters that are not low lines. -/
theorem IsRow.length_filter (isRow : IsRow characters values) :
    (characters.filter (· ≠ '_')).length = values.length := by
  have visible {character : Char} {value : Nat} (isDigit : digitValue? character = some value) :
      character ≠ '_' := by
    rintro rfl
    cases isDigit
  induction isRow with
  | nil => rfl
  | digit isDigit rest inductionHypothesis =>
    rw [List.filter_cons_of_pos (by simpa using visible isDigit), List.length_cons,
      inductionHypothesis, List.length_cons]
  | spaced isDigit rest inductionHypothesis =>
    rw [List.filter_cons_of_neg (by simp), List.filter_cons_of_pos (by simpa using visible isDigit),
      List.length_cons, inductionHypothesis, List.length_cons]

theorem isRow_nil_iff : IsRow [] values ↔ values = [] := by
  constructor
  · rintro ⟨⟩
    rfl
  · rintro rfl
    exact .nil

/-- Behind a low line a row goes on with a digit. -/
theorem isRow_spaced_iff : IsRow ('_' :: character :: characters) values ↔
    ∃ value rest, digitValue? character = some value ∧ IsRow characters rest ∧
      values = value :: rest := by
  constructor
  · rintro (_ | ⟨isDigit, -⟩ | ⟨isDigit, rest⟩)
    · cases isDigit
    · exact ⟨_, _, isDigit, rest, rfl⟩
  · rintro ⟨value, rest, isDigit, isRow, rfl⟩
    exact .spaced isDigit isRow

/-- Where it does not go on with a low line and something behind it, it goes on with a digit. -/
theorem isRow_cons_iff
    (notSpaced : ∀ next others, character = '_' → characters = next :: others → False) :
    IsRow (character :: characters) values ↔
      ∃ value rest, digitValue? character = some value ∧ IsRow characters rest ∧
        values = value :: rest := by
  constructor
  · rintro (_ | ⟨isDigit, rest⟩ | ⟨isDigit, rest⟩)
    · exact ⟨_, _, isDigit, rest, rfl⟩
    · exact (notSpaced _ _ rfl rfl).elim
  · rintro ⟨value, rest, isDigit, isRow, rfl⟩
    exact .digit isDigit isRow

/-- What the digits of a row spell that stands behind others. -/
def spelledFrom (total : Nat) (digits : List Nat) : Nat :=
  digits.foldl (fun total digit => total * 10 + digit) total

/-- Where a row goes on with a digit, what it spells is what is spelled from that digit on. -/
theorem exists_row_iff {row : List Char} (isDigit : digitValue? character = some value)
    (goesOn : ∀ values, IsRow row values ↔ ∃ value rest, digitValue? character = some value ∧
      IsRow characters rest ∧ values = value :: rest) (total number : Nat) :
    (∃ values, IsRow row values ∧ number = spelledFrom total values) ↔
      ∃ values, IsRow characters values ∧ number = spelledFrom (total * 10 + value) values := by
  constructor
  · rintro ⟨values, isRow, spelled⟩
    obtain ⟨other, rest, also, restIsRow, rfl⟩ := (goesOn values).1 isRow
    obtain rfl := Option.some.inj (isDigit.symm.trans also)
    exact ⟨rest, restIsRow, spelled⟩
  · rintro ⟨rest, restIsRow, spelled⟩
    exact ⟨value :: rest, (goesOn _).2 ⟨value, rest, isDigit, restIsRow, rfl⟩, spelled⟩

/-- A row is read digit by digit. -/
theorem ofBaseDigits?_ten (total number : Nat) (characters : List Char) :
    ofBaseDigits? 10 total characters = some number ↔
      ∃ values, IsRow characters values ∧ number = spelledFrom total values := by
  -- The cases are those of the reader: the end, a low line with something behind it, and any other
  -- character, the latter two with a digit or with none.
  induction total, characters using ofBaseDigits?.induct 10 with
  | case1 total =>
    simp only [ofBaseDigits?, isRow_nil_iff, exists_eq_left, Option.some.injEq]
    exact eq_comm
  | case2 total character rest digit isDigit inductionHypothesis =>
    rw [ofBaseDigits?, isDigit]
    rw [baseDigitValue?_ten] at isDigit
    exact inductionHypothesis.trans (exists_row_iff isDigit (fun _ => isRow_spaced_iff) _ _).symm
  | case3 total character rest noDigit =>
    rw [ofBaseDigits?, noDigit]
    rw [baseDigitValue?_ten] at noDigit
    simp [isRow_spaced_iff, noDigit]
  | case4 total character rest notSpaced digit isDigit inductionHypothesis =>
    rw [ofBaseDigits?, isDigit]
    · rw [baseDigitValue?_ten] at isDigit
      exact inductionHypothesis.trans
        (exists_row_iff isDigit (fun _ => isRow_cons_iff notSpaced) _ _).symm
    · exact notSpaced
  | case5 total character rest notSpaced noDigit =>
    rw [ofBaseDigits?, noDigit]
    · rw [baseDigitValue?_ten] at noDigit
      simp [isRow_cons_iff notSpaced, noDigit]
    · exact notSpaced

/-! ### Numerals -/

/-- A sign, and whether it makes a number negative. -/
inductive IsSign : List Char → Bool → Prop where
  | none : IsSign [] false
  | plus : IsSign ['+'] false
  | minus : IsSign ['-'] true

/-- Characters without a sign before them that spell digits. -/
inductive IsUnsigned : List Char → List Nat → Prop where
  | digits {character : Char} {value : Nat} {characters : List Char} {values : List Nat}
      (isDigit : digitValue? character = some value) (rest : IsRow characters values) :
      IsUnsigned (character :: characters) (value :: values)

/-- A number with its sign. -/
def signed (negative : Bool) (size : Nat) : Int :=
  if negative then -(size : Int) else size

/-- A text denotes an integer: a sign, perhaps, and digits that spell it, which are not too many
to be read, with blanks around them. -/
inductive Denotes (text : String) : Int → Prop where
  | intro {before sign numeral after : List Char} {negative : Bool} {digits : List Nat}
      (whole : text.toList = before ++ (sign ++ numeral) ++ after)
      (beforeBlank : ∀ character ∈ before, isNumeralBlank character = true)
      (afterBlank : ∀ character ∈ after, isNumeralBlank character = true)
      (isSign : IsSign sign negative) (isUnsigned : IsUnsigned numeral digits)
      (few : digits.length ≤ digitLimit) :
      Denotes text (signed negative (ofDigits digits))

/-- What is left of a text without the blanks around it. -/
theorem exists_numeralOf (text : String) : ∃ before after,
    text.toList = before ++ numeralOf text ++ after ∧
      (∀ character ∈ before, isNumeralBlank character = true) ∧
      ∀ character ∈ after, isNumeralBlank character = true := by
  refine ⟨text.toList.takeWhile isNumeralBlank,
    ((text.toList.dropWhile isNumeralBlank).reverse.takeWhile isNumeralBlank).reverse, ?_, ?_, ?_⟩
  · rw [numeralOf, List.append_assoc, ← List.reverse_append, List.takeWhile_append_dropWhile,
      List.reverse_reverse, List.takeWhile_append_dropWhile]
  · exact fun character member => List.mem_takeWhile_imp member
  · exact fun character member => List.mem_takeWhile_imp (List.mem_reverse.1 member)

/-- Only the blanks around a numeral are left away if its ends are not blank. -/
theorem numeralOf_eq {text : String} {before middle after : List Char}
    (whole : text.toList = before ++ middle ++ after)
    (beforeBlank : ∀ character ∈ before, isNumeralBlank character = true)
    (afterBlank : ∀ character ∈ after, isNumeralBlank character = true)
    (startsSolid : middle.dropWhile isNumeralBlank = middle)
    (endsSolid : middle.reverse.dropWhile isNumeralBlank = middle.reverse) :
    numeralOf text = middle := by
  have left : (text.toList.dropWhile isNumeralBlank).reverse.dropWhile isNumeralBlank =
      middle.reverse := by
    rw [whole, List.append_assoc, List.dropWhile_append_of_pos beforeBlank, List.dropWhile_append,
      startsSolid]
    split
    next empty =>
      rw [List.isEmpty_iff.1 empty, List.dropWhile_eq_nil_iff.2 afterBlank]
      rfl
    next =>
      rw [List.reverse_append, List.dropWhile_append_of_pos, endsSolid]
      exact fun character member => afterBlank character (List.mem_reverse.1 member)
  rw [numeralOf, left, List.reverse_reverse]

variable {sign numeral : List Char} {negative : Bool} {digits : List Nat}

/-- A row of digits ends in one. -/
theorem IsUnsigned.exists_last (isUnsigned : IsUnsigned numeral digits) :
    ∃ others last value, numeral = others ++ [last] ∧ digitValue? last = some value := by
  obtain ⟨isDigit, rest⟩ := isUnsigned
  rename_i first firstValue characters values
  induction rest generalizing first firstValue with
  | nil => exact ⟨[], first, firstValue, rfl, isDigit⟩
  | digit nextDigit rest inductionHypothesis =>
    obtain ⟨others, last, value, whole, lastDigit⟩ := inductionHypothesis nextDigit
    exact ⟨first :: others, last, value, congrArg (first :: ·) whole, lastDigit⟩
  | spaced nextDigit rest inductionHypothesis =>
    obtain ⟨others, last, value, whole, lastDigit⟩ := inductionHypothesis nextDigit
    exact ⟨first :: '_' :: others, last, value, congrArg (first :: '_' :: ·) whole, lastDigit⟩

theorem IsSign.dropWhile_eq (isSign : IsSign sign negative)
    (isUnsigned : IsUnsigned numeral digits) :
    (sign ++ numeral).dropWhile isNumeralBlank = sign ++ numeral := by
  obtain ⟨isDigit, -⟩ := isUnsigned
  cases isSign with
  | none => exact List.dropWhile_cons_of_neg (by simp [notBlank_of_digit isDigit])
  | plus => exact List.dropWhile_cons_of_neg (by decide)
  | minus => exact List.dropWhile_cons_of_neg (by decide)

theorem IsUnsigned.dropWhile_reverse_eq (isUnsigned : IsUnsigned numeral digits)
    (sign : List Char) : (sign ++ numeral).reverse.dropWhile isNumeralBlank =
      (sign ++ numeral).reverse := by
  obtain ⟨others, last, value, rfl, lastDigit⟩ := isUnsigned.exists_last
  rw [← List.append_assoc, List.reverse_concat]
  exact List.dropWhile_cons_of_neg (by simp [notBlank_of_digit lastDigit])

theorem IsSign.takeSign_eq (isSign : IsSign sign negative)
    (isUnsigned : IsUnsigned numeral digits) :
    takeSign (sign ++ numeral) = (negative, numeral) := by
  obtain ⟨isDigit, -⟩ := isUnsigned
  cases isSign with
  | none =>
    rw [List.nil_append, takeSign]
    · rintro rest same
      obtain ⟨rfl, -⟩ := List.cons.inj same
      cases isDigit
    · rintro rest same
      obtain ⟨rfl, -⟩ := List.cons.inj same
      cases isDigit
  | plus => rfl
  | minus => rfl

theorem exists_sign (characters : List Char) : ∃ sign,
    IsSign sign (takeSign characters).1 ∧ characters = sign ++ (takeSign characters).2 := by
  unfold takeSign
  split
  · exact ⟨_, .minus, rfl⟩
  · exact ⟨_, .plus, rfl⟩
  · exact ⟨_, .none, rfl⟩

/-- What is read of a numeral behind its sign. -/
def readUnsigned? (numeral : List Char) : Option Nat :=
  match numeral with
  | [] => none
  | first :: rest =>
    if (numeral.filter (· ≠ '_')).length > digitLimit then none
    else
      match baseDigitValue? 10 first with
      | none => none
      | some digit => ofBaseDigits? 10 digit rest

/-- Nothing marks base ten. -/
theorem unmarked_ten (numeral : List Char) : unmarked 10 numeral = numeral := by
  unfold unmarked
  split <;> rfl

theorem readInt?_ten_eq (text : String) :
    readInt? 10 text = (readUnsigned? (takeSign (numeralOf text)).2).map
      (signed (takeSign (numeralOf text)).1) := by
  rw [readInt?]
  generalize takeSign (numeralOf text) = parts
  obtain ⟨negative, numeral⟩ := parts
  dsimp only
  rw [unmarked_ten]
  cases numeral with
  | nil => rfl
  | cons first rest =>
    rw [readUnsigned?]
    dsimp only
    rw [decide_eq_true rfl, Bool.true_and]
    simp only [decide_eq_true_eq]
    split
    · rfl
    · cases baseDigitValue? 10 first with
      | none => rfl
      | some digit =>
        dsimp only
        cases ofBaseDigits? 10 digit rest <;> rfl

theorem ofDigits_cons (digit : Nat) (digits : List Nat) :
    ofDigits (digit :: digits) = spelledFrom digit digits := by
  rw [ofDigits, List.foldl_cons, Nat.zero_mul, Nat.zero_add]
  rfl

/-- Behind a sign the digits are read, unless there are too many of them. -/
theorem readUnsigned?_eq_some {size : Nat} :
    readUnsigned? numeral = some size ↔
      ∃ digits, IsUnsigned numeral digits ∧ digits.length ≤ digitLimit ∧
        size = ofDigits digits := by
  cases numeral with
  | nil =>
    refine iff_of_false (by simp [readUnsigned?]) ?_
    rintro ⟨digits, ⟨⟩, -⟩
  | cons first rest =>
    rw [readUnsigned?, baseDigitValue?_ten]
    constructor
    · intro isRead
      split at isRead
      next => cases isRead
      next few =>
        cases isDigit : digitValue? first with
        | none =>
          rw [isDigit] at isRead
          cases isRead
        | some digit =>
          rw [isDigit] at isRead
          obtain ⟨values, isRow, spelled⟩ := (ofBaseDigits?_ten digit size rest).1 isRead
          rw [(IsRow.digit isDigit isRow).length_filter] at few
          exact ⟨_, .digits isDigit isRow, by omega, spelled.trans (ofDigits_cons _ _).symm⟩
    · rintro ⟨_, ⟨isDigit, isRow⟩, few, rfl⟩
      rw [if_neg, isDigit, ofDigits_cons]
      · exact (ofBaseDigits?_ten _ _ rest).2 ⟨_, isRow, rfl⟩
      · rw [(IsRow.digit isDigit isRow).length_filter]
        omega

/-- A decimal integer is read exactly of a text that denotes it. -/
theorem readInt?_ten (text : String) (number : Int) :
    readInt? 10 text = some number ↔ Denotes text number := by
  rw [readInt?_ten_eq, Option.map_eq_some_iff]
  constructor
  · rintro ⟨size, isRead, rfl⟩
    obtain ⟨digits, isUnsigned, few, rfl⟩ := readUnsigned?_eq_some.1 isRead
    obtain ⟨before, after, whole, beforeBlank, afterBlank⟩ := exists_numeralOf text
    obtain ⟨sign, isSign, parts⟩ := exists_sign (numeralOf text)
    rw [parts] at whole
    exact .intro whole beforeBlank afterBlank isSign isUnsigned few
  · rintro ⟨whole, beforeBlank, afterBlank, isSign, isUnsigned, few⟩
    rw [numeralOf_eq whole beforeBlank afterBlank (isSign.dropWhile_eq isUnsigned)
      (isUnsigned.dropWhile_reverse_eq _), isSign.takeSign_eq isUnsigned]
    exact ⟨_, readUnsigned?_eq_some.2 ⟨_, isUnsigned, few, rfl⟩, rfl⟩

example : readInt? 10 " +1_٠\t" = some 10 := by decide +kernel

end Taskbook.Number
