/-
Texts between double quotes are read as they were written.

An escape is read as the letter that it was made for. A line is broken behind a backslash, and a
blank at the start of the next line stands behind another one, so that it is not taken for
indentation. That blank is not put on yet another line, since the column of a text is far enough
from the end of a line.
-/

import Mathlib.Data.Nat.Digits.Defs
import Taskbook.Proofs.Yaml.Quoting

namespace Taskbook.Yaml

open Sheet (blanks written)

/-! ### Hexadecimal numbers -/

/-- The number that hexadecimal digits go on with. -/
def hexFrom (total : Nat) (digits : List Char) : Nat :=
  digits.foldl (fun total digit => total * 16 + (hexValue? digit).getD 0) total

theorem hexNumber?_append {digits : List Char}
    (hexadecimal : ∀ digit ∈ digits, (hexValue? digit).isSome = true) (total : Nat)
    (rest : List Char) :
    hexNumber? digits.length total (digits ++ rest) = some (hexFrom total digits, rest) := by
  induction digits generalizing total with
  | nil => rfl
  | cons digit others inductionHypothesis =>
    obtain ⟨value, valued⟩ := Option.isSome_iff_exists.mp (hexadecimal digit List.mem_cons_self)
    rw [List.length_cons, List.cons_append, hexNumber?, valued]
    dsimp only
    rw [inductionHypothesis fun other member => hexadecimal other (List.mem_cons_of_mem _ member),
      hexFrom, hexFrom, List.foldl_cons, valued]
    rfl

theorem hexValue?_digitChar {digit : Nat} (small : digit < 16) :
    hexValue? (Nat.digitChar digit).toUpper = some digit := by
  have all : ∀ digit : Fin 16, hexValue? (Nat.digitChar digit).toUpper = some digit.val := by
    decide
  exact all ⟨digit, small⟩

/-- The digits of a number in capital letters. -/
theorem hexFrom_toDigits (number : Nat) :
    (∀ digit ∈ (Nat.toDigits 16 number).map Char.toUpper, (hexValue? digit).isSome = true) ∧
      hexFrom 0 ((Nat.toDigits 16 number).map Char.toUpper) = number := by
  induction number using Nat.strong_induction_on with
  | _ number inductionHypothesis =>
    have last := hexValue?_digitChar (Nat.mod_lt number (by decide : 16 > 0))
    rcases Nat.lt_or_ge number 16 with small | large
    · rw [Nat.toDigits_of_lt_base small, List.map_singleton]
      rw [Nat.mod_eq_of_lt small] at last
      refine ⟨fun digit member => ?_, ?_⟩
      · rw [List.mem_singleton.mp member, last]
        rfl
      · rw [hexFrom, List.foldl_cons, List.foldl_nil, last]
        simp
    · obtain ⟨hexadecimal, valued⟩ := inductionHypothesis (number / 16) (by omega)
      rw [Nat.toDigits_of_base_le (by decide) large, List.map_append, List.map_singleton]
      refine ⟨fun digit member => ?_, ?_⟩
      · rcases List.mem_append.mp member with front | back
        · exact hexadecimal digit front
        · rw [List.mem_singleton.mp back, last]
          rfl
      · rw [hexFrom] at valued
        rw [hexFrom, List.foldl_append, valued, List.foldl_cons, List.foldl_nil, last]
        simp only [Option.getD_some]
        omega

/-- A number that was written with a fixed count of digits is read back. -/
theorem hexNumber?_upperHex {width number : Nat} (small : number < 16 ^ width) (some : 0 < width)
    (rest : List Char) :
    hexNumber? width 0 (upperHex width number ++ rest) = .some (number, rest) := by
  obtain ⟨hexadecimal, valued⟩ := hexFrom_toDigits number
  have size : (upperHex width number).length = width := by
    have short := Nat.toDigits_length 16 number width some small
    rw [upperHex, List.length_append, List.length_replicate, List.length_map]
    omega
  have zeros (count : Nat) (digits : List Char) :
      hexFrom 0 (List.replicate count '0' ++ digits) = hexFrom 0 digits := by
    induction count with
    | zero => rfl
    | succ count inductionHypothesis => exact inductionHypothesis
  have read := @hexNumber?_append (upperHex width number) (fun digit member => ?_) 0 rest
  · rw [size, upperHex, zeros, valued] at read
    rw [upperHex]
    exact read
  · rw [upperHex] at member
    rcases List.mem_append.mp member with zero | digit
    · rw [List.eq_of_mem_replicate zero]
      rfl
    · exact hexadecimal _ digit

/-! ### Escapes -/

theorem number_lt (letter : Text.Letter) : letter.number < 0x110000 := by
  cases letter with
  | plain character =>
    have valid : character.toNat < 0xD800 ∨ 0xDFFF < character.toNat ∧ character.toNat < 0x110000 :=
      character.valid
    show character.toNat < 0x110000
    omega
  | half place =>
    have inRange : place.val < 0x800 := place.isLt
    show 0xD800 + place.val < 0x110000
    omega

theorem ofNumber_number (letter : Text.Letter) : Text.Letter.ofNumber letter.number = letter := by
  cases letter with
  | plain character =>
    have valid : character.toNat < 0xD800 ∨ 0xDFFF < character.toNat ∧ character.toNat < 0x110000 :=
      character.valid
    rw [Text.Letter.ofNumber, dif_neg]
    · exact congrArg Text.Letter.plain (Char.ofNat_toNat character)
    · show ¬(0xD800 ≤ character.toNat ∧ character.toNat < 0xD800 + 0x800)
      omega
  | half place =>
    have inRange : place.val < 0x800 := place.isLt
    rw [Text.Letter.ofNumber, dif_pos]
    · refine congrArg Text.Letter.half (Fin.ext ?_)
      show 0xD800 + place.val - 0xD800 = place.val
      omega
    · show 0xD800 ≤ 0xD800 + place.val ∧ 0xD800 + place.val < 0xD800 + 0x800
      omega

theorem letterOf_number (letter : Text.Letter) : letterOf letter.number = .ok letter := by
  rw [letterOf, if_pos (number_lt letter), ofNumber_number]

theorem eq_plain_of_character? {letter : Text.Letter} {character : Char}
    (isPlain : letter.character? = some character) : letter = .plain character := by
  cases letter with
  | plain other => exact congrArg Text.Letter.plain (Option.some.inj isPlain)
  | half place => cases isPlain

theorem escapedLetter?_letterEscape {character name : Char}
    (named : letterEscape? character = some name) :
    escapedLetter? name = some character := by
  have itself := Char.ofNat_toNat character
  rw [letterEscape?] at named
  split at named
  case h_16 => cases named
  all_goals
    rename_i number
    rw [number] at itself
    rw [← itself, ← Option.some.inj named]
    rfl

/-- An escape is read as the letter that it was made for. -/
theorem escaped_escape (bound : Nat) (letter : Text.Letter) (rest : List Char) :
    ∃ body, escape letter = '\\' :: body ∧
      escaped bound (body ++ rest) = .ok (Text.spelling letter, rest) := by
  have numbered (mark : Char) (count : Nat) (noLetter : escapedLetter? mark = none)
      (counted : escapeDigits? mark = some count) (some : 0 < count)
      (small : letter.number < 16 ^ count) :
      escaped bound (mark :: upperHex count letter.number ++ rest) =
        .ok (Text.spelling letter, rest) := by
    rw [List.cons_append, escaped, noLetter, counted]
    dsimp only
    rw [hexNumber?_upperHex small some rest]
    show (letterOf letter.number >>= fun letter => Except.ok (Text.spelling letter, rest)) = _
    rw [letterOf_number]
    rfl
  have small := number_lt letter
  cases named : letter.character?.bind letterEscape? with
  | some name =>
    refine ⟨[name], by rw [escape, named], ?_⟩
    obtain ⟨character, isPlain, escapes⟩ := Option.bind_eq_some_iff.mp named
    obtain rfl := eq_plain_of_character? isPlain
    have unmarked : character ≠ Text.mark := by
      rintro rfl
      cases escapes
    rw [List.singleton_append, escaped, escapedLetter?_letterEscape escapes, Text.spelling, if_neg unmarked]
  | none =>
    rw [escape, named]
    dsimp only
    split
    · exact ⟨_, rfl, numbered 'x' 2 rfl rfl (by decide) (by omega)⟩
    · split
      · exact ⟨_, rfl, numbered 'u' 4 rfl rfl (by decide) (by omega)⟩
      · exact ⟨_, rfl, numbered 'U' 8 rfl rfl (by decide) (by omega)⟩

/-! ### Double quotes -/

namespace Reads

variable {rest out after : List Char}

theorem doubleQuoted_end (after : List Char) : Reads doubleQuoted ('"' :: after) [] after := by
  intro bound larger
  obtain ⟨bound, rfl⟩ := Nat.exists_eq_add_of_le' (show 1 ≤ bound by omega)
  rfl

/-- One unit of a scalar is read, and the scalar goes on behind it. -/
theorem doubleQuoted_cons {bound : Nat} {first : Char} (noQuote : first ≠ '"') {text : List Char} :
    doubleQuoted (bound + 1) (first :: text) =
      ((if first = '\\' then escaped (bound + 1) text
        else if isSpaceOrBreak first then foldedSpace (bound + 1) (first :: text)
        else Except.ok (Text.spelling (.plain first), text)) >>= fun result =>
        doubleQuoted bound result.2 >>= fun others =>
          Except.ok (result.1 ++ others.1, others.2)) := by
  rw [doubleQuoted]
  · split
    · rfl
    · split
      · rfl
      · rfl
  · exact noQuote

/-- What stands behind a backslash is read as the lexer for it says. -/
theorem escape (reads : Reads doubleQuoted rest out after) {text unit : List Char}
    (escapes : ∀ bound, text.length ≤ bound → escaped bound text = .ok (unit, rest))
    (shorter : rest.length ≤ text.length) :
    Reads doubleQuoted ('\\' :: text) (unit ++ out) after := by
  intro bound larger
  rw [List.length_cons] at larger
  obtain ⟨bound, rfl⟩ := Nat.exists_eq_add_of_le' (show 1 ≤ bound by omega)
  rw [doubleQuoted_cons (by decide), if_pos rfl, escapes (bound + 1) (by omega), ok_bind,
    reads bound (by omega)]
  rfl

theorem escapedLetter (reads : Reads doubleQuoted rest out after) (letter : Text.Letter) :
    Reads doubleQuoted (Yaml.escape letter ++ rest) (Text.spelling letter ++ out) after := by
  obtain ⟨body, isEscape, -⟩ := escaped_escape 0 letter rest
  rw [isEscape]
  have shorter : rest.length ≤ (body ++ rest).length := by
    rw [List.length_append]
    omega
  refine reads.escape (fun bound _ => ?_) shorter
  obtain ⟨other, same, escapes⟩ := escaped_escape bound letter rest
  obtain rfl : body = other := (List.cons.inj (isEscape.symm.trans same)).2
  exact escapes

/-- A blank behind a backslash is a blank. -/
theorem escapedBlank (reads : Reads doubleQuoted rest out after) :
    Reads doubleQuoted ('\\' :: ' ' :: rest) (' ' :: out) after := by
  show Reads doubleQuoted ('\\' :: ' ' :: rest) ([' '] ++ out) after
  exact reads.escape (fun _ _ => rfl) (by rw [List.length_cons]; omega)

/-- A line that is broken behind a backslash goes on with the next word. -/
theorem brokenLine (reads : Reads doubleQuoted rest out after) (starts : startsWord rest = true)
    {column : Nat} (indented : 0 < column) :
    Reads doubleQuoted ('\\' :: '\n' :: (Sheet.blanks column ++ rest)) out after := by
  show Reads doubleQuoted _ ([] ++ out) after
  refine reads.escape (fun bound larger => ?_)
    (by rw [List.length_cons, List.length_append]; omega)
  rw [List.length_cons] at larger
  show foldedLines bound ([] ++ (Sheet.blanks column ++ rest)) = _
  exact foldedLines_breaks indented (fun character member => absurd member List.not_mem_nil) starts
    (by rw [List.length_nil]; omega)

theorem character (reads : Reads doubleQuoted rest out after) {character : Char}
    (noQuote : character ≠ '"') (noBackslash : character ≠ '\\')
    (noSpace : isSpaceOrBreak character = false) (unmarked : character ≠ Text.mark) :
    Reads doubleQuoted (character :: rest) (character :: out) after := by
  intro bound larger
  rw [List.length_cons] at larger
  obtain ⟨bound, rfl⟩ := Nat.exists_eq_add_of_le' (show 1 ≤ bound by omega)
  rw [doubleQuoted_cons noQuote, if_neg noBackslash, noSpace, if_neg Bool.false_ne_true, ok_bind,
    reads bound (by omega), Text.spelling, if_neg unmarked]
  rfl

/-- A blank is read as a blank if no line end comes before the next word. -/
theorem blank (reads : Reads doubleQuoted rest out after)
    (steady : startsWord (rest.dropWhile isSpace) = true) :
    Reads doubleQuoted (' ' :: rest) (' ' :: out) after := by
  have folded (bound : Nat) (text : List Char) (next : text.dropWhile isSpace = rest.dropWhile isSpace) :
      foldedSpace bound text = .ok (text.takeWhile isSpace, rest.dropWhile isSpace) := by
    rw [foldedSpace, next]
    cases left : rest.dropWhile isSpace with
    | nil =>
      rw [left] at steady
      cases steady
    | cons first others =>
      rw [left] at steady
      dsimp only
      rw [lineBreak?_of_startsWord steady]
  intro bound larger
  rw [List.length_cons] at larger
  obtain ⟨bound, rfl⟩ := Nat.exists_eq_add_of_le' (show 1 ≤ bound by omega)
  rw [doubleQuoted_cons (by decide), if_neg (by decide), if_pos (by decide),
    folded (bound + 1) (' ' :: rest) rfl, ok_bind]
  cases rest with
  | nil => cases steady
  | cons next others =>
    cases space : isSpace next with
    | true =>
      have known : next ≠ '"' ∧ next ≠ '\\' := by
        constructor
        · rintro rfl
          cases space
        · rintro rfl
          cases space
      have whole := reads (bound + 1) (by omega)
      rw [doubleQuoted_cons known.1, if_neg known.2,
        if_pos (by rw [isSpaceOrBreak, space, Bool.true_or]), folded (bound + 1) _ rfl,
        ok_bind] at whole
      obtain ⟨result, read, same⟩ := bind_eq_ok.mp whole
      rw [read, ok_bind]
      obtain ⟨rfl, rfl⟩ := Prod.mk.inj (Except.ok.inj same)
      rfl
    | false =>
      rw [List.dropWhile_cons, space, if_neg Bool.false_ne_true, reads bound (by omega), ok_bind,
        show (' ' :: next :: others).takeWhile isSpace = ' ' :: (next :: others).takeWhile isSpace
          from rfl, List.takeWhile_cons, space]
      rfl

end Reads

/-! ### Lines between double quotes -/

theorem written_breakDouble {sheet : Sheet} (filled : sheet.indented = false) (column : Nat)
    (pending : List Char) (next : Option Char) :
    let broken := breakDouble sheet column pending next
    broken.written = sheet.written ++ (pending ++ ('\\' :: '\n' :: (blanks column ++
      if next = some ' ' then ['\\'] else []))) ∧
      broken.indented = false ∧ broken.column ≤ column + 1 := by
  obtain ⟨onPage, isAt⟩ := @Sheet.indent_newline (sheet.put (pending ++ ['\\'])) column
    (Or.inl filled)
  intro broken
  rw [Sheet.written_put] at onPage
  rw [show broken = breakDouble sheet column pending next from rfl, breakDouble]
  split
  · refine ⟨?_, rfl, ?_⟩
    · rw [Sheet.written_put]
      show (((sheet.put (pending ++ ['\\'])).indent column).written) ++ _ = _
      rw [onPage]
      simp
    · show ((sheet.put (pending ++ ['\\'])).indent column).column + 1 ≤ column + 1
      rw [isAt.column_eq]
  · refine ⟨?_, rfl, ?_⟩
    · show (((sheet.put (pending ++ ['\\'])).indent column).written) = _
      rw [onPage]
      simp
    · show ((sheet.put (pending ++ ['\\'])).indent column).column ≤ column + 1
      rw [isAt.column_eq]
      omega

/-- A character that stands for itself between double quotes is a blank or part of a word. -/
theorem eq_plain_of_unescaped? {letter : Text.Letter} {character : Char}
    (stands : unescaped? ⟨true⟩ letter = some character) :
    letter = .plain character ∧ character ≠ '"' ∧ character ≠ '\\' ∧ character ≠ Text.mark ∧
      (character ≠ ' ' → isSpaceOrBreak character = false) := by
  obtain ⟨isPlain, unescaped⟩ := Option.filter_eq_some_iff.mp stands
  rw [Bool.not_eq_true', isEscaped] at unescaped
  have escapes (other : Char) (needs : isEscaped ⟨true⟩ other = true) : character ≠ other := by
    rintro rfl
    rw [isEscaped] at needs
    rw [needs] at unescaped
    cases unescaped
  refine ⟨eq_plain_of_character? isPlain, escapes _ (by decide), escapes _ (by decide),
    escapes _ (by decide), fun noBlank => ?_⟩
  rw [isSpaceOrBreak, isSpace, isBreak, isDataBreak, decide_eq_false noBlank,
    decide_eq_false (escapes '\t' (by decide)),
    decide_eq_false (escapes '\r' (by decide)),
    decide_eq_false (escapes '\n' (by decide)),
    decide_eq_false (escapes nextLine (by decide)),
    decide_eq_false (escapes lineSeparator (by decide)),
    decide_eq_false (escapes paragraphSeparator (by decide))]
  rfl

/-- How a text between double quotes goes on: its letters are read, with what follows them. A word
begins where the letters do not begin with a blank. Where a blank comes first in a line that is not
full, it is written at once. -/
structure GoesOnDouble (room : Prop) (letters : List Text.Letter) (text after : List Char) :
    Prop where
  reads : Reads doubleQuoted (text ++ '"' :: after) (letters.flatMap Text.spelling) after
  steady : startsWord ((text ++ '"' :: after).dropWhile isSpace) = true
  starts : letters.head? ≠ some (.plain ' ') → startsWord (text ++ '"' :: after) = true
  blank : ∀ rest, letters = .plain ' ' :: rest → room →
    ∃ others, text = ' ' :: others ∧
      Reads doubleQuoted (others ++ '"' :: after) (rest.flatMap Text.spelling) after

theorem steady_of_starts {text : List Char} (starts : startsWord text = true) :
    startsWord (text.dropWhile isSpace) = true := by
  cases text with
  | nil => exact starts
  | cons first rest =>
    have noSpace : isSpace first = false := by
      rw [startsWord, Bool.not_eq_true', isSpaceOrBreak, Bool.or_eq_false_iff] at starts
      exact starts.1
    rw [List.dropWhile_cons, noSpace, if_neg Bool.false_ne_true]
    exact starts

section

variable {room : Prop} {letters : List Text.Letter} {text after : List Char}

/-- Letters whose text begins with a backslash. -/
theorem goesOn_of_backslash (reads : Reads doubleQuoted ('\\' :: text ++ '"' :: after)
      (letters.flatMap Text.spelling) after)
    (noBlank : ∀ rest, letters = .plain ' ' :: rest → ¬room) :
    GoesOnDouble room letters ('\\' :: text) after where
  reads := reads
  steady := rfl
  starts _ := rfl
  blank rest same inRoom := absurd inRoom (noBlank rest same)

/-- A letter that is escaped is read, and so is what follows it. -/
theorem goesOn_escape {letter : Text.Letter} (escapes : unescaped? ⟨true⟩ letter = none)
    (reads : Reads doubleQuoted (text ++ '"' :: after) (letters.flatMap Text.spelling) after) :
    GoesOnDouble room (letter :: letters) (escape letter ++ text) after := by
  have readsLetter := reads.escapedLetter letter
  obtain ⟨body, isEscape, -⟩ := escaped_escape 0 letter []
  rw [isEscape] at readsLetter ⊢
  refine goesOn_of_backslash ?_ fun rest same => ?_
  · show Reads doubleQuoted ('\\' :: body ++ text ++ '"' :: after) _ _
    rw [List.flatMap_cons, List.append_assoc]
    exact readsLetter
  · obtain ⟨rfl, -⟩ := List.cons.inj same
    cases escapes

theorem GoesOnDouble.character (goesOn : GoesOnDouble room letters text after)
    {letter : Text.Letter} {character : Char}
    (stands : unescaped? ⟨true⟩ letter = some character) {other : Prop} :
    GoesOnDouble other (letter :: letters) (character :: text) after := by
  obtain ⟨rfl, noQuote, noBackslash, unmarked, solid⟩ := eq_plain_of_unescaped? stands
  have spelled : Text.spelling (.plain character) = [character] := by
    rw [Text.spelling, if_neg unmarked]
  by_cases isBlank : character = ' '
  · subst isBlank
    refine ⟨?_, goesOn.steady, fun other => absurd rfl other, fun rest same _ => ?_⟩
    · rw [List.flatMap_cons, spelled]
      exact goesOn.reads.blank goesOn.steady
    · obtain ⟨-, rfl⟩ := List.cons.inj same
      exact ⟨text, rfl, goesOn.reads⟩
  · have starts : startsWord (character :: text ++ '"' :: after) = true := by
      rw [List.cons_append, startsWord, solid isBlank]
      rfl
    refine ⟨?_, steady_of_starts starts, fun _ => starts, fun rest same _ => ?_⟩
    · rw [List.flatMap_cons, spelled]
      exact goesOn.reads.character noQuote noBackslash (solid isBlank) unmarked
    · obtain ⟨same, -⟩ := List.cons.inj same
      exact absurd (Text.Letter.plain.inj same) isBlank

/-- What goes on in a line that is not full may go on in a new one. -/
theorem GoesOnDouble.line (goesOn : GoesOnDouble room letters text after) (inRoom : room)
    {column : Nat} (indented : 0 < column) :
    Reads doubleQuoted ('\\' :: '\n' :: (blanks column ++
        (if letters.head?.bind Text.Letter.character? = some ' ' then ['\\'] else [])) ++ text ++
        '"' :: after) (letters.flatMap Text.spelling) after := by
  split
  · rename_i blankNext
    obtain ⟨letter, isFirst, isBlank⟩ := Option.bind_eq_some_iff.mp blankNext
    obtain rfl := eq_plain_of_character? isBlank
    obtain ⟨rest, rfl⟩ := List.head?_eq_some_iff.mp isFirst
    obtain ⟨others, rfl, reads⟩ := goesOn.blank rest rfl inRoom
    have readsLine := (reads.escapedBlank).brokenLine rfl indented
    rw [List.flatMap_cons, show Text.spelling (.plain ' ') = [' '] from rfl]
    simpa using readsLine
  · rename_i noBlank
    have starts : startsWord (text ++ '"' :: after) = true :=
      goesOn.starts fun isFirst => noBlank (by rw [isFirst]; rfl)
    simpa using goesOn.reads.brokenLine starts indented

end

/-- Letters that are written between double quotes are read as they are. -/
theorem reads_writeDoubleFrom {column : Nat} (indented : 0 < column)
    (near : column + 2 ≤ Sheet.width) (fold : Bool) (letters : List Text.Letter) (sheet : Sheet)
    (filled : sheet.indented = false) (first : Bool) (pending : List Char) :
    ∃ text, (writeDoubleFrom ⟨true⟩ column fold sheet first pending letters).written =
        sheet.written ++ (pending ++ text) ∧
      ∀ after, GoesOnDouble (sheet.column + pending.length ≤ Sheet.width) letters text after := by
  induction letters generalizing sheet first pending with
  | nil =>
    refine ⟨[], ?_, fun after => ⟨Reads.doubleQuoted_end after, rfl, fun _ => rfl,
      fun rest same => by cases same⟩⟩
    rw [List.append_nil]
    exact Sheet.written_put pending
  | cons letter rest inductionHypothesis =>
    rw [writeDoubleFrom]
    cases stands : unescaped? ⟨true⟩ letter with
    | none =>
      dsimp only
      split
      · obtain ⟨onPage, brokenFilled, brokenNear⟩ := @written_breakDouble
          ((sheet.put pending).put (escape letter)) filled column []
          (rest.head?.bind Text.Letter.character?)
        obtain ⟨text, writes, goesOn⟩ := inductionHypothesis _ brokenFilled false []
        refine ⟨escape letter ++ ('\\' :: '\n' :: (blanks column ++
          (if rest.head?.bind Text.Letter.character? = some ' ' then ['\\'] else [])) ++ text), ?_,
          fun after => goesOn_escape stands ((goesOn after).line ?_ indented)⟩
        · rw [writes, onPage, Sheet.written_put, Sheet.written_put]
          simp
        · rw [List.length_nil]
          omega
      · obtain ⟨text, writes, goesOn⟩ := inductionHypothesis ((sheet.put pending).put (escape letter))
          filled false []
        refine ⟨escape letter ++ text, ?_,
          fun after => goesOn_escape stands (goesOn after).reads⟩
        rw [writes, Sheet.written_put, Sheet.written_put]
        simp
    | some character =>
      dsimp only
      split
      · rename_i breaks
        simp only [Bool.and_eq_true, decide_eq_true_eq] at breaks
        obtain ⟨onPage, brokenFilled, brokenNear⟩ := written_breakDouble filled column pending
          (some character)
        obtain ⟨text, writes, goesOn⟩ := inductionHypothesis _ brokenFilled false [character]
        have isPlain := (eq_plain_of_unescaped? stands).1
        refine ⟨'\\' :: '\n' :: (blanks column ++
          (if (letter :: rest).head?.bind Text.Letter.character? = some ' ' then ['\\'] else [])) ++
          character :: text, ?_, fun after => goesOn_of_backslash ?_ fun _ _ => by omega⟩
        · rw [writes, onPage, isPlain]
          simp [Text.Letter.character?]
        · have line := ((goesOn after).character stands).line trivial indented
          exact line
      · obtain ⟨text, writes, goesOn⟩ := inductionHypothesis sheet filled false
          (pending ++ [character])
        refine ⟨character :: text, ?_, fun after => (goesOn after).character stands⟩
        rw [writes]
        simp

/-- What is written between double quotes is read as it is. -/
theorem reads_writeDouble {column : Nat} (indented : 0 < column)
    (near : column + 2 ≤ Sheet.width) (fold : Bool) {text : String}
    (spelled : Text.ofLetters (Text.letters text) = text) (sheet : Sheet) :
    ∃ body, (writeDouble ⟨true⟩ sheet column fold (Text.letters text)).written =
        sheet.written ++ ((if sheet.spaced then [] else [' ']) ++ '"' :: body) ∧
      ∀ after, Reads doubleQuoted (body ++ after) text.toList after := by
  obtain ⟨body, writes, goesOn⟩ := reads_writeDoubleFrom indented near fold (Text.letters text)
    (sheet.mark "\"" true false false) (Bool.and_false _) true []
  refine ⟨body ++ ['"'], ?_, fun after => ?_⟩
  · rw [writeDouble, Sheet.written_mark, writes, Sheet.written_mark]
    simp
  · have reads := (goesOn after).reads
    have characters : (Text.letters text).flatMap Text.spelling = text.toList := by
      have written := congrArg String.toList spelled
      rwa [Text.ofLetters, String.toList_ofList] at written
    rw [characters] at reads
    rw [List.append_assoc]
    exact reads

end Taskbook.Yaml
