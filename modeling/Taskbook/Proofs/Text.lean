/-
Characters that a file keeps.

A text is encoded when it is written to a file, and the ends of its lines are unified when it is
read. So a file gives a text back if there is no carriage return in it, and no mark, which would
make a half of what stands behind it.
-/

import Taskbook.Text.Letters
import Taskbook.Text.Lines

namespace Taskbook.Text

/-- Whether a file gives a character back that is written to it. -/
def isKept (character : Char) : Bool :=
  character != '\r' && character != mark

theorem isKept_iff {character : Char} :
    isKept character = true ↔ character ≠ '\r' ∧ character ≠ mark := by
  rw [isKept, Bool.and_eq_true, bne_iff_ne, bne_iff_ne]

/-- A text of kept characters has no ends of lines to unify. -/
theorem unifiedEnds_of_kept {characters : List Char}
    (kept : ∀ character ∈ characters, isKept character = true) :
    unifiedEnds characters = characters := by
  induction characters with
  | nil => rfl
  | cons first rest inductionHypothesis =>
    have firstKept := (isKept_iff.mp (kept first List.mem_cons_self)).1
    have restSame := inductionHypothesis fun other member =>
      kept other (List.mem_cons_of_mem _ member)
    rw [unifiedEnds]
    · rw [restSame]
    · intro others same after
      exact firstKept same
    · intro same
      exact firstKept same

/-- The letters of kept characters are read before what stands behind them. -/
theorem lettersOf_append_of_kept {characters : List Char}
    (kept : ∀ character ∈ characters, isKept character = true) (rest : List Char) :
    lettersOf (characters ++ rest) = characters.map .plain ++ lettersOf rest := by
  induction characters with
  | nil => rfl
  | cons first others inductionHypothesis =>
    have firstSpelling : spelling (.plain first) = [first] :=
      if_neg (isKept_iff.mp (kept first List.mem_cons_self)).2
    have behind := lettersOf_spelling_append (.plain first) (others ++ rest)
    rw [firstSpelling] at behind
    rw [List.cons_append, ← List.singleton_append, behind,
      inductionHypothesis fun other member => kept other (List.mem_cons_of_mem _ member)]
    rfl

/-- The letters of a text of kept characters are those characters. -/
theorem lettersOf_of_kept {characters : List Char}
    (kept : ∀ character ∈ characters, isKept character = true) :
    lettersOf characters = characters.map .plain := by
  have whole := lettersOf_append_of_kept kept []
  rwa [List.append_nil, lettersOf, List.append_nil] at whole

variable {text : String}

/-- A text can be encoded behind kept characters if it can be encoded by itself. -/
theorem isEncodable_append_of_kept {before : String}
    (kept : before.toList.all isKept = true) (text : String) :
    isEncodable (before ++ text) = isEncodable text := by
  have plain : (before.toList.map Letter.plain).any Letter.isHalf = false := by
    rw [List.any_map]
    exact List.any_eq_false.mpr fun _ _ => Bool.false_ne_true
  rw [isEncodable, letters, String.toList_append,
    lettersOf_append_of_kept (List.all_eq_true.mp kept), List.any_append,
    plain, Bool.false_or]
  rfl

theorem unifyEnds_of_kept (kept : ∀ character ∈ text.toList, isKept character = true) :
    unifyEnds text = text := by
  rw [unifyEnds, unifiedEnds_of_kept kept, String.ofList_toList]

theorem plain?_of_kept (kept : ∀ character ∈ text.toList, isKept character = true) :
    plain? text = some text := by
  have characters : (text.toList.map Letter.plain).mapM Letter.character? = some text.toList := by
    generalize text.toList = letters
    induction letters with
    | nil => rfl
    | cons first rest inductionHypothesis =>
      rw [List.map_cons, List.mapM_cons, inductionHypothesis]
      rfl
  rw [plain?, letters, lettersOf_of_kept kept, characters, Option.map_some, String.ofList_toList]

/-- A text of kept characters is spelled by its letters. -/
theorem ofLetters_of_kept (kept : ∀ character ∈ text.toList, isKept character = true) :
    ofLetters (letters text) = text := by
  have characters : (text.toList.map Letter.plain).flatMap spelling = text.toList := by
    generalize text.toList = letters at kept
    induction letters with
    | nil => rfl
    | cons first rest inductionHypothesis =>
      rw [List.map_cons, List.flatMap_cons, spelling,
        if_neg (isKept_iff.mp (kept first List.mem_cons_self)).2,
        inductionHypothesis fun other member => kept other (List.mem_cons_of_mem _ member)]
      rfl
  rw [ofLetters, letters, lettersOf_of_kept kept, characters, String.ofList_toList]

/-! ### Numbers -/

/-- A number is written with digits. -/
theorem isDigit_of_mem_number {number : Nat} {character : Char}
    (member : character ∈ (toString number).toList) : character.isDigit = true :=
  Nat.isDigit_of_mem_toDigits (by decide) (by decide) (Nat.toList_repr ▸ member)

theorem isKept_of_mem_number {number : Nat} {character : Char}
    (member : character ∈ (toString number).toList) : isKept character = true := by
  have digit := isDigit_of_mem_number member
  refine isKept_iff.mpr ⟨?_, ?_⟩ <;>
    · rintro rfl
      exact absurd digit (by decide)

/-! ### Texts of letters -/

theorem ofLetters_append (first second : List Letter) :
    ofLetters (first ++ second) = ofLetters first ++ ofLetters second := by
  rw [ofLetters, List.flatMap_append, String.ofList_append]
  rfl

theorem ofLetters_replicate {character : Char} (notMark : character ≠ mark) (count : Nat) :
    ofLetters (List.replicate count (.plain character)) =
      String.ofList (List.replicate count character) := by
  have characters : (List.replicate count (Letter.plain character)).flatMap spelling =
      List.replicate count character := by
    induction count with
    | zero => rfl
    | succ count inductionHypothesis =>
      rw [List.replicate_succ, List.flatMap_cons, inductionHypothesis, spelling, if_neg notMark]
      rfl
  rw [ofLetters, characters]

end Taskbook.Text
