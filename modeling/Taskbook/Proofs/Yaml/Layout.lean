/-
What is on a sheet, and the runs of a text.

Going to a column either fills the line up with blanks or begins a new line with them. A text in
which no blank stands next to a line end is a row of runs in which every other run is a word.
-/

import Mathlib.Data.List.SplitBy
import Taskbook.Yaml.Writer

namespace Taskbook.Yaml

/-! ### Sheets -/

namespace Sheet

variable {sheet : Sheet}

/-- The characters on a sheet. -/
def written (sheet : Sheet) : List Char :=
  sheet.text.toList

/-- So many blanks. -/
abbrev blanks (count : Nat) : List Char :=
  List.replicate count ' '

theorem written_put (characters : List Char) :
    (sheet.put characters).written = sheet.written ++ characters := by
  rw [written, put, String.toList_append, String.toList_ofList, written]

theorem written_newline (character : Char) :
    (sheet.newline character).written = sheet.written ++ [character] := by
  rw [written, newline, String.toList_push, written]

theorem written_mark (mark : String) (apart spaced indented : Bool) :
    (sheet.mark mark apart spaced indented).written =
      sheet.written ++ ((if sheet.spaced || !apart then [] else [' ']) ++ mark.toList) := by
  rw [Sheet.mark]
  cases sheet.spaced || !apart with
  | true => exact written_put mark.toList
  | false => exact written_put (' ' :: mark.toList)

/-- Where a sheet is ready for the first thing on a line in a column. -/
structure IsAt (sheet : Sheet) (column : Nat) : Prop where
  column_eq : sheet.column = column
  spaced : sheet.spaced = true
  indented : sheet.indented = true

theorem isAt_padding (indented : sheet.indented = true) {column : Nat}
    (near : sheet.column < column ∨ sheet.column = column ∧ sheet.spaced = true) :
    let padded := if sheet.column < column then
        { sheet.put (blanks (column - sheet.column)) with spaced := true }
      else sheet
    padded.written = sheet.written ++ blanks (column - sheet.column) ∧ padded.IsAt column := by
  intro padded
  rcases near with before | ⟨here, spaced⟩
  · rw [show padded = { sheet.put (blanks (column - sheet.column)) with spaced := true } from
      if_pos before]
    refine ⟨written_put _, ?_, rfl, indented⟩
    show sheet.column + (blanks (column - sheet.column)).length = column
    rw [List.length_replicate]
    omega
  · rw [show padded = sheet from if_neg (by omega), here, Nat.sub_self]
    exact ⟨(List.append_nil _).symm, here, spaced, indented⟩

/-- A column further right is reached on the same line if there is only indentation on it. -/
theorem indent_here (indented : sheet.indented = true) (column : Nat)
    (near : sheet.column < column ∨ sheet.column = column ∧ sheet.spaced = true) :
    (sheet.indent column).written = sheet.written ++ blanks (column - sheet.column) ∧
      (sheet.indent column).IsAt column := by
  have stays : (!sheet.indented || sheet.column > column ||
      (sheet.column = column && !sheet.spaced)) = false := by
    rcases near with before | ⟨here, spaced⟩
    · simp [indented, show ¬column < sheet.column by omega, show sheet.column ≠ column by omega]
    · simp [indented, spaced, here]
  have padded := isAt_padding indented near
  rw [indent, stays]
  exact padded

/-- Otherwise the column is reached on a new line. -/
theorem indent_newline (column : Nat) (full : sheet.indented = false ∨ column < sheet.column) :
    (sheet.indent column).written = sheet.written ++ '\n' :: blanks column ∧
      (sheet.indent column).IsAt column := by
  have leaves : (!sheet.indented || sheet.column > column ||
      (sheet.column = column && !sheet.spaced)) = true := by
    rcases full with filled | beyond
    · simp [filled]
    · simp [beyond]
  have near : (sheet.newline '\n').column < column ∨
      (sheet.newline '\n').column = column ∧ (sheet.newline '\n').spaced = true := by
    rcases Nat.eq_zero_or_pos column with rfl | positive
    · exact Or.inr ⟨rfl, rfl⟩
    · exact Or.inl positive
  have padded := @isAt_padding (sheet.newline '\n') rfl column near
  rw [written_newline, List.append_assoc] at padded
  rw [indent, leaves]
  exact padded

end Sheet

/-! ### Runs -/

/-- Whether two runs that stand next to each other are of these kinds: one of them is a word. -/
def AreApart (first second : RunKind) : Prop :=
  first = .word ∧ second ≠ .word ∨ first ≠ .word ∧ second = .word

/-- Rows of runs in which every other run is a word. -/
inductive IsRow : List (List Char) → Prop where
  | nil : IsRow []
  | cons (kind : RunKind) {run : List Char} {rest : List (List Char)} (filled : run ≠ [])
    (uniform : ∀ character ∈ run, runKind character = kind)
    (apart : ∀ next ∈ rest.head?, ∀ character ∈ next.head?, AreApart kind (runKind character))
    (others : IsRow rest) : IsRow (run :: rest)

/-- Whether two characters may stand next to each other in a row. -/
def MayMeet (first second : Char) : Prop :=
  runKind first = runKind second ∨ AreApart (runKind first) (runKind second)

theorem uniform_of_isChain {character : Char} {rest : List Char}
    (chain : (character :: rest).IsChain fun left right => (runKind left == runKind right) = true) :
    ∀ other ∈ character :: rest, runKind other = runKind character := by
  induction rest generalizing character with
  | nil =>
    intro other member
    rw [List.mem_singleton.mp member]
  | cons next others inductionHypothesis =>
    rw [List.isChain_cons_cons, beq_iff_eq] at chain
    intro other member
    rcases List.mem_cons.mp member with rfl | further
    · rfl
    · rw [inductionHypothesis chain.2 other further, chain.1]

/-- The runs of a text in which blanks and line ends never meet are a row. -/
theorem isRow_runs {text : List Char} (meet : text.IsChain MayMeet) : IsRow (runs text) := by
  obtain ⟨rows, isRows⟩ : ∃ rows, rows = runs text := ⟨_, rfl⟩
  obtain ⟨whole, filled, uniform, parted⟩ := List.splitBy_eq_iff.mp isRows.symm
  rw [whole] at meet
  rw [← isRows]
  clear isRows whole
  induction rows with
  | nil => exact .nil
  | cons run rest inductionHypothesis =>
    rw [List.flatten_cons, List.isChain_append] at meet
    obtain ⟨-, restMeet, joint⟩ := meet
    have runFilled : run ≠ [] := fun empty => filled (empty ▸ List.mem_cons_self)
    obtain ⟨character, others, rfl⟩ := List.exists_cons_of_ne_nil runFilled
    have sameKind := uniform_of_isChain (uniform _ List.mem_cons_self)
    refine .cons (runKind character) runFilled sameKind (fun next isNext first isFirst => ?_)
      (inductionHypothesis restMeet (fun member => filled (List.mem_cons_of_mem _ member))
        (fun other member => uniform other (List.mem_cons_of_mem _ member))
        (List.isChain_cons.mp parted).2)
    obtain ⟨ends, begins, differ⟩ := (List.isChain_cons.mp parted).1 next isNext
    obtain ⟨further, rfl⟩ := List.head?_eq_some_iff.mp isNext
    obtain ⟨tail, rfl⟩ := List.head?_eq_some_iff.mp isFirst
    have lastKind := sameKind _ (List.getLast_mem ends)
    have mayMeet := joint _ (List.getLast_mem_getLast? ends) first rfl
    rw [List.head_cons, lastKind, beq_eq_false_iff_ne] at differ
    rw [MayMeet, lastKind] at mayMeet
    exact mayMeet.resolve_left differ

/-- Where neither a blank comes before a line end nor a line end before a blank, they never meet. -/
theorem isChain_mayMeet {text : List Char}
    (blankBreak : hasNeighbours (· == ' ') isDataBreak text = false)
    (breakBlank : hasNeighbours isDataBreak (· == ' ') text = false) :
    text.IsChain MayMeet := by
  induction text with
  | nil => exact .nil
  | cons character rest inductionHypothesis =>
    cases rest with
    | nil => exact .singleton character
    | cons next others =>
      rw [hasNeighbours, Bool.or_eq_false_iff] at blankBreak breakBlank
      refine .cons_cons ?_ (inductionHypothesis blankBreak.2 breakBlank.2)
      have first := blankBreak.1
      have second := breakBlank.1
      unfold MayMeet AreApart runKind
      by_cases blank : character = ' ' <;> by_cases nextBlank : next = ' ' <;>
        cases ends : isDataBreak character <;> cases nextEnds : isDataBreak next <;>
        simp_all

/-- Without line ends there is nothing that blanks could meet. -/
theorem isChain_mayMeet_of_line {text : List Char}
    (line : ∀ character ∈ text, isDataBreak character = false) : text.IsChain MayMeet := by
  induction text with
  | nil => exact .nil
  | cons character rest inductionHypothesis =>
    cases rest with
    | nil => exact .singleton character
    | cons next others =>
      refine .cons_cons ?_ (inductionHypothesis fun other member =>
        line other (List.mem_cons_of_mem _ member))
      have first := line character List.mem_cons_self
      have second := line next (List.mem_cons_of_mem _ List.mem_cons_self)
      unfold MayMeet AreApart runKind
      by_cases blank : character = ' ' <;> by_cases nextBlank : next = ' ' <;> simp_all

end Taskbook.Yaml
