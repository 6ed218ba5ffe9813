/-
Lists of tasks in columns.

Every line of a list is made of cells with two blanks between them. A cell is as wide as its
column, whatever value is in it: a shorter value is filled up with blanks, a longer one is cut and
ends in an ellipsis. So a column takes up the same places in all lines, and only the blanks at the
end of a line are lost. The ruler marks these places.

A width can be too small or too large to count in, and then there is no list. There is none either
where the machine has no room for a column. How much room it has is not known here, so what follows
holds for any room.
-/

import Mathlib.Algebra.GroupWithZero.Nat
import Mathlib.Data.List.Forall2
import Taskbook.View.TaskList
import Taskbook.Proofs.Outcome
import Taskbook.Proofs.Text
import Taskbook.Proofs.Textual

namespace Taskbook

open Text

namespace View

/-! ### Cells -/

/-- The letter between cells and behind short values. -/
def blank : Letter := .plain ' '

/-- The letter of the ruler. -/
def dash : Letter := .plain '-'

/-- A value in a cell of some width. -/
def fitted (width : Int) (value : List Letter) : List Letter :=
  if width ≤ 0 then []
  else if value.length ≤ width then value ++ List.replicate (width.toNat - value.length) blank
  else value.take (width.toNat - 1) ++ [.plain '…']

/-- A cell is as wide as its column. -/
theorem length_fitted (width : Int) (value : List Letter) :
    (fitted width value).length = width.toNat := by
  rw [fitted]
  split
  · rw [List.length_nil]
    omega
  · split
    · rw [List.length_append, List.length_replicate]
      omega
    · rw [List.length_append, List.length_take, List.length_singleton]
      omega

/-- A width that can be counted in, and for which there is room. -/
def HasRoom (room : Nat) (width : Int) : Prop :=
  -greatestWidth - 1 ≤ width ∧ width ≤ greatestWidth ∧ width ≤ room

variable {room : Nat} {width : Int}

theorem checkWidth_of_room (hasRoom : HasRoom room width) : checkWidth room width = .ok () := by
  obtain ⟨least, most, within⟩ := hasRoom
  rw [checkWidth, if_neg, if_neg (Int.not_lt.mpr within)]
  simp only [Bool.or_eq_true, decide_eq_true_eq]
  omega

/-- Without room a width is too small or too large, or it takes more than there is. -/
theorem checkWidth_of_noRoom (noRoom : ¬ HasRoom room width) :
    ∃ fault, checkWidth room width = .error fault ∧ fault ∈ [Fault.tooLarge, .outOfMemory] := by
  rw [checkWidth]
  split
  · exact ⟨_, rfl, List.mem_cons_self⟩
  · rename_i countable
    rw [if_pos]
    · exact ⟨_, rfl, List.mem_cons_of_mem _ List.mem_cons_self⟩
    · simp only [Bool.or_eq_true, decide_eq_true_eq] at countable
      unfold HasRoom at noRoom
      omega

theorem filling_of_room (hasRoom : HasRoom room width) (count : Nat) {character : Char}
    (notMark : character ≠ mark) : filling room width count character =
      .ok (ofLetters (List.replicate (width.toNat - count) (.plain character))) := by
  rw [filling, checkWidth_of_room hasRoom, ofLetters_replicate notMark]
  rfl

theorem ofLetters_ellipsis : ofLetters [.plain '…'] = ellipsis := by
  decide +kernel

/-- A text that is cut and padded is that of its letters in a cell. -/
theorem padTo_cut (hasRoom : HasRoom room width) (value : List Letter) :
    padTo room width (cut (ofLetters value) width) = .ok (ofLetters (fitted width value)) := by
  have padded (row : List Letter) : padTo room width (ofLetters row) =
      .ok (ofLetters (row ++ List.replicate (width.toNat - row.length) blank)) := by
    rw [padTo, Text.length, letters_ofLetters, filling_of_room hasRoom _ (by decide),
      ofLetters_append]
    rfl
  have full {row : List Letter} (enough : width.toNat ≤ row.length) :
      padTo room width (ofLetters row) = .ok (ofLetters row) := by
    rw [padded, Nat.sub_eq_zero_of_le enough, List.replicate_zero, List.append_nil]
  rw [cut, fitted, Text.length, Text.take, letters_ofLetters]
  by_cases narrow : width ≤ 0
  · rw [if_pos narrow, if_pos narrow]
    exact @full [] (by simp [narrow])
  rw [if_neg narrow, if_neg narrow]
  by_cases short : (value.length : Int) ≤ width
  · rw [if_pos short, if_pos short, padded]
  rw [if_neg short, if_neg short]
  have long : width.toNat ≤ (value.take (width.toNat - 1) ++ [Letter.plain '…']).length := by
    rw [List.length_append, List.length_take, List.length_singleton]
    omega
  split
  · rename_i one
    subst one
    rw [← ofLetters_ellipsis]
    exact full long
  · have same : (width - 1).toNat = width.toNat - 1 := by omega
    rw [← ofLetters_ellipsis, ← ofLetters_append, same]
    exact full long

/-! ### Lines -/

variable {columns : List (String × Int)} {column : String × Int}
  {Holds : String × Int → List Letter → Prop} {cell row : List Letter}

/-- Where a column starts: behind the cells before it and the blanks behind each of them. -/
def start (columns : List (String × Int)) (place : Nat) : Nat :=
  ((columns.take place).map fun column => column.2.toNat + 2).sum

theorem start_succ (column : String × Int) (columns : List (String × Int)) (place : Nat) :
    start (column :: columns) (place + 1) = column.2.toNat + 2 + start columns place :=
  rfl

/-- A position that belongs to some column. -/
def IsInside (columns : List (String × Int)) (position : Nat) : Prop :=
  ∃ place column, columns[place]? = some column ∧ start columns place ≤ position ∧
    position < start columns place + column.2.toNat

/-- A line that shows a value in each column, and nothing between them. -/
structure IsLine (columns : List (String × Int)) (Holds : String × Int → List Letter → Prop)
    (row : List Letter) : Prop where
  length : row.length =
    (columns.map fun column => column.2.toNat).sum + 2 * (columns.length - 1)
  cell : ∀ place column, columns[place]? = some column →
    Holds column ((row.drop (start columns place)).take column.2.toNat)
  between : ∀ position letter, row[position]? = some letter → ¬ IsInside columns position →
    letter = blank

theorem isLine_singleton (holds : Holds column cell) (wide : cell.length = column.2.toNat) :
    IsLine [column] Holds cell := by
  refine ⟨by simp [wide], fun place asked found => ?_, fun position letter found outside => ?_⟩
  · cases place with
    | zero =>
      obtain rfl := Option.some.inj found
      rwa [start, List.take_zero, List.map_nil, List.sum_nil, List.drop_zero, ← wide,
        List.take_length]
    | succ => cases found
  · obtain ⟨inside, -⟩ := List.getElem?_eq_some_iff.mp found
    exact (outside ⟨0, column, rfl, Nat.zero_le _, by simpa [start, ← wide] using inside⟩).elim

/-- One more column in front moves all others by its width and the blanks behind it. -/
theorem IsLine.cons (others : IsLine columns Holds row) (nonempty : columns ≠ [])
    (holds : Holds column cell) (wide : cell.length = column.2.toNat) :
    IsLine (column :: columns) Holds (cell ++ ([blank, blank] ++ row)) := by
  have behind (position : Nat) : (cell ++ ([blank, blank] ++ row)).drop
      (column.2.toNat + 2 + position) = row.drop position := by
    rw [← wide, Nat.add_assoc, List.drop_append, List.drop_append, List.drop_of_length_le,
      List.drop_of_length_le, List.nil_append, List.nil_append]
    · exact congrArg (row.drop ·) (by simp)
    · simp
    · omega
  refine ⟨?_, fun place asked found => ?_, fun position letter found outside => ?_⟩
  · have count : columns.length ≠ 0 := mt List.length_eq_zero_iff.mp nonempty
    have sum := others.length
    simp only [List.length_append, List.length_cons, List.map_cons, List.sum_cons,
      List.length_nil, wide]
    omega
  · cases place with
    | zero =>
      obtain rfl := Option.some.inj found
      rwa [start, List.take_zero, List.map_nil, List.sum_nil, List.drop_zero, ← wide,
        List.take_left]
    | succ place =>
      rw [start_succ, behind]
      exact others.cell place asked found
  · by_cases first : position < cell.length
    · exact (outside ⟨0, column, rfl, Nat.zero_le _, by simpa [start, ← wide] using first⟩).elim
    rw [List.getElem?_append_right (by omega)] at found
    by_cases gap : position - cell.length < 2
    · rw [List.getElem?_append_left gap] at found
      exact List.eq_of_mem_replicate (n := 2) (List.mem_of_getElem? found)
    · rw [List.getElem?_append_right (show 2 ≤ _ by omega)] at found
      refine others.between _ letter found fun ⟨place, asked, same, least, most⟩ => ?_
      refine outside ⟨place + 1, asked, same, ?_, ?_⟩ <;>
        · rw [start_succ]
          simp only [List.length_cons, List.length_nil] at least most
          omega

/-- Cells as wide as their columns make a line. -/
theorem isLine_intercalate {cells : List (List Letter)} (nonempty : columns ≠ [])
    (fit : List.Forall₂ (fun column cell => Holds column cell ∧ cell.length = column.2.toNat)
      columns cells) : IsLine columns Holds ([blank, blank].intercalate cells) := by
  induction fit with
  | nil => exact (nonempty rfl).elim
  | cons first rest inductionHypothesis =>
    cases rest with
    | nil =>
      rw [List.intercalate_singleton]
      exact isLine_singleton first.1 first.2
    | cons second others =>
      rw [List.intercalate_cons_cons, List.append_assoc]
      exact (inductionHypothesis (List.cons_ne_nil _ _)).cons (List.cons_ne_nil _ _) first.1 first.2

/-- The texts of cells are joined to the text of their line. -/
theorem joinCells_ofLetters (cells : List (List Letter)) :
    joinCells (cells.map ofLetters) = ofLetters ([blank, blank].intercalate cells) := by
  have gap : ofLetters [blank, blank] = "  " := by decide +kernel
  rw [joinCells]
  induction cells with
  | nil => rfl
  | cons first rest inductionHypothesis =>
    cases rest with
    | nil => rw [List.map_singleton, String.intercalate_singleton, List.intercalate_singleton]
    | cons second others =>
      rw [List.map_cons, List.map_cons, String.intercalate_cons_cons, ← List.map_cons,
        inductionHypothesis, List.intercalate_cons_cons, ofLetters_append, ofLetters_append, gap]

/-! ### The ruler -/

/-- A line that marks the places of the columns. -/
structure IsRuler (columns : List (String × Int)) (row : List Letter) : Prop where
  length : row.length =
    (columns.map fun column => column.2.toNat).sum + 2 * (columns.length - 1)
  dashed : ∀ position, row[position]? = some dash ↔ IsInside columns position
  plain : ∀ letter ∈ row, letter = dash ∨ letter = blank

/-- A line whose cells are full of dashes is a ruler. -/
theorem IsLine.isRuler (isLine : IsLine columns
    (fun column cell => cell = List.replicate column.2.toNat dash) row) :
    IsRuler columns row := by
  have inside {position : Nat} (isInside : IsInside columns position) :
      row[position]? = some dash := by
    obtain ⟨place, column, found, least, most⟩ := isInside
    have within : position - start columns place < column.2.toNat := by omega
    have shown := congrArg (·[position - start columns place]?) (isLine.cell place column found)
    simpa only [List.getElem?_take_of_lt within, List.getElem?_drop,
      Nat.add_sub_of_le least, List.getElem?_replicate_of_lt within] using shown
  refine ⟨isLine.length, fun position => ⟨fun found => ?_, inside⟩, fun letter member => ?_⟩
  · by_contra outside
    exact absurd (isLine.between position dash found outside) (by decide)
  · obtain ⟨position, found⟩ := List.mem_iff_getElem?.mp member
    by_cases isInside : IsInside columns position
    · exact Or.inl (Option.some.inj (found.symm.trans (inside isInside)))
    · exact Or.inr (isLine.between position letter found isInside)

/-! ### What is shown -/

/-- The names of the columns that a list can have. -/
def columnNames : List String :=
  ["name", "category", "steps", "description"]

/-- Columns of a list: a name has one width wherever it is asked for. -/
structure AreColumns (columns : List (String × Int)) : Prop where
  nonempty : columns ≠ []
  known : ∀ column ∈ columns, column.1 ∈ columnNames
  consistent : ∀ column ∈ columns, ∀ other ∈ columns, column.1 = other.1 → column.2 = other.2

/-- Columns as they are asked for. -/
def requests (columns : List (String × Int)) : List ColumnRequest :=
  columns.map fun (name, width) => ⟨name, .int width⟩

/-- The letters that a task shows in a column of a name. -/
inductive Shows (task : Task) : String → List Letter → Prop
  /-- The name as it is. -/
  | name {value : List Letter} (text : task.name = .str (ofLetters value)) :
      Shows task "name" value
  /-- The name of the band. -/
  | category : Shows task "category" (letters (Category.label task.category))
  /-- The number of steps. -/
  | steps : Shows task "steps" (letters (toString task.steps.length))
  /-- The description as it is. -/
  | description {value : List Letter} (text : task.description = .str (ofLetters value)) :
      Shows task "description" value
  /-- Nothing where there is no description. -/
  | undescribed (null : task.description = .null) : Shows task "description" []

/-- A task whose name and description are texts, if it has a description. -/
structure HasTexts (task : Task) : Prop where
  name : ∃ value, task.name = .str (ofLetters value)
  description : task.description = .null ∨ ∃ value, task.description = .str (ofLetters value)

variable {task : Task} {name : String} {value : List Letter}

theorem exists_shows (texts : HasTexts task) (known : name ∈ columnNames) :
    ∃ value, Shows task name value := by
  simp only [columnNames, List.mem_cons, List.not_mem_nil, or_false] at known
  rcases known with rfl | rfl | rfl | rfl
  · obtain ⟨value, text⟩ := texts.name
    exact ⟨value, .name text⟩
  · exact ⟨_, .category⟩
  · exact ⟨_, .steps⟩
  · rcases texts.description with null | ⟨value, text⟩
    · exact ⟨[], .undescribed null⟩
    · exact ⟨value, .description text⟩

theorem ofLetters_label (category : Option Category) :
    ofLetters (letters (Category.label category)) = Category.label category := by
  refine ofLetters_of_kept (List.all_eq_true.mp ?_)
  rcases category with _ | (_ | _ | _ | _ | _) <;> rfl

theorem ofLetters_number (number : Nat) :
    ofLetters (letters (toString number)) = toString number :=
  ofLetters_of_kept fun _ member => isKept_of_mem_number member

theorem ofLetters_columnName (known : name ∈ columnNames) : ofLetters (letters name) = name := by
  have all : columnNames.all (fun name => name.toList.all isKept) = true := rfl
  exact ofLetters_of_kept (List.all_eq_true.mp (List.all_eq_true.mp all name known))

/-- What a task shows in a column is its value there. -/
theorem cellValue_of_shows (isShown : Shows task name value) :
    cellValue task name = .ok (.str (ofLetters value)) := by
  cases isShown with
  | name text => rw [cellValue, text]
  | category => rw [cellValue, ofLetters_label]
  | steps => rw [cellValue, ofLetters_number]
  | description text =>
    -- the empty text, which counts as no description, is replaced by itself
    rw [cellValue, text, Value.orElse]
    split
    · rfl
    · rename_i untrue
      have empty : ofLetters value = "" := by simpa [Value.isTruthy_str] using untrue
      rw [empty]
  | undescribed null =>
    rw [cellValue, null]
    rfl

/-- The line of the names of the columns. -/
def IsHeader (columns : List (String × Int)) (row : List Letter) : Prop :=
  IsLine columns (fun column cell => cell = fitted column.2 (letters column.1)) row

/-- The line of a task. -/
def IsRow (columns : List (String × Int)) (task : Task) (row : List Letter) : Prop :=
  IsLine columns
    (fun column cell => ∃ value, Shows task column.1 value ∧ cell = fitted column.2 value) row

/-- Where a name has one width, this is the width of its columns. -/
theorem widthOf_eq (areColumns : AreColumns columns) (member : column ∈ columns) :
    widthOf columns column.1 = column.2 := by
  rw [widthOf]
  cases found : columns.reverse.find? fun entry => entry.1 = column.1 with
  | none =>
    have none := List.find?_eq_none.mp found column (List.mem_reverse.mpr member)
    exact (none (decide_eq_true rfl)).elim
  | some other =>
    have same := List.find?_some found
    have otherMember := List.mem_reverse.mp (List.mem_of_find?_eq_some found)
    exact areColumns.consistent other otherMember column member (of_decide_eq_true same)

/-- Cells that can each be made, and that hold what they should, make a line. -/
theorem exists_isLine (nonempty : columns ≠ []) {text : String × Int → Except Fault String}
    (each : ∀ column ∈ columns, ∃ cell, text column = .ok (ofLetters cell) ∧
      Holds column cell ∧ cell.length = column.2.toNat) :
    ∃ row cells, columns.mapM text = .ok cells ∧ joinCells cells = ofLetters row ∧
      IsLine columns Holds row := by
  have made : ∃ cells, columns.mapM text = .ok (cells.map ofLetters) ∧
      List.Forall₂ (fun column cell => Holds column cell ∧ cell.length = column.2.toNat)
        columns cells := by
    clear nonempty
    induction columns with
    | nil => exact ⟨[], rfl, .nil⟩
    | cons first rest inductionHypothesis =>
      obtain ⟨cell, given, fits⟩ := each first List.mem_cons_self
      obtain ⟨cells, further, others⟩ :=
        inductionHypothesis fun column member => each column (List.mem_cons_of_mem _ member)
      refine ⟨cell :: cells, ?_, .cons fits others⟩
      rw [List.mapM_cons, given, ok_bind, further, ok_bind]
      rfl
  obtain ⟨cells, given, fits⟩ := made
  exact ⟨_, _, given, joinCells_ofLetters cells, isLine_intercalate nonempty fits⟩

/-! ### Lists -/

variable {tasks : List Task}

/-- Columns for which there is room. -/
def HaveRoom (room : Nat) (columns : List (String × Int)) : Prop :=
  ∀ column ∈ columns, HasRoom room column.2

theorem exists_header (areColumns : AreColumns columns) (haveRoom : HaveRoom room columns) :
    ∃ row cells, (columns.mapM fun (name, _) =>
        padTo room (widthOf columns name) (cut name (widthOf columns name))) = .ok cells ∧
      joinCells cells = ofLetters row ∧ IsHeader columns row := by
  have each : ∀ column ∈ columns, ∃ cell,
      padTo room (widthOf columns column.1) (cut column.1 (widthOf columns column.1)) =
          .ok (ofLetters cell) ∧
        cell = fitted column.2 (letters column.1) ∧ cell.length = column.2.toNat := by
    intro column member
    refine ⟨_, ?_, rfl, length_fitted _ _⟩
    rw [widthOf_eq areColumns member, ← padTo_cut (haveRoom column member),
      ofLetters_columnName (areColumns.known column member)]
  exact exists_isLine areColumns.nonempty each

theorem exists_ruler (areColumns : AreColumns columns) (haveRoom : HaveRoom room columns) :
    ∃ row cells, (columns.mapM fun (name, _) => filling room (widthOf columns name) 0 '-') =
        .ok cells ∧
      joinCells cells = ofLetters row ∧ IsRuler columns row := by
  have each : ∀ column ∈ columns, ∃ cell,
      filling room (widthOf columns column.1) 0 '-' = .ok (ofLetters cell) ∧
        cell = List.replicate column.2.toNat dash ∧ cell.length = column.2.toNat := by
    intro column member
    rw [widthOf_eq areColumns member, filling_of_room (haveRoom column member) 0 (by decide)]
    exact ⟨_, rfl, rfl, List.length_replicate⟩
  obtain ⟨row, cells, given, joined, isLine⟩ := exists_isLine areColumns.nonempty each
  exact ⟨row, cells, given, joined, isLine.isRuler⟩

theorem exists_row (areColumns : AreColumns columns) (haveRoom : HaveRoom room columns)
    (texts : HasTexts task) :
    ∃ row, taskLine room columns task = .ok (stripEnd (ofLetters row)) ∧
      IsRow columns task row := by
  have each : ∀ column ∈ columns, ∃ cell,
      (do
        let value ← cellValue task column.1
        let shown ← cutValue value (widthOf columns column.1)
        padTo room (widthOf columns column.1) shown) = .ok (ofLetters cell) ∧
      (∃ value, Shows task column.1 value ∧ cell = fitted column.2 value) ∧
        cell.length = column.2.toNat := by
    intro column member
    obtain ⟨value, isShown⟩ := exists_shows texts (areColumns.known column member)
    refine ⟨fitted column.2 value, ?_, ⟨value, isShown, rfl⟩, length_fitted _ _⟩
    rw [widthOf_eq areColumns member, cellValue_of_shows isShown]
    exact padTo_cut (haveRoom column member) value
  obtain ⟨row, cells, given, joined, isLine⟩ := exists_isLine areColumns.nonempty each
  refine ⟨row, ?_, isLine⟩
  rw [taskLine, given, ok_bind, joined]
  rfl

theorem exists_rows (areColumns : AreColumns columns) (haveRoom : HaveRoom room columns)
    (texts : ∀ task ∈ tasks, HasTexts task) :
    ∃ lines, tasks.mapM (taskLine room columns) =
        .ok (lines.map fun row => stripEnd (ofLetters row)) ∧
      List.Forall₂ (IsRow columns) tasks lines := by
  induction tasks with
  | nil => exact ⟨[], rfl, .nil⟩
  | cons first rest inductionHypothesis =>
    obtain ⟨row, given, isRow⟩ := exists_row areColumns haveRoom (texts first List.mem_cons_self)
    obtain ⟨lines, further, areRows⟩ :=
      inductionHypothesis fun task member => texts task (List.mem_cons_of_mem _ member)
    refine ⟨row :: lines, ?_, .cons isRow areRows⟩
    rw [List.mapM_cons, given, ok_bind, further, ok_bind]
    rfl

/-- A list of some tasks is made of its lines. -/
theorem plainListWithin_requests (anyTask : tasks ≠ []) (nonempty : columns ≠ []) :
    plainListWithin room tasks (requests columns) = (do
      let header ← columns.mapM fun (name, _) =>
        padTo room (widthOf columns name) (cut name (widthOf columns name))
      let ruler ← columns.mapM fun (name, _) => filling room (widthOf columns name) 0 '-'
      let lines ← tasks.mapM (taskLine room columns)
      return "\n".intercalate (stripEnd (joinCells header) :: joinCells ruler :: lines)) := by
  have asked : columnsOrUsual (requests columns) = requests columns := by
    rw [columnsOrUsual, requests, if_neg]
    simp [nonempty]
  have widths : ((requests columns).mapM fun request => do
      let width ← request.columns
      return (request.name, width)) = (.ok (columns.map id) : Except Fault _) :=
    mapM_map_eq_ok fun column _ => rfl
  rw [plainListWithin, if_neg (by simpa using anyTask), asked, widths, List.map_id]
  rfl

/-- The first column without room keeps a list from being made. -/
theorem plainListWithin_of_noRoom (anyTask : tasks ≠ []) (areColumns : AreColumns columns)
    (noRoom : ¬ HaveRoom room columns) :
    ∃ fault, plainListWithin room tasks (requests columns) = .error fault ∧
      fault ∈ [Fault.tooLarge, .outOfMemory] := by
  obtain haveRoom | ⟨before, column, after, whole, hasRoom, without⟩ :=
    forall_or_first (fun column : String × Int => HasRoom room column.2) columns
  · exact (noRoom haveRoom).elim
  have member : column ∈ columns := whole ▸ List.mem_append_right _ List.mem_cons_self
  obtain ⟨fault, refused, among⟩ := checkWidth_of_noRoom without
  refine ⟨fault, ?_, among⟩
  have header : (columns.mapM fun (name, _) =>
      padTo room (widthOf columns name) (cut name (widthOf columns name))) = .error fault := by
    have each : ∀ other ∈ before, ∃ text,
        padTo room (widthOf columns other.1) (cut other.1 (widthOf columns other.1)) =
          .ok text := by
      intro other otherMember
      have otherWhole : other ∈ columns := whole ▸ List.mem_append_left _ otherMember
      rw [widthOf_eq areColumns otherWhole,
        ← ofLetters_columnName (areColumns.known other otherWhole)]
      exact ⟨_, padTo_cut (hasRoom other otherMember) _⟩
    have failed :
        padTo room (widthOf columns column.1) (cut column.1 (widthOf columns column.1)) =
          .error fault := by
      rw [widthOf_eq areColumns member, padTo, filling, refused]
      rfl
    conv_lhs => arg 2; rw [whole]
    exact mapM_eq_error each failed
  rw [plainListWithin_requests anyTask areColumns.nonempty, header, error_bind]

/-- A list of some tasks is made where there is room for its columns. It is a header, a ruler and
a row for each task, one line after the other, and the columns take up the same places in all of
them. The header and the rows lose the blanks at their ends. -/
theorem plainListWithin_aligns (anyTask : tasks ≠ []) (areColumns : AreColumns columns)
    (texts : ∀ task ∈ tasks, HasTexts task) :
    (HaveRoom room columns → ∃ header ruler rows,
      plainListWithin room tasks (requests columns) = .ok ("\n".intercalate
        (stripEnd (ofLetters header) :: ofLetters ruler ::
          rows.map fun row => stripEnd (ofLetters row))) ∧
      IsHeader columns header ∧ IsRuler columns ruler ∧
      List.Forall₂ (IsRow columns) tasks rows) ∧
    (¬ HaveRoom room columns → ∃ fault,
      plainListWithin room tasks (requests columns) = .error fault ∧
        fault ∈ [Fault.tooLarge, .outOfMemory]) := by
  refine ⟨fun haveRoom => ?_, plainListWithin_of_noRoom anyTask areColumns⟩
  obtain ⟨header, headerCells, headerGiven, headerJoined, isHeader⟩ :=
    exists_header areColumns haveRoom
  obtain ⟨ruler, rulerCells, rulerGiven, rulerJoined, isRuler⟩ := exists_ruler areColumns haveRoom
  obtain ⟨rows, rowsGiven, areRows⟩ := exists_rows areColumns haveRoom texts
  refine ⟨header, ruler, rows, ?_, isHeader, isRuler, areRows⟩
  rw [plainListWithin_requests anyTask areColumns.nonempty, headerGiven, ok_bind, rulerGiven,
    ok_bind, rowsGiven, ok_bind, headerJoined, rulerJoined]
  rfl

/-- Tasks of a sample: one with a short description, and one without. -/
def sampleTasks : List Task :=
  [⟨.str "lint", .str "fast", some .test, .null, [], []⟩,
    ⟨.str "package", .null, none, .null, [], []⟩]

/-- Columns of a sample, with one that is too narrow for anything. -/
def sampleColumns : List (String × Int) :=
  [("name", 4), ("steps", -2), ("description", 6), ("category", 1)]

theorem areColumns_sampleColumns : AreColumns sampleColumns :=
  ⟨by decide, by decide, by decide⟩

theorem hasTexts_of_sampleTasks : ∀ task ∈ sampleTasks, HasTexts task := by
  have lint : ofLetters (letters "lint") = "lint" := by decide +kernel
  have package : ofLetters (letters "package") = "package" := by decide +kernel
  have fast : ofLetters (letters "fast") = "fast" := by decide +kernel
  intro task member
  simp only [sampleTasks, List.mem_cons, List.not_mem_nil, or_false] at member
  rcases member with rfl | rfl
  · exact ⟨⟨_, congrArg Value.str lint.symm⟩, Or.inr ⟨_, congrArg Value.str fast.symm⟩⟩
  · exact ⟨⟨_, congrArg Value.str package.symm⟩, Or.inl rfl⟩

/-- They are listed in the places of the columns. -/
theorem sampleTasks_align :
    plainList sampleTasks (requests sampleColumns) =
        .ok "name    descr…  …\n----    ------  -\nlint    fast    …\npac…            -" ∧
      ∃ header ruler rows,
        plainList sampleTasks (requests sampleColumns) = .ok ("\n".intercalate
          (stripEnd (ofLetters header) :: ofLetters ruler ::
            rows.map fun row => stripEnd (ofLetters row))) ∧
        IsHeader sampleColumns header ∧ IsRuler sampleColumns ruler ∧
        List.Forall₂ (IsRow sampleColumns) sampleTasks rows := by
  have room : HaveRoom usualRoom sampleColumns := by
    unfold HaveRoom HasRoom greatestWidth usualRoom
    decide
  exact ⟨by decide +kernel, (plainListWithin_aligns (by decide) areColumns_sampleColumns
    hasTexts_of_sampleTasks).1 room⟩

/-- A column can be too narrow to be counted in. -/
theorem plainList_of_tooNarrow :
    AreColumns [("name", -0x8000000000000001)] ∧ (∀ task ∈ sampleTasks, HasTexts task) ∧
      ¬ ∃ shown, plainList sampleTasks (requests [("name", -0x8000000000000001)]) = .ok shown := by
  refine ⟨⟨by decide, by decide, by decide⟩, hasTexts_of_sampleTasks, ?_⟩
  rintro ⟨shown, made⟩
  cases made

end View

end Taskbook
