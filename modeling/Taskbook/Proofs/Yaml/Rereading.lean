/-
The text of an outline is read as the outline.

The value of an outline makes the outline again as its node, since nothing in it occurs twice and
it is not deep. Its text is read as its words, its words make up the outline, and the document of
the outline stands for a copy of the value. So what is read of a text is a copy of what it was
written for.
-/

import Taskbook.Proofs.Yaml.Growing
import Taskbook.Proofs.Yaml.Lines
import Taskbook.Proofs.Yaml.Noting
import Taskbook.Proofs.Yaml.Parsing
import Taskbook.Yaml.Reader

namespace Taskbook.Yaml

open Sheet (blanks written)

namespace Node

/-! ### Nodes of values -/

mutual

/-- What is an outline in a column is one further left. -/
theorem IsOutline.left {column : Nat} {node : Node} (outline : node.IsOutline column)
    {least : Nat} (near : least ≤ column) : node.IsOutline least := by
  cases node with
  | reference name => exact outline.elim
  | scalar anchor tag text =>
    obtain ⟨unnamed, isText, restorable, inside⟩ := outline
    exact ⟨unnamed, isText, restorable, by omega⟩
  | sequence anchor tag items =>
    obtain ⟨unnamed, isList, inside, records⟩ := outline
    exact ⟨unnamed, isList, by omega, records.left near⟩
  | mapping anchor tag entries =>
    obtain ⟨unnamed, isMapping, inside, outlines⟩ := outline
    exact ⟨unnamed, isMapping, by omega, outlines.left (Nat.add_le_add_right near 2)⟩

theorem AreRecords.left {column : Nat} {items : List Node} (records : AreRecords column items)
    {least : Nat} (near : least ≤ column) : AreRecords least items := by
  cases items with
  | nil => trivial
  | cons item rest =>
    obtain ⟨record, outline, further⟩ := records
    exact ⟨record, outline.left near, further.left near⟩

theorem HasOutlines.left {column : Nat} {entries : List (Node × Node)}
    (outlines : HasOutlines column entries) {least : Nat} (near : least ≤ column) :
    HasOutlines least entries := by
  cases entries with
  | nil => trivial
  | cons entry rest =>
    obtain ⟨key, value⟩ := entry
    obtain ⟨named, outline, listed, fresh, further⟩ := outlines
    exact ⟨named, outline.left near, listed, fresh, further.left near⟩

end

variable [Depths]

mutual

/-- The value of an outline makes the outline again. -/
theorem noted_value {column : Nat} {node : Node} (outline : node.IsOutline column) {depth : Nat}
    (shallow : depth ≤ column + 2) (listed : node.isSequence = true → depth ≤ column + 1)
    (known : List Nat) :
    noted depth node.value known = .ok (node, known) ∧ node.IsAnonymous := by
  cases node with
  | reference name => exact outline.elim
  | scalar anchor tag text =>
    obtain ⟨rfl, rfl, -, -⟩ := outline
    exact ⟨rfl, rfl, rfl⟩
  | sequence anchor tag items =>
    obtain ⟨rfl, rfl, near, records⟩ := outline
    have inLimit : depth ≤ Depths.noting := by
      have room := Depths.noting_room
      unfold lastColumn at near
      omega
    have shallower := listed rfl
    obtain ⟨made, anonymous⟩ := notedItems_value records
      (show depth + 1 ≤ column + 2 by omega) known
    refine ⟨?_, rfl, rfl, anonymous⟩
    rw [Node.value, noted, noteOnce]
    show (checkNoting depth known >>= fun checked =>
      notedItems (depth + 1) (itemValues items) checked.2 >>= fun nodes =>
        .ok (Node.sequence none Tag.seq nodes.1, nodes.2)) = _
    rw [checkNoting_eq inLimit, ok_bind, made]
    rfl
  | mapping anchor tag entries =>
    obtain ⟨rfl, rfl, near, outlines⟩ := outline
    have inLimit : depth ≤ Depths.noting := by
      have room := Depths.noting_room
      unfold lastColumn at near
      omega
    obtain ⟨made, anonymous⟩ := notedEntries_value outlines
      (show depth + 1 ≤ column + 2 + 1 by omega) known
    refine ⟨?_, rfl, rfl, anonymous⟩
    rw [Node.value, noted, noteOnce]
    show (checkNoting depth known >>= fun checked =>
      notedEntries (depth + 1) (entryValues entries) checked.2 >>= fun nodes =>
        .ok (Node.mapping none Tag.map nodes.1, nodes.2)) = _
    rw [checkNoting_eq inLimit, ok_bind, made]
    rfl

theorem notedItems_value {column : Nat} {items : List Node} (records : AreRecords column items)
    {depth : Nat} (shallow : depth ≤ column + 2) (known : List Nat) :
    notedItems depth (itemValues items) known = .ok (items, known) ∧ AreAnonymous items := by
  cases items with
  | nil => exact ⟨rfl, trivial⟩
  | cons item rest =>
    obtain ⟨record, outline, further⟩ := records
    have notSequence : item.isSequence = true → depth ≤ column + 1 :=
      fun sequence => absurd sequence (not_isSequence_of_isRecord record)
    obtain ⟨made, anonymous⟩ := noted_value outline shallow notSequence known
    obtain ⟨others, othersAnonymous⟩ := notedItems_value further shallow known
    refine ⟨?_, anonymous, othersAnonymous⟩
    rw [itemValues, notedItems]
    show (noted depth item.value known >>= fun first =>
      notedItems depth (itemValues rest) first.2 >>= fun others =>
        .ok (first.1 :: others.1, others.2)) = _
    rw [made, ok_bind]
    dsimp only
    rw [others]
    rfl

theorem notedEntries_value {column : Nat} {entries : List (Node × Node)}
    (outlines : HasOutlines column entries) {depth : Nat} (shallow : depth ≤ column + 1)
    (known : List Nat) :
    notedEntries depth (entryValues entries) known = .ok (entries, known) ∧
      HasAnonymousEntries entries := by
  cases entries with
  | nil => exact ⟨rfl, trivial⟩
  | cons entry rest =>
    obtain ⟨key, value⟩ := entry
    obtain ⟨⟨name, rfl, -⟩, outline, -, -, further⟩ := outlines
    obtain ⟨made, anonymous⟩ := noted_value outline (by omega) (fun _ => shallow) known
    obtain ⟨others, othersAnonymous⟩ := notedEntries_value further shallow known
    refine ⟨?_, ⟨rfl, rfl⟩, anonymous, othersAnonymous⟩
    rw [entryValues, notedEntries]
    show (noted depth value.value known >>= fun content =>
      notedEntries depth (entryValues rest) content.2 >>= fun others =>
        .ok ((scalar none .str name, content.1) :: others.1, others.2)) = _
    rw [made, ok_bind]
    dsimp only
    rw [others]
    rfl

end

theorem ofValue_value {root : Node} (outline : root.IsOutline 0) :
    ofValue root.value = .ok root := by
  obtain ⟨made, anonymous⟩ :=
    noted_value outline (show 1 ≤ 0 + 2 by omega) (fun _ => Nat.le_refl 1) []
  rw [ofValue, StateT.run', made]
  exact congrArg Except.ok (rename_of_isAnonymous _ anonymous)

end Node

/-! ### Texts of outlines -/

theorem isAt_empty : (Sheet.empty.indent 0).IsAt 0 ∧ (Sheet.empty.indent 0).written = [] :=
  ⟨⟨rfl, rfl, rfl⟩, rfl⟩

/-- The text of an outline whose root is a mapping is read as its words. -/
theorem tokens_writeDocument {root : Node} (record : root.isRecord = true)
    (outline : root.IsOutline 0) :
    tokens ((writeDocument ⟨true⟩ root).indent 0).written = (root.words, none) := by
  cases root with
  | scalar anchor tag text => cases record
  | sequence anchor tag items => cases record
  | reference name => cases record
  | mapping anchor tag entries =>
    cases entries with
    | nil => cases record
    | cons entry others =>
      obtain ⟨rfl, rfl, -, outlines⟩ := outline
      obtain ⟨text, writes, ended, starts, reads⟩ := writes_entries (List.cons_ne_nil entry others)
        (outlines.left (Nat.zero_le 2)) isAt_empty.1
      rw [isAt_empty.2, List.nil_append] at writes
      have onPage : ((writeDocument ⟨true⟩ (.mapping none .map (entry :: others))).indent 0).written =
          text ++ ['\n'] := by
        show ((writeEntries ⟨true⟩ Sheet.empty 0 (entry :: others)).indent 0).written = _
        rw [(Sheet.indent_newline 0 (Or.inl ended)).1, writes]
        rfl
      rw [onPage, tokens]
      have ends : Scan.Resumes ['\n']
          ((Node.entryWords (entry :: others)).reverse ++ [.blockMappingStart]) 0 [-1]
          (Node.mapping none .map (entry :: others)).words := by
        refine ⟨0, [], rfl, Int.le_refl _, ⟨by simp, by simp, by simp, rfl⟩, rfl, fun spot _ => ?_⟩
        have leads := @Scan.leads_end spot
          ((Node.entryWords (entry :: others)).reverse ++ [.blockMappingStart]) true
        rw [List.reverse_append, List.reverse_reverse] at leads
        exact leads
      have leads := reads ['\n'] ⟨0, 0, 0⟩ [] _ (-1) [] _ _ rfl (.deeper (by omega)) ends
      have stays : (Scan.outside (text ++ ['\n']) ⟨0, 0, 0⟩ [] (-1) [] true []).toNextToken = _ :=
        Scan.toNextToken_of_rests (starts ['\n']).1
      have begins : (Scan.start (text ++ ['\n'])).toNextToken.forgetStale =
          .ok (Scan.outside (text ++ ['\n']) ⟨0, 0, 0⟩ [] (-1) [] true []) := by
        show (Scan.outside (text ++ ['\n']) ⟨0, 0, 0⟩ [] (-1) [] true []).toNextToken.forgetStale = _
        rw [stays]
        exact Scan.forgetStale_of_idle _ fun place member => by cases member
      exact Scan.run_of_leads leads begins (Nat.lt_succ_self _) 0

/-- What is read of the text of an outline is a copy of what it was written for. -/
theorem read_of_write [Depths] {root : Node} (record : root.isRecord = true)
    (outline : root.IsOutline 0) {text : String} (written : write ⟨true⟩ root.value = .ok text) :
    ∃ copy, read text = .ok copy ∧ copy.isCopy root.value = true := by
  have allowed : text.toList.all isAllowed = true :=
    List.all_eq_true.mpr (isAllowed_of_write written)
  rw [write, Node.ofValue_value outline] at written
  have onPage : ((writeDocument ⟨true⟩ root).indent 0).written = text.toList :=
    congrArg String.toList (Except.ok.inj written)
  obtain ⟨copy, made, copied⟩ := Document.value_ofNode outline
  refine ⟨copy, ?_, copied⟩
  rw [read, allowed, ← onPage, tokens_writeDocument record outline]
  show (Node.ofTokens root.words none >>= _) = _
  rw [Node.ofTokens_words record outline]
  exact made

end Taskbook.Yaml
