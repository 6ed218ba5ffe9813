/-
The tables of outlines.

The nodes of a tree are numbered in the order of its text. In the table of an outline a node is a
text, a list, or a mapping whose keys are different texts, and the parts of a node come after it.
What is said about the nodes numbered so far stays true however the table goes on.
-/

import Taskbook.Proofs.Yaml.Outline
import Taskbook.Yaml.Document.Basic

namespace Taskbook.Yaml

/-! ### Tables -/

mutual

/-- Whether the node of a number is, with its parts, a node of a tree. -/
inductive Stands (parts : Array Part) : Nat → Node → Prop where
  | text {place : Nat} {text : String} (found : partAt parts place = ⟨.str, .scalar text⟩) :
    Stands parts place (.scalar none .str text)
  | list {place : Nat} {places : List Nat} {items : List Node}
    (found : partAt parts place = ⟨.seq, .sequence places⟩)
    (stand : ItemsStand parts places items) :
    Stands parts place (.sequence none .seq items)
  | record {place : Nat} {places : List (Nat × Nat)} {entries : List (Node × Node)}
    (found : partAt parts place = ⟨.map, .mapping places⟩)
    (stand : EntriesStand parts places entries) :
    Stands parts place (.mapping none .map entries)

/-- Whether the nodes of some numbers are those of a row. -/
inductive ItemsStand (parts : Array Part) : List Nat → List Node → Prop where
  | nil : ItemsStand parts [] []
  | cons {place : Nat} {places : List Nat} {item : Node} {items : List Node}
    (first : Stands parts place item) (others : ItemsStand parts places items) :
    ItemsStand parts (place :: places) (item :: items)

/-- Whether the nodes of some pairs of numbers are the keys and values of entries. -/
inductive EntriesStand (parts : Array Part) : List (Nat × Nat) → List (Node × Node) → Prop where
  | nil : EntriesStand parts [] []
  | cons {first second : Nat} {places : List (Nat × Nat)} {key value : Node}
    {entries : List (Node × Node)} (keyStands : Stands parts first key)
    (valueStands : Stands parts second value) (others : EntriesStand parts places entries) :
    EntriesStand parts ((first, second) :: places) ((key, value) :: entries)

end

/-- Whether a node is a text, a list, or a mapping of different texts. The parts of a node come
after its number. -/
inductive IsOrdinary (parts : Array Part) (place : Nat) : Part → Prop where
  | text (text : String) : IsOrdinary parts place ⟨.str, .scalar text⟩
  | list {items : List Nat} (later : ∀ item ∈ items, place < item ∧ item < parts.size) :
    IsOrdinary parts place ⟨.seq, .sequence items⟩
  | record {entries : List (Nat × Nat)}
    (keysLater : ∀ entry ∈ entries, place < entry.1 ∧ entry.1 < parts.size)
    (valuesLater : ∀ entry ∈ entries, place < entry.2 ∧ entry.2 < parts.size)
    (named : ∀ entry ∈ entries, ∃ name, partAt parts entry.1 = ⟨.str, .scalar name⟩)
    (distinct : (entries.map fun entry => partAt parts entry.1).Nodup) :
    IsOrdinary parts place ⟨.map, .mapping entries⟩

/-- Whether all nodes from a number on are ordinary, up to another number. -/
def AreOrdinary (parts : Array Part) (first last : Nat) : Prop :=
  ∀ place, first ≤ place → place < last → IsOrdinary parts place (partAt parts place)

/-- Whether a table has the nodes of another one from a number on. -/
structure GoesOn (first : Nat) (before table : Array Part) : Prop where
  longer : before.size ≤ table.size
  same : ∀ place, first ≤ place → place < before.size → partAt table place = partAt before place

theorem GoesOn.later {first next : Nat} {before table : Array Part}
    (goesOn : GoesOn first before table) (after : first ≤ next) : GoesOn next before table :=
  ⟨goesOn.longer, fun place from_next => goesOn.same place (Nat.le_trans after from_next)⟩

theorem AreOrdinary.append {parts : Array Part} {first middle last : Nat}
    (front : AreOrdinary parts first middle) (back : AreOrdinary parts middle last) :
    AreOrdinary parts first last := by
  intro place from_first to_last
  rcases Nat.lt_or_ge place middle with inFront | inBack
  · exact front place from_first inFront
  · exact back place inBack to_last

namespace Document

/-- What numbering adds to a table: it keeps what is there, and however the table goes on, the new
nodes are ordinary and something more holds. -/
structure Adds (before after : Array Part) (holds : Array Part → Prop) : Prop where
  grows : before.size ≤ after.size
  keeps : ∀ place < before.size, partAt after place = partAt before place
  holds : ∀ table, GoesOn before.size after table → holds table
  ordinary : ∀ table, GoesOn before.size after table →
    AreOrdinary table before.size after.size

variable {before middle after table : Array Part} {holds further : Array Part → Prop}

theorem Adds.goesOn {first : Nat} (added : Adds before after holds)
    (goesOn : GoesOn first after table) : GoesOn first before table where
  longer := Nat.le_trans added.grows goesOn.longer
  same place from_first inBefore := by
    rw [goesOn.same place from_first (Nat.lt_of_lt_of_le inBefore added.grows),
      added.keeps place inBefore]

/-- What is added first stays as it is when more is added. -/
theorem Adds.append (front : Adds before middle holds) (back : Adds middle after further) :
    Adds before after fun table => holds table ∧ further table where
  grows := Nat.le_trans front.grows back.grows
  keeps place inBefore := by
    rw [back.keeps place (Nat.lt_of_lt_of_le inBefore front.grows), front.keeps place inBefore]
  holds table goesOn :=
    ⟨front.holds table (back.goesOn goesOn), back.holds table (goesOn.later front.grows)⟩
  ordinary table goesOn :=
    (front.ordinary table (back.goesOn goesOn)).append
      (back.ordinary table (goesOn.later front.grows))

theorem Adds.mono (added : Adds before after holds)
    (follows : ∀ table, GoesOn before.size after table → holds table → further table) :
    Adds before after further where
  grows := added.grows
  keeps := added.keeps
  holds table goesOn := follows table goesOn (added.holds table goesOn)
  ordinary := added.ordinary

theorem adds_nothing (before : Array Part) (always : ∀ table, holds table) :
    Adds before before holds where
  grows := Nat.le_refl _
  keeps _ _ := rfl
  holds table _ := always table
  ordinary _ _ place from_first to_last := absurd to_last (by omega)

theorem partAt_push_of_lt {place : Nat} (inBefore : place < before.size) (part : Part) :
    partAt (before.push part) place = partAt before place := by
  rw [partAt, partAt, Array.getD_eq_getD_getElem?, Array.getD_eq_getD_getElem?,
    Array.getElem?_push_lt inBefore, Array.getElem?_eq_getElem inBefore]

theorem partAt_push_self (before : Array Part) (part : Part) :
    partAt (before.push part) before.size = part := by
  rw [partAt, Array.getD_eq_getD_getElem?, Array.getElem?_push_size]
  rfl

theorem partAt_set_self {place : Nat} (inBefore : place < before.size) (part : Part) :
    partAt (before.setIfInBounds place part) place = part := by
  rw [partAt, Array.getD_eq_getD_getElem?, Array.getElem?_setIfInBounds_self_of_lt inBefore]
  rfl

theorem partAt_set_of_ne {place other : Nat} (differ : place ≠ other) (part : Part) :
    partAt (before.setIfInBounds place part) other = partAt before other := by
  rw [partAt, partAt, Array.getD_eq_getD_getElem?, Array.getD_eq_getD_getElem?,
    Array.getElem?_setIfInBounds_ne differ]

/-- A collection gets its number before its parts do and is filled after them. -/
theorem Adds.collection {part empty : Part} (parts : Adds (before.push empty) after holds)
    (ordinary : ∀ table, after.size ≤ table.size → holds table →
      IsOrdinary table before.size part) :
    Adds before (after.setIfInBounds before.size part) fun table =>
      partAt table before.size = part ∧ holds table := by
  have grows := parts.grows
  rw [Array.size_push] at grows
  have size : (after.setIfInBounds before.size part).size = after.size :=
    Array.size_setIfInBounds
  have inner (table : Array Part)
      (goesOn : GoesOn before.size (after.setIfInBounds before.size part) table) :
      GoesOn (before.push empty).size after table := by
    rw [Array.size_push]
    refine ⟨by rw [← size]; exact goesOn.longer, fun place from_next inAfter => ?_⟩
    rw [goesOn.same place (by omega) (by omega), partAt_set_of_ne (by omega)]
  have filled (table : Array Part)
      (goesOn : GoesOn before.size (after.setIfInBounds before.size part) table) :
      partAt table before.size = part := by
    rw [goesOn.same before.size (by omega) (by omega), partAt_set_self (by omega)]
  refine ⟨by omega, fun place inBefore => ?_, fun table goesOn => ?_, fun table goesOn => ?_⟩
  · rw [partAt_set_of_ne (by omega),
      parts.keeps place (by rw [Array.size_push]; omega), partAt_push_of_lt inBefore]
  · exact ⟨filled table goesOn, parts.holds table (inner table goesOn)⟩
  · intro place from_first to_last
    rcases Nat.eq_or_lt_of_le from_first with rfl | later
    · rw [filled table goesOn]
      exact ordinary table (by rw [← size]; exact goesOn.longer)
        (parts.holds table (inner table goesOn))
    · exact parts.ordinary table (inner table goesOn) place (by rw [Array.size_push]; omega)
        (by omega)

theorem Adds.lt_size {part empty : Part} (parts : Adds (before.push empty) after holds) :
    before.size < (after.setIfInBounds before.size part).size := by
  have grows := parts.grows
  rw [Array.size_push] at grows
  rw [Array.size_setIfInBounds]
  omega

/-! ### Outlines -/

theorem bind_of_eq {α β : Type} {first : StateM Numbering α} {numbering next : Numbering}
    {value : α} (ran : first numbering = (value, next)) (goesOn : α → StateM Numbering β) :
    (first >>= goesOn) numbering = goesOn value next := by
  show (let (value, next) := first numbering; goesOn value next) = _
  rw [ran]

theorem stands_scalar {parts : Array Part} {place : Nat} {anchor : Option String} {tag : Tag}
    {text : String} (stands : Stands parts place (.scalar anchor tag text)) :
    partAt parts place = ⟨.str, .scalar text⟩ := by
  cases stands with
  | text found => exact found

/-- The keys of an outline are different texts in every table of it. -/
theorem keys_of_entriesStand {column : Nat} {entries : List (Node × Node)}
    {places : List (Nat × Nat)} (outlines : Node.HasOutlines column entries)
    (stand : EntriesStand table places entries) :
    (∀ pair ∈ places, ∃ name, (∃ entry ∈ entries, entry.1 = .scalar none .str name) ∧
      partAt table pair.1 = ⟨.str, .scalar name⟩) ∧
    (places.map fun pair => partAt table pair.1).Nodup := by
  induction entries generalizing places with
  | nil =>
    cases stand
    exact ⟨fun pair member => absurd member List.not_mem_nil, List.nodup_nil⟩
  | cons entry others inductionHypothesis =>
    cases stand with
    | @cons first second pairs key value _ keyStands _ stands =>
      obtain ⟨⟨name, rfl, -⟩, -, -, different, othersOutlines⟩ := outlines
      obtain ⟨named, distinct⟩ := inductionHypothesis othersOutlines stands
      have found := stands_scalar keyStands
      refine ⟨fun other member => ?_, ?_⟩
      · rcases List.mem_cons.mp member with rfl | further
        · exact ⟨name, ⟨_, List.mem_cons_self, rfl⟩, found⟩
        · obtain ⟨otherName, ⟨entry, among, called⟩, otherFound⟩ := named other further
          exact ⟨otherName, ⟨entry, List.mem_cons_of_mem _ among, called⟩, otherFound⟩
      · rw [List.map_cons, List.nodup_cons]
        refine ⟨fun again => ?_, distinct⟩
        obtain ⟨other, among, same⟩ := List.mem_map.mp again
        obtain ⟨otherName, ⟨entry, inOthers, called⟩, otherFound⟩ := named other among
        rw [otherFound, found] at same
        injection same with _ sameContent
        injection sameContent with sameName
        exact different entry inOthers (by rw [called, sameName])

/-- A text is a node by itself. -/
theorem adds_text (before : Array Part) (text : String) :
    Adds before (before.push ⟨.str, .scalar text⟩) fun table =>
      Stands table before.size (.scalar none .str text) := by
  have found (table : Array Part)
      (goesOn : GoesOn before.size (before.push ⟨.str, .scalar text⟩) table) :
      partAt table before.size = ⟨.str, .scalar text⟩ := by
    rw [goesOn.same before.size (Nat.le_refl _) (by rw [Array.size_push]; omega),
      partAt_push_self]
  refine ⟨by rw [Array.size_push]; omega, fun place inBefore => partAt_push_of_lt inBefore _,
    fun table goesOn => .text (found table goesOn),
    fun table goesOn place from_first to_last => ?_⟩
  rw [Array.size_push] at to_last
  obtain rfl : place = before.size := by omega
  rw [found table goesOn]
  exact .text text

variable (names : List (String × Nat))

mutual

/-- The nodes of an outline are added to a table. -/
theorem numberNode_adds {column : Nat} {node : Node} (outline : node.IsOutline column)
    (before : Array Part) :
    ∃ after, numberNode node ⟨before, names⟩ = (before.size, ⟨after, names⟩) ∧
      before.size < after.size ∧
      Adds before after fun table => Stands table before.size node := by
  cases node with
  | reference name => exact outline.elim
  | scalar anchor tag text =>
    obtain ⟨rfl, rfl, -, -⟩ := outline
    exact ⟨before.push ⟨.str, .scalar text⟩, rfl, by rw [Array.size_push]; omega,
      adds_text before text⟩
  | sequence anchor tag items =>
    obtain ⟨rfl, rfl, -, records⟩ := outline
    obtain ⟨places, after, numbered, ranged, added⟩ :=
      numberItems_adds records (before.push ⟨.seq, .sequence []⟩)
    refine ⟨after.setIfInBounds before.size ⟨.seq, .sequence places⟩, ?_, added.lt_size, ?_⟩
    · show (numberItems items >>= fun places => fill before.size ⟨.seq, .sequence places⟩ >>=
        fun _ => pure before.size) (⟨before.push ⟨.seq, .sequence []⟩, names⟩ : Numbering) = _
      rw [bind_of_eq numbered]
      rfl
    · rw [Array.size_push] at ranged
      refine (added.collection fun table longer stand => ?_).mono fun table _ holds =>
        .list holds.1 holds.2
      refine .list fun item member => ?_
      have inRange := ranged item member
      omega
  | mapping anchor tag entries =>
    obtain ⟨rfl, rfl, -, outlines⟩ := outline
    obtain ⟨places, after, numbered, ranged, added⟩ :=
      numberEntries_adds outlines (before.push ⟨.map, .mapping []⟩)
    refine ⟨after.setIfInBounds before.size ⟨.map, .mapping places⟩, ?_, added.lt_size, ?_⟩
    · show (numberEntries entries >>= fun places => fill before.size ⟨.map, .mapping places⟩ >>=
        fun _ => pure before.size) (⟨before.push ⟨.map, .mapping []⟩, names⟩ : Numbering) = _
      rw [bind_of_eq numbered]
      rfl
    · rw [Array.size_push] at ranged
      refine (added.collection fun table longer stand => ?_).mono fun table _ holds =>
        .record holds.1 holds.2
      obtain ⟨named, distinct⟩ := keys_of_entriesStand outlines stand
      refine .record (fun entry member => ?_) (fun entry member => ?_) (fun entry member => ?_)
        distinct
      · have inRange := (ranged entry member).1
        omega
      · have inRange := (ranged entry member).2
        omega
      · obtain ⟨name, -, found⟩ := named entry member
        exact ⟨name, found⟩

/-- The nodes of the items of an outline are added to a table. -/
theorem numberItems_adds {column : Nat} {items : List Node} (records : Node.AreRecords column items)
    (before : Array Part) :
    ∃ places after, numberItems items ⟨before, names⟩ = (places, ⟨after, names⟩) ∧
      (∀ place ∈ places, before.size ≤ place ∧ place < after.size) ∧
      Adds before after fun table => ItemsStand table places items := by
  cases items with
  | nil =>
    exact ⟨[], before, rfl, fun place member => absurd member List.not_mem_nil,
      adds_nothing before fun _ => .nil⟩
  | cons item rest =>
    obtain ⟨-, outline, othersRecords⟩ := records
    obtain ⟨middle, first, larger, added⟩ := numberNode_adds outline before
    obtain ⟨places, after, others, ranged, addedOthers⟩ := numberItems_adds othersRecords middle
    have grows := addedOthers.grows
    refine ⟨before.size :: places, after, ?_, fun place member => ?_,
      (added.append addedOthers).mono fun table _ stand => .cons stand.1 stand.2⟩
    · show (numberNode item >>= fun first => numberItems rest >>= fun others =>
        pure (first :: others)) (⟨before, names⟩ : Numbering) = _
      rw [bind_of_eq first]
      show (numberItems rest >>= _) _ = _
      rw [bind_of_eq others]
      rfl
    · rcases List.mem_cons.mp member with rfl | further
      · omega
      · have inRange := ranged place further
        omega

/-- The nodes of the entries of an outline are added to a table. -/
theorem numberEntries_adds {column : Nat} {entries : List (Node × Node)}
    (outlines : Node.HasOutlines column entries) (before : Array Part) :
    ∃ places after, numberEntries entries ⟨before, names⟩ = (places, ⟨after, names⟩) ∧
      (∀ pair ∈ places, (before.size ≤ pair.1 ∧ pair.1 < after.size) ∧
        (before.size ≤ pair.2 ∧ pair.2 < after.size)) ∧
      Adds before after fun table => EntriesStand table places entries := by
  cases entries with
  | nil =>
    exact ⟨[], before, rfl, fun pair member => absurd member List.not_mem_nil,
      adds_nothing before fun _ => .nil⟩
  | cons entry rest =>
    obtain ⟨key, value⟩ := entry
    obtain ⟨⟨name, rfl, -⟩, outline, -, -, othersOutlines⟩ := outlines
    have keyAdded := adds_text before name
    obtain ⟨early, pushed⟩ : ∃ early, early = before.push ⟨.str, .scalar name⟩ := ⟨_, rfl⟩
    have earlySize : early.size = before.size + 1 := by rw [pushed, Array.size_push]
    have first : numberNode (.scalar none .str name) ⟨before, names⟩ =
        (before.size, ⟨early, names⟩) := by
      rw [pushed]
      rfl
    rw [← pushed] at keyAdded
    obtain ⟨middle, second, larger, added⟩ := numberNode_adds outline early
    obtain ⟨places, after, others, ranged, addedOthers⟩ := numberEntries_adds othersOutlines middle
    have grows := addedOthers.grows
    refine ⟨(before.size, early.size) :: places, after, ?_, fun pair member => ?_,
      ((keyAdded.append added).append addedOthers).mono fun table _ stand =>
        .cons stand.1.1 stand.1.2 stand.2⟩
    · show (numberNode (.scalar none .str name) >>= fun first => numberNode value >>= fun second =>
        numberEntries rest >>= fun others => pure ((first, second) :: others))
        (⟨before, names⟩ : Numbering) = _
      rw [bind_of_eq first]
      show (numberNode value >>= _) _ = _
      rw [bind_of_eq second]
      show (numberEntries rest >>= _) _ = _
      rw [bind_of_eq others]
      rfl
    · rcases List.mem_cons.mp member with rfl | further
      · exact ⟨⟨Nat.le_refl _, by omega⟩, by omega, by omega⟩
      · have inRange := ranged pair further
        omega

end

/-- The document of an outline has ordinary nodes only, and its first one stands for the outline. -/
theorem ofNode_eq {column : Nat} {root : Node} (outline : root.IsOutline column) :
    ∃ parts, ofNode root = ⟨parts, 0⟩ ∧ 0 < parts.size ∧ Stands parts 0 root ∧
      AreOrdinary parts 0 parts.size := by
  obtain ⟨parts, numbered, filled, added⟩ := numberNode_adds [] outline #[]
  have itself : GoesOn 0 parts parts := ⟨Nat.le_refl _, fun _ _ _ => rfl⟩
  refine ⟨parts, ?_, filled, added.holds parts itself, added.ordinary parts itself⟩
  show Document.mk (numberNode root ⟨#[], []⟩).2.parts (numberNode root ⟨#[], []⟩).1 = _
  rw [numbered]
  rfl

end Document

end Taskbook.Yaml
