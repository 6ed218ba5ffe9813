/-
Values of documents have no key twice.

The value of a node holds those of its parts, so the keys of a mapping are the values of the scalars
that were made for them. Where a node is part of itself, the same is so for the cells of a web.
-/

import Taskbook.Proofs.Yaml.Keying
import Taskbook.Proofs.Project.Contents
import Taskbook.Yaml.Document.Unfolding

namespace Taskbook

namespace Yaml

open Value

variable {made : Array (Option Made)}

/-! ### Documents without circles -/

/-- A value is right for a node: it is keyed, and that of a scalar is the scalar. -/
structure Fits (made : Array (Option Made)) (place : Nat) (value : Value) : Prop where
  isKeyed : value.IsKeyed
  scalar : ∀ leaf, made.getD place none = some (.scalar leaf) → value = numbered place leaf

/-- The values of the entries of a mapping are keyed like its nodes. -/
theorem areKeyed_of_fits {entries : List (Nat × Nat)} {values : List (Value × Value)}
    (distinct : AreDistinct made (entries.map Prod.fst))
    (fits : List.Forall₂ (fun entry value => Fits made entry.1 value.1 ∧ Fits made entry.2 value.2)
      entries values) : AreKeyed values := by
  have unequal := List.pairwise_map.mp distinct.unequal
  clear distinct
  induction fits with
  | nil => exact .nil
  | @cons entry value others rest fit fits inductionHypothesis =>
    obtain ⟨unlike, unequal⟩ := List.pairwise_cons.mp unequal
    refine .cons (fun other member => ?_) (inductionHypothesis unequal)
    obtain ⟨counterpart, among, otherFits, -⟩ := exists_mem_of_forall₂ fits member
    obtain ⟨left, right, isLeft, isRight, differ⟩ := unlike counterpart among
    rw [fit.1.scalar left isLeft, otherFits.scalar right isRight, same_numbered]
    exact differ

namespace Growing

variable {α β : Type} {growths : Array Growth} {fits : α → Prop} {further : β → Prop}

/-- All values that are done are right for their nodes. -/
def AreRight (made : Array (Option Made)) (growths : Array Growth) : Prop :=
  ∀ place value, growths.getD place .untouched = .done value → Fits made place value

/-- What a computation gives is right, and so is all that is done after it. -/
def Gives (made : Array (Option Made)) (growths : Array Growth) (growing : Growing α)
    (fits : α → Prop) : Prop :=
  ∀ value next, growing growths = some (value, next) → AreRight made next ∧ fits value

theorem Gives.bind {growing : Growing α} {goesOn : α → Growing β}
    (gives : Gives made growths growing fits)
    (rest : ∀ value next, AreRight made next → fits value →
      Gives made next (goesOn value) further) :
    Gives made growths (growing >>= goesOn) further := by
  intro result last ran
  have ran : (growing growths >>= fun done => goesOn done.1 done.2) = some (result, last) := ran
  obtain ⟨⟨value, next⟩, grown, goes⟩ := Option.bind_eq_some_iff.mp ran
  obtain ⟨right, fit⟩ := gives value next grown
  exact rest value next right fit result last goes

theorem Gives.pure {value : α} (right : AreRight made growths) (fit : fits value) :
    Gives made growths (pure value) fits := by
  intro other next ran
  obtain ⟨rfl, rfl⟩ := Prod.mk.inj (Option.some.inj ran)
  exact ⟨right, fit⟩

/-- The values of several nodes, or of several pairs of nodes. -/
theorem gives_mapM {grow : α → Growing β} {fits : α → β → Prop}
    (each : ∀ item growths, AreRight made growths → Gives made growths (grow item) (fits item))
    {items : List α} (right : AreRight made growths) :
    Gives made growths (items.mapM grow) (List.Forall₂ fits items) := by
  induction items generalizing growths with
  | nil => exact Gives.pure right .nil
  | cons item rest inductionHypothesis =>
    rw [List.mapM_cons]
    exact (each item growths right).bind fun value next rightThen fit =>
      (inductionHypothesis rightThen).bind fun values last rightAfter fits =>
        Gives.pure rightAfter (.cons fit fits)

theorem gives_note {place : Nat} {growth : Growth} (right : AreRight made growths)
    (done : ∀ value, growth = .done value → Fits made place value) :
    Gives made growths (note place growth) fun _ => True := by
  intro value next ran
  obtain ⟨-, rfl⟩ := Prod.mk.inj (Option.some.inj ran)
  refine ⟨fun other value isDone => ?_, trivial⟩
  rcases getD_setIfInBounds growths place other growth .untouched with ⟨rfl, isGrowth⟩ | unchanged
  · exact done value (isGrowth.symm.trans isDone)
  · exact right other value (unchanged.symm.trans isDone)

theorem gives_both {grow : Nat → Growing Value}
    (each : ∀ place growths, AreRight made growths →
      Gives made growths (grow place) (Fits made place))
    (pair : Nat × Nat) (growths : Array Growth) (right : AreRight made growths) :
    Gives made growths (both grow pair) fun values =>
      Fits made pair.1 values.1 ∧ Fits made pair.2 values.2 :=
  (each pair.1 growths right).bind fun _ next rightThen fit =>
    (each pair.2 next rightThen).bind fun _ _ rightAfter fitAfter =>
      Gives.pure rightAfter ⟨fit, fitAfter⟩

theorem gives_none {growing : Growing α} (none : growing growths = Option.none) :
    Gives made growths growing fits :=
  fun _ _ ran => nomatch none.symm.trans ran

theorem gives_get {goesOn : Array Growth → Growing β}
    (rest : Gives made growths (goesOn growths) further) :
    Gives made growths (get >>= goesOn) further :=
  fun result last ran => rest result last ran

/-- A collection fits a node of which a collection was made. -/
theorem fits_of_collection {place : Nat} {value : Value} {part : Made}
    (isMade : made.getD place none = some part) (isCollection : part.scalar? = none)
    (isKeyed : value.IsKeyed) : Fits made place value where
  isKeyed := isKeyed
  scalar leaf isLeaf := by
    obtain rfl := Option.some.inj (isMade.symm.trans isLeaf)
    cases isCollection

theorem isKeyed_of_fits {places : List Nat} {values : List Value}
    (fits : List.Forall₂ (Fits made) places values) : ∀ value ∈ values, value.IsKeyed := by
  intro value member
  obtain ⟨place, -, fit⟩ := exists_mem_of_forall₂ fits member
  exact fit.isKeyed

theorem isKeyed_pairsFrom {first : Nat} {pairs : List (Nat × Nat)} {values : List (Value × Value)}
    (fits : List.Forall₂ (fun pair value => Fits made pair.1 value.1 ∧ Fits made pair.2 value.2)
      pairs values) (anchor : Option Nat) :
    (Value.list anchor (pairsFrom first values)).IsKeyed := by
  refine isKeyed_of_entryless rfl fun value member => ?_
  obtain ⟨index, inRange, rfl⟩ := List.mem_mapIdx.mp member
  obtain ⟨pair, -, firstFits, secondFits⟩ :=
    exists_mem_of_forall₂ fits (List.getElem_mem inRange)
  refine isKeyed_of_entryless rfl fun part among => ?_
  rcases List.mem_cons.mp among with rfl | isSecond
  · exact firstFits.isKeyed
  · obtain rfl := List.mem_singleton.mp isSecond
    exact secondFits.isKeyed

theorem isKeyed_map {anchor : Option Nat} {entries : List (Nat × Nat)}
    {values : List (Value × Value)} (distinct : AreDistinct made (entries.map Prod.fst))
    (fits : List.Forall₂ (fun entry value => Fits made entry.1 value.1 ∧ Fits made entry.2 value.2)
      entries values) : (Value.map anchor values).IsKeyed := by
  refine isKeyed_of_parts (fun opened same => ?_) fun part among => ?_
  · obtain rfl := Option.some.inj same
    exact areKeyed_of_fits distinct fits
  · rcases List.mem_append.mp among with isKey | isValue
    · obtain ⟨entry, member, rfl⟩ := List.mem_map.mp isKey
      obtain ⟨places, -, fit⟩ := exists_mem_of_forall₂ fits member
      exact fit.1.isKeyed
    · obtain ⟨entry, member, rfl⟩ := List.mem_map.mp isValue
      obtain ⟨places, -, fit⟩ := exists_mem_of_forall₂ fits member
      exact fit.2.isKeyed

/-- The value of a node is right for it. -/
theorem gives_grow (distinct : IsDistinct made) (bound place : Nat) (growths : Array Growth)
    (right : AreRight made growths) :
    Gives made growths (grow made bound place) (Fits made place) := by
  induction bound generalizing place growths with
  | zero => exact gives_none rfl
  | succ bound inductionHypothesis =>
    have finish (value : Value) (growths : Array Growth) (right : AreRight made growths)
        (fit : Fits made place value) : Gives made growths (do
          note place (.done value)
          return value) (Fits made place) :=
      (gives_note right fun other isDone => Growth.done.inj isDone ▸ fit).bind
        fun _ next rightThen _ => Gives.pure rightThen fit
    rw [grow]
    refine gives_get ?_
    split
    · rename_i value isDone
      exact Gives.pure right (right place value isDone)
    · exact gives_none rfl
    · refine (gives_note right fun _ begun => by cases begun).bind fun _ next rightThen _ => ?_
      dsimp only
      split
      · rename_i value isMade
        refine (Gives.pure rightThen ⟨?_, fun leaf isLeaf => ?_⟩).bind finish
        · exact (isLeaf_numbered (distinct.leaves place value isMade)).isKeyed
        · obtain rfl := Made.scalar.inj (Option.some.inj (isMade.symm.trans isLeaf))
          rfl
      · rename_i items isMade
        exact (gives_mapM inductionHypothesis rightThen).bind fun values last rightAfter fits =>
          (Gives.pure rightAfter (fits_of_collection isMade rfl
            (isKeyed_of_entryless rfl (isKeyed_of_fits fits)))).bind finish
      · rename_i first items isMade
        exact (gives_mapM (gives_both inductionHypothesis) rightThen).bind
          fun values last rightAfter fits => (Gives.pure rightAfter (fits_of_collection isMade rfl
            (isKeyed_pairsFrom fits _))).bind finish
      · rename_i keys isMade
        exact (gives_mapM inductionHypothesis rightThen).bind fun values last rightAfter fits =>
          (Gives.pure rightAfter (fits_of_collection isMade rfl
            (isKeyed_of_entryless rfl (isKeyed_of_fits fits)))).bind finish
      · rename_i entries isMade
        exact (gives_mapM (gives_both inductionHypothesis) rightThen).bind
          fun values last rightAfter fits => (Gives.pure rightAfter (fits_of_collection isMade rfl
            (isKeyed_map (distinct.keys place entries isMade) fits))).bind finish
      · rename_i isMade
        refine (Gives.pure rightThen ⟨?_, fun leaf isLeaf => ?_⟩).bind finish
        · exact (⟨rfl, rfl⟩ : IsLeaf Value.null).isKeyed
        · cases isMade.symm.trans isLeaf

end Growing

/-! ### Documents with circles -/

/-- The parts of a cell. -/
def cellSlots : Cell Value → List (Slot Value)
  | .list items => items
  | .pair first second => [first, second]
  | .set items => items
  | .map entries => entries.map Prod.fst ++ entries.map Prod.snd

theorem parts_knot (web : Web) (place : Nat) :
    (Value.knot web place).parts = (cellSlots (web.cell place)).map web.part := by
  rw [parts, opened]
  cases Web.cell web place with
  | map entries =>
    simp only [cellSlots, List.map_append, List.map_map]
    rfl
  | _ => rfl

/-- A part of a cell that is another cell, or a value without parts. -/
inductive IsPlain : Slot Value → Prop where
  | leaf {value : Value} (leaf : value.IsLeaf) : IsPlain (.leaf value)
  | cell (place : Nat) : IsPlain (.cell place)

theorem isPlain_slotAt (distinct : IsDistinct made) (place : Nat) :
    IsPlain (slotAt made place) := by
  rw [slotAt]
  split
  · rename_i value isMade
    exact .leaf (isLeaf_numbered (distinct.leaves place value isMade))
  · exact .leaf ⟨rfl, rfl⟩
  · exact .cell place

theorem isPlain_of_mem_cellsOf (distinct : IsDistinct made) {origin place : Nat}
    {cell : Cell Value} (member : (place, cell) ∈ cellsOf made origin) :
    ∀ slot ∈ cellSlots cell, IsPlain slot := by
  intro slot among
  unfold cellsOf at member
  dsimp only at member
  split at member
  · obtain ⟨-, rfl⟩ := Prod.mk.inj (List.mem_singleton.mp member)
    obtain ⟨item, -, rfl⟩ := List.mem_map.mp among
    exact isPlain_slotAt distinct item
  · rcases List.mem_cons.mp member with same | inPairs
    · obtain ⟨-, rfl⟩ := Prod.mk.inj same
      obtain ⟨other, -, rfl⟩ := List.mem_map.mp among
      exact .cell other
    · obtain ⟨pair, -, rfl⟩ := List.mem_map.mp (List.of_mem_zip inPairs).2
      rcases List.mem_cons.mp among with rfl | isSecond
      · exact isPlain_slotAt distinct pair.1
      · obtain rfl := List.mem_singleton.mp isSecond
        exact isPlain_slotAt distinct pair.2
  · obtain ⟨-, rfl⟩ := Prod.mk.inj (List.mem_singleton.mp member)
    obtain ⟨key, -, rfl⟩ := List.mem_map.mp among
    exact isPlain_slotAt distinct key
  · obtain ⟨-, rfl⟩ := Prod.mk.inj (List.mem_singleton.mp member)
    rcases List.mem_append.mp among with isKey | isValue
    · obtain ⟨entry, inEntries, rfl⟩ := List.mem_map.mp isKey
      obtain ⟨places, -, rfl⟩ := List.mem_map.mp inEntries
      exact isPlain_slotAt distinct places.1
    · obtain ⟨entry, inEntries, rfl⟩ := List.mem_map.mp isValue
      obtain ⟨places, -, rfl⟩ := List.mem_map.mp inEntries
      exact isPlain_slotAt distinct places.2
  · cases member

/-- The cell of a mapping is that of a node which one was made of. -/
theorem exists_map_of_mem_cellsOf {origin place : Nat} {slots : List (Slot Value × Slot Value)}
    (member : (place, Cell.map slots) ∈ cellsOf made origin) :
    ∃ entries, made.getD origin none = some (.map entries) ∧
      slots = entries.map fun entry => (slotAt made entry.1, slotAt made entry.2) := by
  unfold cellsOf at member
  dsimp only at member
  split at member
  · cases List.mem_singleton.mp member
  · rcases List.mem_cons.mp member with same | inPairs
    · cases same
    · obtain ⟨pair, -, same⟩ := List.mem_map.mp (List.of_mem_zip inPairs).2
      cases same
  · cases List.mem_singleton.mp member
  · rename_i entries isMade
    obtain ⟨-, same⟩ := Prod.mk.inj (List.mem_singleton.mp member)
    exact ⟨entries, isMade, Cell.map.inj same⟩
  · cases member

theorem getD_foldl_setIfInBounds {α : Type} (items : List (Nat × α)) (table : Array α)
    (place : Nat) (usual : α) :
    let written := items.foldl (fun table item => table.setIfInBounds item.1 item.2) table
    written.getD place usual = table.getD place usual ∨
      (place, written.getD place usual) ∈ items := by
  induction items generalizing table with
  | nil => exact Or.inl rfl
  | cons item rest inductionHypothesis =>
    rcases inductionHypothesis (table.setIfInBounds item.1 item.2) with before | later
    · rcases getD_setIfInBounds table item.1 place item.2 usual with ⟨rfl, isItem⟩ | unchanged
      · refine Or.inr (List.mem_cons.mpr (Or.inl ?_))
        rw [List.foldl_cons, before, isItem]
      · exact Or.inl (before.trans unchanged)
    · exact Or.inr (List.mem_cons_of_mem _ later)

/-- A cell of a document's web is that of a node, or an empty one. -/
theorem cell_webOf (made : Array (Option Made)) (place : Nat) :
    (webOf made).cell place = .list [] ∨
      ∃ origin, (place, (webOf made).cell place) ∈ cellsOf made origin := by
  rcases getD_foldl_setIfInBounds ((List.range made.size).flatMap (cellsOf made))
    (Array.replicate (made.size + made.foldl (fun count made => count + pairCount made) 0)
      (.list [])) place (.list []) with isStart | member
  · refine Or.inl (isStart.trans ?_)
    rw [Array.getD_eq_getD_getElem?, Array.getElem?_replicate]
    split <;> rfl
  · obtain ⟨origin, -, isCell⟩ := List.mem_flatMap.mp member
    exact Or.inr ⟨origin, isCell⟩

/-- All that is in a document with circles has no parts, or is a cell of its web. -/
theorem isLeaf_or_knot (distinct : IsDistinct made) {root : Nat} {inner : Value}
    (inside : inner.IsInside (.knot (webOf made) root)) :
    inner.IsLeaf ∨ ∃ place, inner = .knot (webOf made) place := by
  induction inside with
  | refl => exact Or.inr ⟨root, rfl⟩
  | @tail whole part _ isPart inductionHypothesis =>
    rcases inductionHypothesis with leaf | ⟨place, rfl⟩
    · rw [leaf.parts] at isPart
      cases isPart
    · rw [parts_knot] at isPart
      obtain ⟨slot, among, rfl⟩ := List.mem_map.mp isPart
      have plain : IsPlain slot := by
        rcases cell_webOf made place with isEmpty | ⟨origin, member⟩
        · rw [isEmpty] at among
          cases among
        · exact isPlain_of_mem_cellsOf distinct member slot among
      cases plain with
      | leaf leaf => exact Or.inl leaf
      | cell other => exact Or.inr ⟨other, rfl⟩

theorem part_slotAt_of_scalar (web : Web) {place : Nat} {value : Value}
    (isMade : made.getD place none = some (.scalar value)) :
    web.part (slotAt made place) = numbered place value := by
  rw [slotAt, isMade]
  rfl

/-- No mapping of a document with circles has two equal keys. -/
theorem isKeyed_knot (distinct : IsDistinct made) (root : Nat) :
    (Value.knot (webOf made) root).IsKeyed := by
  intro inner inside entries isMap
  rcases isLeaf_or_knot distinct inside with leaf | ⟨place, rfl⟩
  · rw [leaf.entries] at isMap
    cases isMap
  · rw [entries?, opened] at isMap
    cases isCell : (webOf made).cell place with
    | map slots =>
      rw [isCell] at isMap
      obtain rfl := Option.some.inj isMap
      rcases cell_webOf made place with isEmpty | ⟨origin, member⟩
      · cases isCell.symm.trans isEmpty
      · rw [isCell] at member
        obtain ⟨fields, isMade, rfl⟩ := exists_map_of_mem_cellsOf member
        have unequal := List.pairwise_map.mp (distinct.keys origin fields isMade).unequal
        refine List.pairwise_map.mpr (List.pairwise_map.mpr (unequal.imp ?_))
        rintro first second ⟨left, right, isLeft, isRight, differ⟩
        dsimp only
        rw [part_slotAt_of_scalar _ isLeft, part_slotAt_of_scalar _ isRight, same_numbered]
        exact differ
    | _ =>
      rw [isCell] at isMap
      cases isMap

/-! ### All documents -/

/-- No mapping of a document has two equal keys. -/
theorem isKeyed_value {document : Document} {value : Value} (given : document.value = .ok value) :
    value.IsKeyed := by
  rw [Document.value] at given
  obtain ⟨made, making, given⟩ := bind_eq_ok.mp given
  have distinct := isDistinct_make making
  dsimp only at given
  split at given
  · rename_i grown ran
    obtain rfl := Except.ok.inj given
    obtain ⟨⟨other, left⟩, run, same⟩ := Option.map_eq_some_iff.mp ran
    have untouched : Growing.AreRight made (made.map fun _ => Growth.untouched) := by
      intro place value done
      rw [Array.getD_eq_getD_getElem?, Array.getElem?_map] at done
      cases found : made[place]? <;> rw [found] at done <;> cases done
    obtain rfl : other = grown := same
    exact (Growing.gives_grow distinct _ _ _ untouched other left run).2.isKeyed
  · obtain rfl := Except.ok.inj given
    exact isKeyed_knot distinct document.root

/-- No mapping that is read from a text has two equal keys. -/
theorem isKeyed_read [Depths] {text : String} {value : Value} (given : read text = .ok value) :
    value.IsKeyed := by
  unfold read at given
  dsimp only at given
  split at given
  · cases given
  · obtain ⟨node, -, given⟩ := bind_eq_ok.mp given
    cases node with
    | none =>
      obtain rfl := Except.ok.inj given
      exact (⟨rfl, rfl⟩ : IsLeaf Value.null).isKeyed
    | some root => exact isKeyed_value given

/-- No mapping in the content of a file has two equal keys. -/
theorem isKeyed_said [Depths] {content : Option ByteArray} {value : Value}
    (given : said content = .ok value) : value.IsKeyed := by
  unfold said at given
  split at given
  · obtain rfl := Except.ok.inj given
    exact (⟨rfl, rfl⟩ : IsLeaf Value.null).isKeyed
  · split at given
    · cases given
    · exact isKeyed_read given

end Yaml

end Taskbook
