/-
The values of outlines.

The value of a node is made of those of its parts, which come after it. So a node is never begun
again before it is done, and what has been done is right for its node. The value of an outline's
document is a copy of the value of the outline.
-/

import Taskbook.Proofs.Copies
import Taskbook.Proofs.Yaml.Making
import Taskbook.Yaml.Document.Unfolding

namespace Taskbook.Yaml

namespace Growing

variable {α β : Type} {parts : Array Part} {made : Array (Option Made)} {limit bound : Nat}
  {growths : Array Growth}

theorem bind_of_some {first : Growing α} {next : Array Growth} {value : α}
    (ran : first growths = some (value, next)) (goesOn : α → Growing β) :
    (first >>= goesOn) growths = goesOn value next := by
  show (first growths >>= fun result => goesOn result.1 result.2) = _
  rw [ran]
  rfl

/-- Whether a value is right for a node: it is a copy of that of every tree the node stands for. -/
def Shows (parts : Array Part) (place : Nat) (value : Value) : Prop :=
  ∀ node, Stands parts place node → value.isCopy node.value = true

/-- How far the values of nodes are made: those that are done are right, and those that are begun
are before a number. -/
structure IsRight (parts : Array Part) (limit : Nat) (growths : Array Growth) : Prop where
  size : growths.size = parts.size
  begun : ∀ place, growths.getD place .untouched = .begun → place < limit
  done : ∀ place value, growths.getD place .untouched = .done value → Shows parts place value

/-- Nothing is left begun that was not. -/
def Settles (growths next : Array Growth) : Prop :=
  ∀ place, next.getD place .untouched = .begun → growths.getD place .untouched = .begun

/-- What a computation that makes values of nodes of an ordinary table does. -/
def Yields (parts : Array Part) (limit : Nat) (growths : Array Growth) (growing : Growing α)
    (fits : α → Prop) : Prop :=
  ∃ value next, growing growths = some (value, next) ∧ fits value ∧
    IsRight parts limit next ∧ Settles growths next

theorem note_apply (place : Nat) (growth : Growth) :
    note place growth growths = some ((), growths.setIfInBounds place growth) :=
  rfl

/-- A node that is begun is done with the value that is made of its parts. -/
theorem Yields.noted {growing : Growing Value} {place : Nat} (inRange : place < parts.size)
    (right : IsRight parts limit growths)
    (yields : Yields parts (place + 1) (growths.setIfInBounds place .begun) growing
      (Shows parts place)) :
    Yields parts limit growths (do
      note place .begun
      let value ← growing
      note place (.done value)
      return value) (Shows parts place) := by
  obtain ⟨value, next, ran, shows, rightNext, settles⟩ := yields
  have sized : place < next.size := by rw [rightNext.size]; exact inRange
  have noneBegun : ∀ other, (next.setIfInBounds place (.done value)).getD other .untouched =
      .begun → growths.getD other .untouched = .begun := by
    intro other begun
    by_cases same : place = other
    · subst same
      rw [getD_setIfInBounds_self sized] at begun
      cases begun
    · rw [getD_setIfInBounds_of_ne same] at begun
      have before := settles other begun
      rwa [getD_setIfInBounds_of_ne same] at before
  refine ⟨value, next.setIfInBounds place (.done value), ?_, shows, ⟨?_, ?_, ?_⟩, noneBegun⟩
  · rw [bind_of_some (note_apply place .begun), bind_of_some ran, bind_of_some (note_apply place _)]
    rfl
  · rw [Array.size_setIfInBounds, rightNext.size]
  · exact fun other begun => right.begun other (noneBegun other begun)
  · intro other known done
    by_cases same : place = other
    · subst same
      rw [getD_setIfInBounds_self sized, Growth.done.injEq] at done
      rwa [← done]
    · rw [getD_setIfInBounds_of_ne same] at done
      exact rightNext.done other known done

theorem IsRight.begin (right : IsRight parts limit growths) {place : Nat}
    (inRange : place < parts.size) (later : limit ≤ place) :
    IsRight parts (place + 1) (growths.setIfInBounds place .begun) := by
  have sized : place < growths.size := by rw [right.size]; exact inRange
  refine ⟨by rw [Array.size_setIfInBounds, right.size], fun other begun => ?_,
    fun other value done => ?_⟩
  · by_cases same : place = other
    · omega
    · rw [getD_setIfInBounds_of_ne same] at begun
      have before := right.begun other begun
      omega
  · by_cases same : place = other
    · subst same
      rw [getD_setIfInBounds_self sized] at done
      cases done
    · rw [getD_setIfInBounds_of_ne same] at done
      exact right.done other value done

theorem Yields.pure {value : α} {fits : α → Prop} (fit : fits value)
    (right : IsRight parts limit growths) : Yields parts limit growths (pure value) fits :=
  ⟨value, growths, rfl, fit, right, fun _ begun => begun⟩

theorem Yields.bind {growing : Growing α} {goesOn : α → Growing β} {fits : α → Prop}
    {further : β → Prop} (yields : Yields parts limit growths growing fits)
    (rest : ∀ value next, fits value → IsRight parts limit next →
      Yields parts limit next (goesOn value) further) :
    Yields parts limit growths (growing >>= goesOn) further := by
  obtain ⟨value, middle, ran, fit, right, settles⟩ := yields
  obtain ⟨result, next, went, fits, rightNext, settlesNext⟩ := rest value middle fit right
  refine ⟨result, next, ?_, fits, rightNext, fun place begun => settles place (settlesNext place begun)⟩
  rw [bind_of_some ran]
  exact went

/-- The values of the items of a list. -/
theorem mapM_yields {grow : Nat → Growing Value} {places : List Nat}
    (each : ∀ place ∈ places, ∀ growths, IsRight parts limit growths →
      Yields parts limit growths (grow place) (Shows parts place))
    (right : IsRight parts limit growths) :
    Yields parts limit growths (places.mapM grow) fun values =>
      ∀ items, ItemsStand parts places items →
        Value.areCopies values (Node.itemValues items) = true := by
  induction places generalizing growths with
  | nil =>
    refine Yields.pure (fun items stand => ?_) right
    cases stand
    rfl
  | cons place others inductionHypothesis =>
    rw [List.mapM_cons]
    refine (each place List.mem_cons_self growths right).bind fun value middle shows rightThen =>
      (inductionHypothesis (fun other member => each other (List.mem_cons_of_mem _ member))
        rightThen).bind fun values next copies rightNext => Yields.pure ?_ rightNext
    intro items stand
    cases stand with
    | cons first stands =>
      rw [Node.itemValues, Value.areCopies, shows _ first, copies _ stands]
      rfl

/-- The values of the entries of a mapping. -/
theorem mapM_both_yields {grow : Nat → Growing Value} {places : List (Nat × Nat)}
    (each : ∀ pair ∈ places, (∀ growths, IsRight parts limit growths →
        Yields parts limit growths (grow pair.1) (Shows parts pair.1)) ∧
      ∀ growths, IsRight parts limit growths →
        Yields parts limit growths (grow pair.2) (Shows parts pair.2))
    (right : IsRight parts limit growths) :
    Yields parts limit growths (places.mapM (both grow)) fun values =>
      ∀ entries, EntriesStand parts places entries →
        Value.haveCopies values (Node.entryValues entries) = true := by
  induction places generalizing growths with
  | nil =>
    refine Yields.pure (fun items stand => ?_) right
    cases stand
    rfl
  | cons pair others inductionHypothesis =>
    obtain ⟨key, value⟩ := each pair List.mem_cons_self
    have pairYields : Yields parts limit growths (both grow pair) fun made =>
        Shows parts pair.1 made.1 ∧ Shows parts pair.2 made.2 :=
      (key growths right).bind fun first middle showsFirst rightThen =>
        (value middle rightThen).bind fun second next showsSecond rightNext =>
          Yields.pure ⟨showsFirst, showsSecond⟩ rightNext
    rw [List.mapM_cons]
    refine pairYields.bind fun made middle shows rightThen =>
      (inductionHypothesis (fun other member => each other (List.mem_cons_of_mem _ member))
        rightThen).bind fun values next copies rightNext => Yields.pure ?_ rightNext
    intro entries stand
    cases stand with
    | cons keyStands valueStands stands =>
      rw [Node.entryValues, Value.haveCopies, shows.1 _ keyStands, shows.2 _ valueStands,
        copies _ stands]
      rfl

section

variable {place : Nat}

theorem shows_text {text : String} (isPart : partAt parts place = ⟨.str, .scalar text⟩) :
    Shows parts place (.str text) := by
  intro node stands
  cases stands with
  | text found => cases isPart.symm.trans found; exact decide_eq_true rfl
  | list found => cases isPart.symm.trans found
  | record found => cases isPart.symm.trans found

theorem shows_list {items : List Nat} {values : List Value} (name : Option Nat)
    (isPart : partAt parts place = ⟨.seq, .sequence items⟩)
    (copies : ∀ nodes, ItemsStand parts items nodes →
      Value.areCopies values (Node.itemValues nodes) = true) :
    Shows parts place (.list name values) := by
  intro node stands
  cases stands with
  | text found => cases isPart.symm.trans found
  | list found stand => cases isPart.symm.trans found; exact copies _ stand
  | record found => cases isPart.symm.trans found

theorem shows_record {entries : List (Nat × Nat)} {values : List (Value × Value)}
    (name : Option Nat) (isPart : partAt parts place = ⟨.map, .mapping entries⟩)
    (copies : ∀ nodes, EntriesStand parts entries nodes →
      Value.haveCopies values (Node.entryValues nodes) = true) :
    Shows parts place (.map name values) := by
  intro node stands
  cases stands with
  | text found => cases isPart.symm.trans found
  | list found => cases isPart.symm.trans found
  | record found stand => cases isPart.symm.trans found; exact copies _ stand

/-- A node that is not begun is begun, and its value is made of those of its parts. -/
theorem exists_growing (isOrdinary : IsOrdinary parts place (partAt parts place))
    (isBuilt : made.getD place none = some (partAt parts place).whole)
    (grown : growths.getD place .untouched = .untouched)
    (inner : ∀ part ∈ (partAt parts place).places, ∀ growths, IsRight parts limit growths →
      Yields parts limit growths (grow made bound part) (Shows parts part))
    (begun : IsRight parts limit (growths.setIfInBounds place .begun)) :
    ∃ growing : Growing Value,
      grow made (bound + 1) place growths = (do
        note place .begun
        let value ← growing
        note place (.done value)
        return value : Growing Value) growths ∧
      Yields parts limit (growths.setIfInBounds place .begun) growing (Shows parts place) := by
  have whole : (get : Growing (Array Growth)) growths = some (growths, growths) := rfl
  obtain ⟨part, isPart⟩ : ∃ part, partAt parts place = part := ⟨_, rfl⟩
  rw [isPart] at isOrdinary isBuilt inner
  cases isOrdinary with
  | text text =>
    refine ⟨pure (.str text), ?_, Yields.pure (shows_text isPart) begun⟩
    rw [grow, bind_of_some whole, grown, isBuilt]
    rfl
  | @list items itemsLater =>
    refine ⟨items.mapM (grow made bound) >>= fun values => pure (.list (some place) values), ?_,
      (mapM_yields inner begun).bind fun values next copies rightNext =>
        Yields.pure (shows_list _ isPart copies) rightNext⟩
    rw [grow, bind_of_some whole, grown, isBuilt]
    simp only [Part.whole, bind_assoc, pure_bind]
  | @record entries keysLater valuesLater named distinct =>
    refine ⟨entries.mapM (both (grow made bound)) >>= fun values =>
      pure (.map (some place) values), ?_,
      (mapM_both_yields (Part.forall_mem_places.mp inner) begun).bind
        fun values next copies rightNext => Yields.pure (shows_record _ isPart copies) rightNext⟩
    rw [grow, bind_of_some whole, grown, isBuilt]
    simp only [Part.whole, bind_assoc, pure_bind]

end

/-- A node that is asked for has a value that is right for it. The bound is enough for the nodes
after it. -/
theorem grow_yields (ordinary : AreOrdinary parts 0 parts.size) (isMade : IsMade parts made)
    {place : Nat} (inRange : place < parts.size) (asked : (made.getD place none).isSome = true)
    (enough : parts.size < place + bound) (later : limit ≤ place)
    (right : IsRight parts limit growths) :
    Yields parts limit growths (grow made bound place) (Shows parts place) := by
  induction bound generalizing place limit growths with
  | zero => omega
  | succ bound inductionHypothesis =>
    cases grown : growths.getD place .untouched with
    | done value =>
      have whole : (get : Growing (Array Growth)) growths = some (growths, growths) := rfl
      refine ⟨value, growths, ?_, right.done place value grown, right, fun _ begun => begun⟩
      rw [grow, bind_of_some whole, grown]
      rfl
    | begun =>
      have before := right.begun place grown
      omega
    | untouched =>
      have isOrdinary := ordinary place (Nat.zero_le _) inRange
      obtain ⟨built, isBuilt⟩ := Option.isSome_iff_exists.mp asked
      obtain ⟨rfl, partsAsked⟩ := isMade.whole place built isBuilt
      obtain ⟨growing, same, yields⟩ := exists_growing isOrdinary isBuilt grown
        (fun part member growths right => by
          have inTable := isOrdinary.later part member
          exact inductionHypothesis inTable.2 (partsAsked part member) (by omega) (by omega) right)
        (right.begin inRange later)
      rw [Yields, same]
      exact Yields.noted inRange right yields

end Growing

/-- The document of an outline stands for a copy of the value of the outline. -/
theorem Document.value_ofNode {column : Nat} {root : Node} (outline : root.IsOutline column) :
    ∃ value, (Document.ofNode root).value = .ok value ∧ value.isCopy root.value = true := by
  obtain ⟨parts, numbered, filled, stands, ordinary⟩ := Document.ofNode_eq outline
  obtain ⟨made, making, isMade⟩ := Document.make_eq_ok ordinary filled
  have untouched (place : Nat) :
      (made.map fun _ => Growth.untouched).getD place .untouched = .untouched := by
    rw [Array.getD_eq_getD_getElem?, Array.getElem?_map]
    cases made[place]? with
    | none => rfl
    | some part => rfl
  have right : Growing.IsRight parts 0 (made.map fun _ => Growth.untouched) := by
    refine ⟨by rw [Array.size_map, isMade.size], fun place begun => ?_, fun place value done => ?_⟩
    · rw [untouched] at begun
      cases begun
    · rw [untouched] at done
      cases done
  obtain ⟨value, next, grown, shows, -, -⟩ := @Growing.grow_yields parts made 0 (made.size + 1) _
    ordinary isMade 0 filled isMade.first (by rw [isMade.size]; omega) (Nat.le_refl _) right
  refine ⟨value, ?_, shows root stands⟩
  rw [numbered, Document.value, making, ok_bind]
  have run : (Growing.grow made (made.size + 1) 0).run' (made.map fun _ => Growth.untouched) =
      some value := by
    show (Growing.grow made (made.size + 1) 0 (made.map fun _ => Growth.untouched)).map
      Prod.fst = some value
    rw [grown]
    rfl
  dsimp only
  rw [run]
  rfl

end Taskbook.Yaml
