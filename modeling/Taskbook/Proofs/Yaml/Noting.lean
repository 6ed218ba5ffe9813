/-
The texts of data.

Whatever data are written, a file keeps the text: the tags of their nodes are standard ones, and
the names of what occurs again are made of digits. Not all data have a text, since numbers can have
too many digits and collections can be too deep inside others. A manifest is saved as mappings and
lists of texts, none of which occurs twice. Such data become nodes without names, as long as not
too many collections are inside each other, and so there is a text for them.
-/

import Taskbook.Proofs.Outcome
import Taskbook.Proofs.Yaml.Writing

namespace Taskbook

namespace Yaml

/-! ### Names that files keep -/

theorem isPrinted_toDigits (number : Nat) :
    ∀ character ∈ Nat.toDigits 10 number, isPrinted character = true := by
  intro character member
  rcases exists_of_mem_toDigitsCore member with none | ⟨digit, rfl⟩
  · cases none
  · exact (isPrinted_digitChar digit).1

theorem nameIsPrinted_provisionalName (number : Nat) : NameIsPrinted (provisionalName number) := by
  intro character member
  rw [provisionalName, show toString number = Nat.repr number from rfl, Nat.repr,
    String.toList_ofList] at member
  exact isPrinted_toDigits number character member

theorem nameIsPrinted_anchorName (place : Nat) : NameIsPrinted (Node.anchorName place) := by
  have signKept : ∀ character ∈ "id".toList, isPrinted character = true :=
    List.all_eq_true.mp (by decide)
  intro character member
  simp only [Node.anchorName, padded, String.toList_append, String.toList_ofList,
    List.mem_append] at member
  rcases member with sign | zeros | digits
  · exact signKept character sign
  · rw [(List.mem_replicate.mp zeros).2]
    rfl
  · exact isPrinted_toDigits _ character digits

/-! ### Nodes of any data -/

namespace Noting

variable {α β : Type} {fits : β → Prop}

/-- Whether what a computation makes, if anything, is always of a kind. -/
def Gives (fits : α → Prop) (noting : Noting α) : Prop :=
  ∀ known value after, noting known = .ok (value, after) → fits value

theorem gives_any (noting : Noting α) : Gives (fun _ => True) noting :=
  fun _ _ _ _ => trivial

theorem gives_pure {value : β} (made : fits value) : Gives fits (pure value) := by
  intro known other after same
  obtain ⟨rfl, -⟩ := Prod.mk.inj (Except.ok.inj same)
  exact made

theorem gives_bind {between : α → Prop} {first : Noting α} {next : α → Noting β}
    (gives : Gives between first) (gone : ∀ value, between value → Gives fits (next value)) :
    Gives fits (first >>= next) := by
  intro known value after made
  obtain ⟨⟨middle, now⟩, firstMade, rest⟩ := bind_eq_ok.mp made
  exact gone middle (gives known middle now firstMade) now value after rest

/-- After anything else. -/
theorem gives_after (first : Noting α) {next : α → Noting β}
    (gone : ∀ value, Gives fits (next value)) : Gives fits (first >>= next) :=
  gives_bind (gives_any first) fun value _ => gone value

theorem gives_mapM {make : α → Noting β} (gives : ∀ item, Gives fits (make item))
    (items : List α) : Gives (fun made => ∀ value ∈ made, fits value) (items.mapM make) := by
  induction items with
  | nil => exact gives_pure fun value member => (List.not_mem_nil member).elim
  | cons item rest inductionHypothesis =>
    rw [List.mapM_cons]
    refine gives_bind (gives item) fun value made =>
      gives_bind inductionHypothesis fun others othersMade => gives_pure ?_
    exact List.forall_mem_cons.mpr ⟨made, othersMade⟩

/-- A node that is made once is kept if it is kept under every kept name. -/
theorem gives_noteOnce (anchor : Option Nat) {make : Option String → Noting Node}
    (gives : ∀ name?, (∀ name ∈ name?, NameIsPrinted name) → Gives Node.IsPrinted (make name?)) :
    Gives Node.IsPrinted (noteOnce anchor make) := by
  cases anchor with
  | none => exact gives none fun name member => by cases member
  | some number =>
    refine gives_after get fun known => ?_
    split
    · exact gives_pure (nameIsPrinted_provisionalName number)
    · refine gives_after (modify (number :: ·)) fun _ => gives (some _) fun name member => ?_
      obtain rfl := Option.some.inj member
      exact nameIsPrinted_provisionalName number

end Noting

namespace Node

open Noting

theorem isPrinted_nullNode : nullNode.IsPrinted :=
  ⟨fun _ member => (Option.not_mem_none _ member).elim, rfl⟩

theorem gives_scalarNode (value : Value) : Gives Node.IsPrinted (scalarNode value) := by
  have unnamed : ∀ name ∈ (none : Option String), NameIsPrinted name :=
    fun name member => (Option.not_mem_none name member).elim
  unfold scalarNode
  split
  · exact gives_pure ⟨unnamed, rfl⟩
  · exact gives_pure ⟨unnamed, rfl⟩
  · exact gives_after _ fun text => gives_pure ⟨unnamed, rfl⟩
  · exact gives_pure ⟨unnamed, rfl⟩
  · exact gives_pure ⟨unnamed, rfl⟩
  · exact gives_pure ⟨unnamed, rfl⟩
  · exact gives_noteOnce _ fun name? kept => gives_pure ⟨kept, rfl⟩
  · exact gives_noteOnce _ fun name? kept => gives_pure ⟨kept, rfl⟩
  · exact gives_pure isPrinted_nullNode

variable [Depths]

theorem gives_notedCell (web : Web) (bound depth place : Nat) :
    Gives Node.IsPrinted (notedCell web bound depth place) := by
  induction bound generalizing depth place with
  | zero =>
    intro known value after made
    cases made
  | succ bound inductionHypothesis =>
    have slot (part : Slot Value) :
        Gives Node.IsPrinted (notedSlot (notedCell web bound (depth + 1)) part) := by
      cases part with
      | leaf value => exact gives_scalarNode value
      | cell next => exact inductionHypothesis _ next
    have bothKept (first second : Noting Node) (gives : Gives Node.IsPrinted first)
        (secondGives : Gives Node.IsPrinted second) :
        Gives (fun entry : Node × Node => entry.1.IsPrinted ∧ entry.2.IsPrinted)
          (first >>= fun node => second >>= fun other => pure (node, other)) :=
      gives_bind gives fun node made => gives_bind secondGives fun other otherMade =>
        gives_pure ⟨made, otherMade⟩
    rw [notedCell]
    refine gives_noteOnce _ fun name? kept => gives_after _ fun _ => ?_
    split
    · exact gives_bind (gives_mapM slot _) fun nodes made =>
        gives_pure ⟨kept, rfl, arePrinted_iff.mpr made⟩
    · exact gives_bind (gives_mapM slot _) fun nodes made =>
        gives_pure ⟨kept, rfl, arePrinted_iff.mpr made⟩
    · exact gives_bind (gives_mapM (fun item => bothKept _ (pure nullNode) (slot item)
        (gives_pure isPrinted_nullNode)) _) fun entries made =>
          gives_pure ⟨kept, rfl, hasPrintedEntries_iff.mpr made⟩
    · exact gives_bind (gives_mapM (fun (entry : Slot Value × Slot Value) =>
        bothKept _ _ (slot entry.1) (slot entry.2)) _) fun entries made =>
          gives_pure ⟨kept, rfl, hasPrintedEntries_iff.mpr made⟩

mutual

/-- Whatever is noted has standard tags and names that files keep. -/
theorem gives_noted (depth : Nat) (value : Value) : Gives Node.IsPrinted (noted depth value) := by
  cases value with
  | list anchor items =>
    rw [noted]
    exact gives_noteOnce _ fun name? kept => gives_after _ fun _ =>
      gives_bind (gives_notedItems (depth + 1) items) fun nodes made =>
        gives_pure ⟨kept, rfl, made⟩
  | pair anchor first second =>
    rw [noted]
    exact gives_noteOnce _ fun name? kept => gives_after _ fun _ =>
      gives_bind (gives_noted (depth + 1) first) fun node made =>
        gives_bind (gives_noted (depth + 1) second) fun other otherMade =>
          gives_pure ⟨kept, rfl, made, otherMade, trivial⟩
  | set anchor items =>
    rw [noted]
    exact gives_noteOnce _ fun name? kept => gives_after _ fun _ =>
      gives_bind (gives_notedMembers (depth + 1) items) fun nodes made =>
        gives_pure ⟨kept, rfl, made⟩
  | map anchor entries =>
    rw [noted]
    exact gives_noteOnce _ fun name? kept => gives_after _ fun _ =>
      gives_bind (gives_notedEntries (depth + 1) entries) fun nodes made =>
        gives_pure ⟨kept, rfl, made⟩
  | knot web place => exact gives_notedCell web _ depth place
  | _ => exact gives_scalarNode _

theorem gives_notedItems (depth : Nat) (items : List Value) :
    Gives ArePrinted (notedItems depth items) := by
  cases items with
  | nil => exact gives_pure trivial
  | cons value rest =>
    exact gives_bind (gives_noted depth value) fun first made =>
      gives_bind (gives_notedItems depth rest) fun others othersMade =>
        gives_pure ⟨made, othersMade⟩

theorem gives_notedMembers (depth : Nat) (items : List Value) :
    Gives HasPrintedEntries (notedMembers depth items) := by
  cases items with
  | nil => exact gives_pure trivial
  | cons value rest =>
    exact gives_bind (gives_noted depth value) fun first made =>
      gives_bind (gives_notedMembers depth rest) fun others othersMade =>
        gives_pure ⟨made, isPrinted_nullNode, othersMade⟩

theorem gives_notedEntries (depth : Nat) (entries : List (Value × Value)) :
    Gives HasPrintedEntries (notedEntries depth entries) := by
  cases entries with
  | nil => exact gives_pure trivial
  | cons entry rest =>
    exact gives_bind (gives_noted depth entry.1) fun name nameMade =>
      gives_bind (gives_noted depth entry.2) fun content contentMade =>
        gives_bind (gives_notedEntries depth rest) fun others othersMade =>
          gives_pure ⟨nameMade, contentMade, othersMade⟩

end

theorem isPrinted_ofValue {value : Value} {node : Node} (made : ofValue value = .ok node) :
    node.IsPrinted := by
  obtain ⟨noted, ran, renamed⟩ := bind_eq_ok.mp made
  obtain rfl := Except.ok.inj renamed
  have notedKept : noted.IsPrinted := by
    rw [StateT.run'] at ran
    cases started : Node.noted 1 value [] with
    | error fault =>
      rw [started] at ran
      cases ran
    | ok first =>
      rw [started] at ran
      obtain rfl := Except.ok.inj ran
      exact gives_noted 1 value [] first.1 first.2 started
  refine notedKept.rename fun name other found => ?_
  obtain ⟨before, later, names, -⟩ := List.lookup_eq_some_iff.mp found
  have member : (name, other) ∈ noted.anchorNames := by
    rw [names]
    exact List.mem_append_right _ List.mem_cons_self
  obtain ⟨place, inside, same⟩ := List.mem_mapIdx.mp member
  obtain ⟨-, rfl⟩ := Prod.mk.inj same
  exact nameIsPrinted_anchorName place

end Node

theorem isPrinted_of_write [Depths] {charset : Charset} {value : Value} {text : String}
    (written : write charset value = .ok text) :
    ∀ character ∈ text.toList, isPrinted character = true := by
  obtain ⟨node, made, rest⟩ := bind_eq_ok.mp written
  obtain rfl := Except.ok.inj rest
  exact isPrinted_writeDocument charset (Node.isPrinted_ofValue made)

/-- A file keeps the text of any data. -/
theorem isKept_of_write [Depths] {charset : Charset} {value : Value} {text : String}
    (written : write charset value = .ok text) :
    ∀ character ∈ text.toList, Text.isKept character = true := fun character member =>
  ((Bool.and_eq_true _ _).mp (isPrinted_of_write written character member)).2

/-- The text of any data holds only characters that may be read. -/
theorem isAllowed_of_write [Depths] {charset : Charset} {value : Value} {text : String}
    (written : write charset value = .ok text) :
    ∀ character ∈ text.toList, isAllowed character = true := fun character member =>
  ((Bool.and_eq_true _ _).mp (isPrinted_of_write written character member)).1

end Yaml

/-! ### Nodes of data of texts -/

variable [Depths]

/-- Lists and mappings of texts inside so many collections, none of which occurs twice. -/
inductive Value.IsPlain : Nat → Value → Prop
  | null {depth : Nat} : IsPlain depth .null
  | str {depth : Nat} (text : String) : IsPlain depth (.str text)
  | list {depth : Nat} {items : List Value} (shallow : depth ≤ Depths.noting)
      (inside : ∀ item ∈ items, IsPlain (depth + 1) item) : IsPlain depth (.list none items)
  | map {depth : Nat} {entries : List (Value × Value)} (shallow : depth ≤ Depths.noting)
      (keys : ∀ entry ∈ entries, IsPlain (depth + 1) entry.1)
      (values : ∀ entry ∈ entries, IsPlain (depth + 1) entry.2) : IsPlain depth (.map none entries)

namespace Yaml.Node

/-- Whether a value has a node in which nothing is referred to, whatever has been noted. -/
def IsNoted (depth : Nat) (value : Value) : Prop :=
  ∀ known : List Nat, ∃ node, noted depth value known = .ok (node, known) ∧ node.IsAnonymous

theorem checkNoting_eq {depth : Nat} (shallow : depth ≤ Depths.noting) (known : List Nat) :
    checkNoting depth known = .ok ((), known) := by
  rw [checkNoting, if_neg (Nat.not_lt.mpr shallow)]
  rfl

theorem notedItems_isOk {depth : Nat} {items : List Value}
    (inside : ∀ item ∈ items, IsNoted depth item) (known : List Nat) :
    ∃ nodes, notedItems depth items known = .ok (nodes, known) ∧ AreAnonymous nodes := by
  induction items with
  | nil => exact ⟨[], rfl, trivial⟩
  | cons item rest inductionHypothesis =>
    obtain ⟨node, noted, anonymous⟩ := inside item List.mem_cons_self known
    obtain ⟨nodes, others, othersAnonymous⟩ :=
      inductionHypothesis fun other member => inside other (List.mem_cons_of_mem _ member)
    refine ⟨node :: nodes, ?_, anonymous, othersAnonymous⟩
    rw [notedItems]
    show (Node.noted depth item known >>= fun noted =>
      notedItems depth rest noted.2 >>= fun others => .ok (noted.1 :: others.1, others.2)) = _
    rw [noted, ok_bind]
    dsimp only
    rw [others]
    rfl

theorem notedEntries_isOk {depth : Nat} {entries : List (Value × Value)}
    (keys : ∀ entry ∈ entries, IsNoted depth entry.1)
    (values : ∀ entry ∈ entries, IsNoted depth entry.2) (known : List Nat) :
    ∃ nodes, notedEntries depth entries known = .ok (nodes, known) ∧
      HasAnonymousEntries nodes := by
  induction entries with
  | nil => exact ⟨[], rfl, trivial⟩
  | cons entry rest inductionHypothesis =>
    obtain ⟨key, value⟩ := entry
    obtain ⟨name, keyNoted, keyAnonymous⟩ := keys (key, value) List.mem_cons_self known
    obtain ⟨content, valueNoted, valueAnonymous⟩ := values (key, value) List.mem_cons_self known
    obtain ⟨nodes, others, othersAnonymous⟩ :=
      inductionHypothesis (fun other member => keys other (List.mem_cons_of_mem _ member))
        fun other member => values other (List.mem_cons_of_mem _ member)
    refine ⟨(name, content) :: nodes, ?_, keyAnonymous, valueAnonymous, othersAnonymous⟩
    rw [notedEntries]
    show (Node.noted depth key known >>= fun name =>
      Node.noted depth value name.2 >>= fun content =>
        notedEntries depth rest content.2 >>= fun others =>
          .ok ((name.1, content.1) :: others.1, others.2)) = _
    dsimp only at keyNoted valueNoted
    rw [keyNoted, ok_bind]
    dsimp only
    rw [valueNoted, ok_bind]
    dsimp only
    rw [others]
    rfl

theorem isNoted_of_isPlain {depth : Nat} {value : Value} (plain : value.IsPlain depth) :
    IsNoted depth value := by
  induction plain with
  | null =>
    intro known
    exact ⟨nullNode, rfl, rfl, rfl⟩
  | str text =>
    intro known
    exact ⟨.scalar none .str text, rfl, rfl, rfl⟩
  | @list depth items shallow inside inductionHypothesis =>
    intro known
    obtain ⟨nodes, noted, anonymous⟩ := notedItems_isOk inductionHypothesis known
    refine ⟨.sequence none .seq nodes, ?_, rfl, rfl, anonymous⟩
    rw [Node.noted, noteOnce]
    show (checkNoting depth known >>= fun checked =>
      notedItems (depth + 1) items checked.2 >>= fun nodes =>
        .ok (Node.sequence none Tag.seq nodes.1, nodes.2)) = _
    rw [checkNoting_eq shallow, ok_bind, noted]
    rfl
  | @map depth entries shallow keys values keysNoted valuesNoted =>
    intro known
    obtain ⟨nodes, noted, anonymous⟩ := notedEntries_isOk keysNoted valuesNoted known
    refine ⟨.mapping none .map nodes, ?_, rfl, rfl, anonymous⟩
    rw [Node.noted, noteOnce]
    show (checkNoting depth known >>= fun checked =>
      notedEntries (depth + 1) entries checked.2 >>= fun nodes =>
        .ok (Node.mapping none Tag.map nodes.1, nodes.2)) = _
    rw [checkNoting_eq shallow, ok_bind, noted]
    rfl

end Yaml.Node

/-- Data of texts have a text. -/
theorem Yaml.write_isOk (charset : Charset) {value : Value} (plain : value.IsPlain 1) :
    ∃ text, write charset value = .ok text := by
  obtain ⟨node, noted, anonymous⟩ := Node.isNoted_of_isPlain plain []
  have made : Node.ofValue value = .ok node := by
    rw [Node.ofValue, StateT.run', noted]
    exact congrArg Except.ok (Node.rename_of_isAnonymous _ anonymous)
  refine ⟨((writeDocument charset node).indent 0).text, ?_⟩
  rw [write, made]
  rfl

end Taskbook
