/-
What is made of outlines.

All that is asked for of an ordinary table is made as a whole at once, or is a collection that is
filled later. The parts of a collection come after it, so each round of filling goes on further
back in the table, and there are no more rounds than nodes. No key of an outline is a merge key or
comes again, so a mapping keeps the entries that it is written with.
-/

import Taskbook.Proofs.Outcome
import Taskbook.Proofs.Yaml.Numbering
import Taskbook.Yaml.Document.Making

namespace Taskbook.Yaml

/-- The numbers of the parts of a node. -/
def Part.places (part : Part) : List Nat :=
  match part.content with
  | .scalar _ => []
  | .sequence items => items
  | .mapping entries => entries.flatMap fun entry => [entry.1, entry.2]

/-- What an ordinary node is made into. -/
def Part.whole (part : Part) : Made :=
  match part.content with
  | .scalar text => .scalar (.str text)
  | .sequence items => .list items
  | .mapping entries => .map entries

/-- The parts of a mapping are its keys and its values. -/
theorem Part.forall_mem_places {tag : Tag} {entries : List (Nat × Nat)} {holds : Nat → Prop} :
    (∀ place ∈ (Part.mk tag (.mapping entries)).places, holds place) ↔
      ∀ entry ∈ entries, holds entry.1 ∧ holds entry.2 := by
  simp only [places, List.mem_flatMap, List.mem_cons, List.not_mem_nil, or_false]
  constructor
  · exact fun all entry member =>
      ⟨all _ ⟨entry, member, Or.inl rfl⟩, all _ ⟨entry, member, Or.inr rfl⟩⟩
  · rintro each _ ⟨entry, member, rfl | rfl⟩
    · exact (each entry member).1
    · exact (each entry member).2

theorem IsOrdinary.later {parts : Array Part} {place : Nat} {part : Part}
    (isOrdinary : IsOrdinary parts place part) :
    ∀ inner ∈ part.places, place < inner ∧ inner < parts.size := by
  cases isOrdinary with
  | text => nofun
  | list later => exact later
  | record keysLater valuesLater =>
    exact Part.forall_mem_places.mpr fun entry member =>
      ⟨keysLater entry member, valuesLater entry member⟩

/-! ### Tables -/

section

variable {α : Type} {table : Array α} {place other : Nat}

theorem getD_setIfInBounds_self (inRange : place < table.size) (item usual : α) :
    (table.setIfInBounds place item).getD place usual = item := by
  rw [Array.getD_eq_getD_getElem?, Array.getElem?_setIfInBounds_self_of_lt inRange]
  rfl

theorem getD_setIfInBounds_of_ne (differ : place ≠ other) (item usual : α) :
    (table.setIfInBounds place item).getD other usual = table.getD other usual := by
  rw [Array.getD_eq_getD_getElem?, Array.getD_eq_getD_getElem?,
    Array.getElem?_setIfInBounds_ne differ]

/-- A place of a table holds what was written there, or what it held before. -/
theorem getD_setIfInBounds (table : Array α) (place other : Nat) (item usual : α) :
    place = other ∧ (table.setIfInBounds place item).getD other usual = item ∨
      (table.setIfInBounds place item).getD other usual = table.getD other usual := by
  by_cases same : place = other
  · subst same
    by_cases inRange : place < table.size
    · exact Or.inl ⟨rfl, getD_setIfInBounds_self inRange item usual⟩
    · exact Or.inr (by rw [Array.setIfInBounds_eq_of_size_le (Nat.not_lt.mp inRange)])
  · exact Or.inr (getD_setIfInBounds_of_ne same item usual)

end

/-! ### Merge keys -/

namespace Merging

variable {parts : Array Part} {place : Nat} {fields : List (Nat × Nat)}

theorem entries_apply (found : partAt parts place = ⟨.map, .mapping fields⟩) :
    entries place parts = .ok (fields, parts) := by
  rw [entries, bind_of_run (show part place parts = .ok (partAt parts place, parts) from rfl), found]
  rfl

/-- Without value keys nothing is retagged. -/
theorem retagValueKeys_apply (found : partAt parts place = ⟨.map, .mapping fields⟩)
    (texts : ∀ field ∈ fields, (partAt parts field.1).tag = .str) :
    retagValueKeys place parts = .ok ((), parts) := by
  rw [retagValueKeys, bind_of_run (entries_apply found)]
  clear found
  induction fields with
  | nil => rfl
  | cons field others inductionHypothesis =>
    obtain ⟨key, value⟩ := field
    have isText : tag key parts = .ok (.str, parts) := by
      show Except.ok ((partAt parts key).tag, parts) = _
      rw [texts (key, value) List.mem_cons_self]
    rw [List.forIn_cons, bind_assoc]
    refine (@bind_of_run _ _ _ _ _ _ parts (ForInStep.yield PUnit.unit) ?_ _).trans
      (inductionHypothesis fun other member => texts other (List.mem_cons_of_mem _ member))
    show (tag key >>= _) parts = _
    rw [bind_of_run isText]
    rfl

/-- Without merge keys nothing is merged. -/
theorem resolve_apply (bound : Nat) (found : partAt parts place = ⟨.map, .mapping fields⟩)
    (texts : ∀ field ∈ fields, (partAt parts field.1).tag = .str) :
    resolve bound place parts = .ok ((), parts) := by
  cases bound with
  | zero => exact retagValueKeys_apply found texts
  | succ bound =>
    have unmerged : splitAtMergeKey? parts fields = none := by
      clear found
      induction fields with
      | nil => rfl
      | cons field others inductionHypothesis =>
        rw [splitAtMergeKey?, texts field List.mem_cons_self, if_neg (by simp),
          inductionHypothesis fun other member => texts other (List.mem_cons_of_mem _ member)]
        rfl
    have taken : takeMergeKey place parts = .ok (none, parts) := by
      have whole : (get : Merging (Array Part)) parts = .ok (parts, parts) := rfl
      rw [takeMergeKey, bind_of_run whole, bind_of_run (entries_apply found), unmerged]
      rfl
    rw [resolve, bind_of_run taken]
    exact retagValueKeys_apply found texts

end Merging

namespace Making

/-! ### What is asked for -/

/-- Whether a node has been asked for. -/
def IsAsked (draft : Draft) (place : Nat) : Prop :=
  (draft.made.getD place none).isSome = true

/-- Whether what is made of a node is all of it, and its parts have been asked for. -/
def IsWhole (parts : Array Part) (draft : Draft) (place : Nat) (made : Made) : Prop :=
  made = (partAt parts place).whole ∧ ∀ part ∈ (partAt parts place).places, IsAsked draft part

/-- A table while something is made of it: what was asked for is whole, or it is a collection that
waits to be filled now or later. Those that are filled later have numbers from a level on. -/
structure Underway (parts : Array Part) (waiting : List Nat) (level : Nat) (draft : Draft) :
    Prop where
  same : draft.parts = parts
  size : draft.made.size = parts.size
  asked : ∀ place made, draft.made.getD place none = some made →
    IsWhole parts draft place made ∨
      empty? (partAt parts place).tag = some made ∧ (place ∈ waiting ∨ place ∈ draft.pending)
  deep : ∀ place ∈ draft.pending, (level ≤ place ∧ place < parts.size) ∧ IsAsked draft place

/-- What has been asked for stays so. -/
def Grows (draft next : Draft) : Prop :=
  ∀ place, IsAsked draft place → IsAsked next place

theorem Grows.refl (draft : Draft) : Grows draft draft :=
  fun _ asked => asked

theorem Grows.trans {draft middle next : Draft} (first : Grows draft middle)
    (second : Grows middle next) : Grows draft next :=
  fun place asked => second place (first place asked)

variable {parts : Array Part} {waiting : List Nat} {level : Nat} {draft : Draft}

theorem get_apply (draft : Draft) : (get : Making Draft) draft = .ok (draft, draft) :=
  rfl

theorem made?_apply (draft : Draft) (place : Nat) :
    made? place draft = .ok (draft.made.getD place none, draft) :=
  rfl

theorem part_apply (draft : Draft) (place : Nat) :
    part place draft = .ok (partAt draft.parts place, draft) :=
  rfl

/-- A draft in which something else has been made of a node. -/
def settled (draft : Draft) (place : Nat) (made : Made) : Draft :=
  { draft with made := draft.made.setIfInBounds place (some made) }

theorem getD_settled_self {place : Nat} (inRange : place < draft.made.size) (part : Made) :
    (settled draft place part).made.getD place none = some part :=
  getD_setIfInBounds_self inRange (some part) none

theorem getD_settled_of_ne {place other : Nat} (differ : place ≠ other) (part : Made) :
    (settled draft place part).made.getD other none = draft.made.getD other none :=
  getD_setIfInBounds_of_ne differ (some part) none

theorem isAsked_settled {place : Nat} (inRange : place < draft.made.size) (part : Made) :
    IsAsked (settled draft place part) place := by
  rw [IsAsked, getD_settled_self inRange]
  rfl

theorem grows_settled {place : Nat} (inRange : place < draft.made.size) (part : Made) :
    Grows draft (settled draft place part) := by
  intro other asked
  by_cases same : place = other
  · subst same
    exact isAsked_settled inRange part
  · rwa [IsAsked, getD_settled_of_ne same]

/-- A node is made as a whole when its parts have been asked for. -/
theorem Underway.whole {place : Nat} (underway : Underway parts (place :: waiting) level draft)
    (inRange : place < parts.size)
    (partsAsked : ∀ part ∈ (partAt parts place).places, IsAsked draft part) :
    Underway parts waiting level (settled draft place (partAt parts place).whole) := by
  have sized : place < draft.made.size := by rw [underway.size]; exact inRange
  have grows := grows_settled sized (partAt parts place).whole
  refine ⟨underway.same, ?_, fun other part found => ?_, fun other member =>
    ⟨(underway.deep other member).1, grows other (underway.deep other member).2⟩⟩
  · rw [settled, Array.size_setIfInBounds, underway.size]
  · by_cases same : place = other
    · subst same
      rw [getD_settled_self sized, Option.some_inj] at found
      exact Or.inl ⟨found.symm, fun part member => grows part (partsAsked part member)⟩
    · rw [getD_settled_of_ne same] at found
      rcases underway.asked other part found with ⟨whole, othersAsked⟩ | ⟨empty, waits⟩
      · exact Or.inl ⟨whole, fun part member => grows part (othersAsked part member)⟩
      · refine Or.inr ⟨empty, waits.imp_left fun member => ?_⟩
        exact (List.mem_cons.mp member).resolve_left (Ne.symm same)

theorem Underway.mono {fewer : List Nat} (underway : Underway parts fewer level draft)
    (within : fewer ⊆ waiting) : Underway parts waiting level draft where
  same := underway.same
  size := underway.size
  asked place made found := (underway.asked place made found).imp_right fun empty =>
    ⟨empty.1, empty.2.imp_left fun member => within member⟩
  deep := underway.deep

/-- A collection that is asked for waits to be filled. -/
theorem Underway.empty {place : Nat} (underway : Underway parts waiting level draft)
    (inRange : place < parts.size) (later : level ≤ place) (fresh : ¬IsAsked draft place)
    {empty : Made} (made : empty? (partAt parts place).tag = some empty) :
    Underway parts waiting level
      { settled draft place empty with pending := place :: draft.pending } := by
  have sized : place < draft.made.size := by rw [underway.size]; exact inRange
  have grows := grows_settled sized empty
  refine ⟨underway.same, ?_, fun other part found => ?_, fun other member => ?_⟩
  · show (settled draft place empty).made.size = _
    rw [settled, Array.size_setIfInBounds, underway.size]
  · by_cases same : place = other
    · subst same
      rw [getD_settled_self sized, Option.some_inj] at found
      exact Or.inr ⟨found ▸ made, Or.inr List.mem_cons_self⟩
    · rw [getD_settled_of_ne same] at found
      rcases underway.asked other part found with ⟨whole, othersAsked⟩ | ⟨empty, waits⟩
      · exact Or.inl ⟨whole, fun part member => grows part (othersAsked part member)⟩
      · exact Or.inr ⟨empty, waits.imp_right (List.mem_cons_of_mem _)⟩
  · rcases List.mem_cons.mp member with rfl | further
    · exact ⟨⟨later, inRange⟩, isAsked_settled sized empty⟩
    · exact ⟨(underway.deep other further).1, grows other (underway.deep other further).2⟩

theorem scalarValue_text {place : Nat} {text : String}
    (found : partAt parts place = ⟨.str, .scalar text⟩) :
    scalarValue parts place = .ok (.str text) := by
  rw [scalarValue, scalarText, found]
  rfl

/-- What a computation that asks for nodes does: the table is underway and what was asked for stays
so, and something holds of what is told and of the table. -/
def Asks {α : Type} (parts : Array Part) (waiting : List Nat) (level : Nat) (draft : Draft)
    (making : Making α) (holds : α → Draft → Prop) : Prop :=
  ∃ value next, making draft = .ok (value, next) ∧ Underway parts waiting level next ∧
    Grows draft next ∧ holds value next

section

variable {α β : Type} {holds : α → Draft → Prop} {further : β → Draft → Prop}

theorem Asks.of_run {making : Making α} (value : α) (ran : making draft = .ok (value, draft))
    (underway : Underway parts waiting level draft) (fits : holds value draft) :
    Asks parts waiting level draft making holds :=
  ⟨value, draft, ran, underway, Grows.refl draft, fits⟩

theorem Asks.bind {making : Making α} {goesOn : α → Making β}
    (asks : Asks parts waiting level draft making holds)
    (rest : ∀ value next, Underway parts waiting level next → Grows draft next →
      holds value next → Asks parts waiting level next (goesOn value) further) :
    Asks parts waiting level draft (making >>= goesOn) further := by
  obtain ⟨value, middle, ran, underway, grows, fits⟩ := asks
  obtain ⟨result, next, went, underwayNext, growsNext, fitsNext⟩ :=
    rest value middle underway grows fits
  refine ⟨result, next, ?_, underwayNext, grows.trans growsNext, fitsNext⟩
  rw [bind_of_run ran]
  exact went

/-- What tells something about the table goes on with it. -/
theorem Asks.after {making : Making α} {goesOn : α → Making β} {value : α}
    (ran : making draft = .ok (value, draft))
    (rest : Asks parts waiting level draft (goesOn value) further) :
    Asks parts waiting level draft (making >>= goesOn) further := by
  rw [Asks, bind_of_run ran]
  exact rest

end

section

variable {place : Nat}

/-- Nothing is made of a node that has been asked for. -/
theorem asks_ask_of_asked (underway : Underway parts waiting level draft)
    (asked : IsAsked draft place) :
    Asks parts waiting level draft (ask place) fun _ next => IsAsked next place := by
  refine Asks.of_run () ?_ underway asked
  rw [ask, bind_of_run (made?_apply draft place), asked]
  rfl

/-- A collection waits to be filled. -/
theorem asks_ask_collection (underway : Underway parts waiting level draft)
    (inRange : place < parts.size) (later : level ≤ place)
    (fresh : (draft.made.getD place none).isSome = false) {empty : Made}
    (isEmpty : empty? (partAt parts place).tag = some empty) :
    Asks parts waiting level draft (ask place) fun _ next => IsAsked next place := by
  have sized : place < draft.made.size := by rw [underway.size]; exact inRange
  refine ⟨(), { settled draft place empty with pending := place :: draft.pending }, ?_,
    underway.empty inRange later (by rw [IsAsked, fresh]; nofun) isEmpty, grows_settled sized empty,
    isAsked_settled sized empty⟩
  rw [ask, bind_of_run (made?_apply draft place), fresh]
  refine (bind_of_run (part_apply draft place) _).trans ?_
  rw [underway.same, isEmpty]
  rfl

/-- A text is made at once. -/
theorem asks_ask_text (underway : Underway parts waiting level draft) (inRange : place < parts.size)
    (fresh : (draft.made.getD place none).isSome = false) {text : String}
    (found : partAt parts place = ⟨.str, .scalar text⟩) :
    Asks parts waiting level draft (ask place) fun _ next => IsAsked next place := by
  have sized : place < draft.made.size := by rw [underway.size]; exact inRange
  have value : (liftM (scalarValue draft.parts place) : Making Value) draft =
      .ok (.str text, draft) := by
    rw [underway.same, scalarValue_text found]
    rfl
  have whole := (underway.mono (List.subset_cons_self place waiting)).whole inRange
    fun part member => by rw [found] at member; cases member
  rw [found] at whole
  refine ⟨(), settled draft place (.scalar (.str text)), ?_, whole, grows_settled sized _,
    isAsked_settled sized _⟩
  rw [ask, bind_of_run (made?_apply draft place), fresh]
  refine (bind_of_run (part_apply draft place) _).trans ?_
  rw [underway.same, found]
  show ((liftM (scalarValue draft.parts place) : Making Value) >>= fun value =>
    make place (.scalar value)) draft = _
  rw [bind_of_run value]
  rfl

/-- What is asked for is made, or waits to be filled. -/
theorem asks_ask (ordinary : AreOrdinary parts 0 parts.size)
    (underway : Underway parts waiting level draft) (inRange : place < parts.size)
    (later : level ≤ place) :
    Asks parts waiting level draft (ask place) fun _ next => IsAsked next place := by
  cases asked : (draft.made.getD place none).isSome with
  | true => exact asks_ask_of_asked underway asked
  | false =>
    have isOrdinary := ordinary place (Nat.zero_le _) inRange
    obtain ⟨part, isPart⟩ : ∃ part, partAt parts place = part := ⟨_, rfl⟩
    rw [isPart] at isOrdinary
    cases isOrdinary with
    | text text => exact asks_ask_text underway inRange asked isPart
    | list => exact asks_ask_collection underway inRange later asked (by rw [isPart]; rfl)
    | record => exact asks_ask_collection underway inRange later asked (by rw [isPart]; rfl)

end

/-! ### Filling -/

/-- All that is asked for at once is made, or waits to be filled. -/
theorem asks_forM_ask (ordinary : AreOrdinary parts 0 parts.size) {places : List Nat}
    (inRange : ∀ place ∈ places, level ≤ place ∧ place < parts.size)
    (underway : Underway parts waiting level draft) :
    Asks parts waiting level draft (places.forM ask) fun _ next =>
      ∀ place ∈ places, IsAsked next place := by
  induction places generalizing draft with
  | nil => exact Asks.of_run () rfl underway nofun
  | cons place others inductionHypothesis =>
    obtain ⟨⟨later, inTable⟩, othersInRange⟩ := List.forall_mem_cons.mp inRange
    show Asks parts waiting level draft (ask place >>= fun _ => others.forM ask) _
    refine (asks_ask ordinary underway inTable later).bind fun _ middle underwayThen _ asked => ?_
    obtain ⟨_, next, asking, underwayNext, grows, othersAsked⟩ :=
      inductionHypothesis othersInRange underwayThen
    exact ⟨(), next, asking, underwayNext, grows,
      List.forall_mem_cons.mpr ⟨grows place asked, othersAsked⟩⟩

/-- What has been made of a node that was asked for is all of it, or an empty collection. -/
theorem Underway.made_eq (underway : Underway parts waiting level draft) {place : Nat}
    (asked : IsAsked draft place) :
    draft.made.getD place none = some (partAt parts place).whole ∨
      draft.made.getD place none = empty? (partAt parts place).tag := by
  obtain ⟨made, isMade⟩ := Option.isSome_iff_exists.mp asked
  rcases underway.asked place made isMade with ⟨rfl, -⟩ | ⟨empty, -⟩
  · exact Or.inl isMade
  · exact Or.inr (isMade.trans empty.symm)

theorem Underway.text (underway : Underway parts waiting level draft) {place : Nat}
    (asked : IsAsked draft place) {text : String}
    (found : partAt parts place = ⟨.str, .scalar text⟩) :
    draft.made.getD place none = some (.scalar (.str text)) := by
  rcases underway.made_eq asked with whole | empty
  · rw [whole, found]
    rfl
  · rw [IsAsked, empty, found] at asked
    cases asked

theorem asks_askKey (ordinary : AreOrdinary parts 0 parts.size)
    (underway : Underway parts waiting level draft) {place : Nat} (inRange : place < parts.size)
    (later : level ≤ place) {name : String}
    (found : partAt parts place = ⟨.str, .scalar name⟩) :
    Asks parts waiting level draft (askKey place) fun _ next => IsAsked next place := by
  refine (asks_ask ordinary underway inRange later).bind fun _ next underwayNext _ asked => ?_
  refine Asks.after (made?_apply next place) ?_
  rw [underwayNext.text asked found]
  exact Asks.of_run () rfl underwayNext asked

/-- An entry whose key has not come before is put at the end. -/
theorem putEntry_of_fresh (underway : Underway parts waiting level draft)
    {entries : List (Nat × Nat)} {entry : Nat × Nat}
    (named : ∀ other ∈ entries ++ [entry], IsAsked draft other.1 ∧
      ∃ name, partAt parts other.1 = ⟨.str, .scalar name⟩)
    (fresh : ∀ other ∈ entries, partAt parts other.1 ≠ partAt parts entry.1) :
    putEntry draft entries entry = entries ++ [entry] := by
  obtain ⟨asked, name, found⟩ := named entry (List.mem_append_right _ List.mem_cons_self)
  have made := underway.text asked found
  induction entries with
  | nil => rfl
  | cons other rest inductionHypothesis =>
    obtain ⟨otherAsked, otherName, otherFound⟩ := named other List.mem_cons_self
    have otherMade := underway.text otherAsked otherFound
    have differ := fresh other List.mem_cons_self
    have distinct : isSameKey draft other.1 entry.1 = false := by
      have places : other.1 ≠ entry.1 := fun same => differ (by rw [same])
      have names : otherName ≠ name := fun same => differ (by rw [otherFound, found, same])
      rw [isSameKey, otherMade, made, isNamedNaNAt, underway.same, otherFound,
        decide_eq_false places]
      show (false || Value.same (.str otherName) (.str name)) = false
      simp only [Bool.false_or, Value.same, Value.sameScalar]
      exact decide_eq_false names
    rw [putEntry, distinct, inductionHypothesis
      (fun another member => named another (List.mem_cons_of_mem _ member))
      (fun another member => fresh another (List.mem_cons_of_mem _ member))]
    rfl

/-- Asks for the key and the value of an entry and puts it to those before it. -/
def askEntry (entries : List (Nat × Nat)) (entry : Nat × Nat) : Making (List (Nat × Nat)) := do
  askKey entry.1
  ask entry.2
  return putEntry (← get) entries entry

/-- An entry with a new key is asked for and put at the end. -/
theorem asks_askEntry (ordinary : AreOrdinary parts 0 parts.size)
    (underway : Underway parts waiting level draft) {entries : List (Nat × Nat)}
    {entry : Nat × Nat}
    (inRange : (level ≤ entry.1 ∧ entry.1 < parts.size) ∧
      (level ≤ entry.2 ∧ entry.2 < parts.size))
    (named : ∀ other ∈ entries ++ [entry], ∃ name, partAt parts other.1 = ⟨.str, .scalar name⟩)
    (fresh : ∀ other ∈ entries, partAt parts other.1 ≠ partAt parts entry.1)
    (asked : ∀ other ∈ entries, IsAsked draft other.1 ∧ IsAsked draft other.2) :
    Asks parts waiting level draft (askEntry entries entry) fun result next =>
      result = entries ++ [entry] ∧
        ∀ other ∈ entries ++ [entry], IsAsked next other.1 ∧ IsAsked next other.2 := by
  obtain ⟨keyInRange, valueInRange⟩ := inRange
  obtain ⟨name, found⟩ := named entry (List.mem_append_right _ List.mem_cons_self)
  refine (asks_askKey ordinary underway keyInRange.2 keyInRange.1 found).bind
    fun _ early underwayEarly growsEarly keyAsked => ?_
  refine (asks_ask ordinary underwayEarly valueInRange.2 valueInRange.1).bind
    fun _ next underwayNext growsNext valueAsked => ?_
  have allAsked : ∀ other ∈ entries ++ [entry], IsAsked next other.1 ∧ IsAsked next other.2 := by
    intro other member
    rcases List.mem_append.mp member with before | here
    · have otherAsked := asked other before
      exact ⟨growsNext _ (growsEarly _ otherAsked.1), growsNext _ (growsEarly _ otherAsked.2)⟩
    · rw [List.mem_singleton.mp here]
      exact ⟨growsNext _ keyAsked, valueAsked⟩
  have put : putEntry next entries entry = entries ++ [entry] :=
    putEntry_of_fresh underwayNext
      (fun other member => ⟨(allAsked other member).1, named other member⟩) fresh
  exact Asks.after (get_apply next) (Asks.of_run _ rfl underwayNext ⟨put, allAsked⟩)

/-- The entries of a mapping are asked for one after the other and stay as they are. -/
theorem asks_foldlM_askEntry (ordinary : AreOrdinary parts 0 parts.size)
    (underway : Underway parts waiting level draft) (entries : List (Nat × Nat))
    {others : List (Nat × Nat)}
    (inRange : ∀ entry ∈ others, (level ≤ entry.1 ∧ entry.1 < parts.size) ∧
      (level ≤ entry.2 ∧ entry.2 < parts.size))
    (named : ∀ entry ∈ entries ++ others, ∃ name, partAt parts entry.1 = ⟨.str, .scalar name⟩)
    (distinct : ((entries ++ others).map fun entry => partAt parts entry.1).Nodup)
    (asked : ∀ entry ∈ entries, IsAsked draft entry.1 ∧ IsAsked draft entry.2) :
    Asks parts waiting level draft (others.foldlM askEntry entries) fun result next =>
      result = entries ++ others ∧
        ∀ entry ∈ entries ++ others, IsAsked next entry.1 ∧ IsAsked next entry.2 := by
  induction others generalizing entries draft with
  | nil =>
    rw [List.append_nil]
    exact Asks.of_run _ rfl underway ⟨rfl, asked⟩
  | cons entry others inductionHypothesis =>
    have fresh : ∀ other ∈ entries, partAt parts other.1 ≠ partAt parts entry.1 := by
      rw [List.map_append, List.nodup_append] at distinct
      exact fun other member => distinct.2.2 _ (List.mem_map_of_mem member) _
        (List.mem_map_of_mem List.mem_cons_self)
    have regroup : entries ++ entry :: others = entries ++ [entry] ++ others := by simp
    rw [regroup] at named distinct ⊢
    rw [List.foldlM_cons]
    refine (asks_askEntry ordinary underway (inRange entry List.mem_cons_self)
      (fun other member => named other (List.mem_append_left _ member)) fresh asked).bind ?_
    rintro _ middle underwayThen - ⟨rfl, askedThen⟩
    exact inductionHypothesis underwayThen (entries ++ [entry])
      (fun other member => inRange other (List.mem_cons_of_mem _ member)) named distinct askedThen

theorem ofMerging_apply {α : Type} {merging : Merging α} {result : α} (same : draft.parts = parts)
    (ran : merging parts = .ok (result, parts)) :
    ofMerging merging draft = .ok (result, draft) := by
  have lifted : (liftM (merging.run draft.parts) : Making (α × Array Part)) draft =
      .ok ((result, draft.parts), draft) := by
    rw [same]
    show (merging parts >>= fun result => Except.ok (result, draft)) = _
    rw [ran]
    rfl
  rw [ofMerging, bind_of_run (get_apply draft), bind_of_run lifted]
  rfl

/-- No entries are merged into a mapping of texts, and those it has are asked for. -/
theorem asks_askEntries (ordinary : AreOrdinary parts 0 parts.size)
    (underway : Underway parts waiting level draft) {place : Nat} {entries : List (Nat × Nat)}
    (found : partAt parts place = ⟨.map, .mapping entries⟩)
    (inRange : ∀ entry ∈ entries, (level ≤ entry.1 ∧ entry.1 < parts.size) ∧
      (level ≤ entry.2 ∧ entry.2 < parts.size))
    (named : ∀ entry ∈ entries, ∃ name, partAt parts entry.1 = ⟨.str, .scalar name⟩)
    (distinct : (entries.map fun entry => partAt parts entry.1).Nodup) :
    Asks parts waiting level draft (askEntries place) fun result next =>
      result = entries ∧ ∀ entry ∈ entries, IsAsked next entry.1 ∧ IsAsked next entry.2 := by
  have texts : ∀ entry ∈ entries, (partAt parts entry.1).tag = .str := by
    intro entry member
    obtain ⟨name, isText⟩ := named entry member
    rw [isText]
  have merging (bound : Nat) : ((do
      let _ ← Merging.entries place
      Merging.resolve bound place
      Merging.entries place : Merging (List (Nat × Nat)))) parts = .ok (entries, parts) := by
    rw [bind_of_run (Merging.entries_apply found),
      bind_of_run (Merging.resolve_apply bound found texts)]
    exact Merging.entries_apply found
  have merged (bound : Nat) := ofMerging_apply underway.same (merging bound)
  exact Asks.after (get_apply draft) (Asks.after (merged _)
    (asks_foldlM_askEntry ordinary underway [] inRange named distinct nofun))

section

variable {place : Nat}

/-- Nothing is left to fill of a text. -/
theorem asks_fill_text (underway : Underway parts (place :: waiting) level draft)
    (asked : IsAsked draft place) {text : String}
    (found : partAt parts place = ⟨.str, .scalar text⟩) :
    Asks parts waiting level draft (fill place) fun _ _ => True := by
  have filled : Underway parts waiting level draft := by
    refine ⟨underway.same, underway.size, fun other part isMade => ?_, underway.deep⟩
    refine (underway.asked other part isMade).imp_right fun empty => ⟨empty.1, ?_⟩
    refine empty.2.imp_left fun member => (List.mem_cons.mp member).resolve_left ?_
    rintro rfl
    rw [found] at empty
    cases empty.1
  refine Asks.of_run () ?_ filled trivial
  rw [fill, bind_of_run (made?_apply draft place), underway.text asked found]
  rfl

/-- A collection is whole when all its parts have been asked for. -/
theorem asks_make_whole {α : Type} {asking : Making α} (whole : α → Made)
    (inRange : place < parts.size)
    (asks : Asks parts (place :: waiting) level draft asking fun value next =>
      whole value = (partAt parts place).whole ∧
        ∀ part ∈ (partAt parts place).places, IsAsked next part) :
    Asks parts waiting level draft (asking >>= fun value => make place (whole value))
      fun _ _ => True := by
  obtain ⟨value, next, ran, underwayNext, grows, isWhole, partsAsked⟩ := asks
  have sized : place < next.made.size := by rw [underwayNext.size]; exact inRange
  refine ⟨(), settled next place (whole value), ?_, ?_, grows.trans (grows_settled sized _),
    trivial⟩
  · rw [bind_of_run ran]
    rfl
  · rw [isWhole]
    exact underwayNext.whole inRange partsAsked

theorem asks_fill_list (ordinary : AreOrdinary parts 0 parts.size)
    (underway : Underway parts (place :: waiting) level draft) (inRange : place < parts.size)
    (later : level ≤ place + 1) (asked : IsAsked draft place) {items : List Nat}
    (found : partAt parts place = ⟨.seq, .sequence items⟩)
    (itemsLater : ∀ item ∈ items, place < item ∧ item < parts.size) :
    Asks parts waiting level draft (fill place) fun _ _ => True := by
  obtain ⟨known, isMade⟩ : ∃ known, draft.made.getD place none = some (.list known) := by
    rcases underway.made_eq asked with whole | empty
    · exact ⟨items, whole.trans (by rw [found]; rfl)⟩
    · exact ⟨[], empty.trans (by rw [found]; rfl)⟩
  have itemsFound : itemsOf place draft = .ok (items, draft) := by
    rw [itemsOf, bind_of_run (part_apply draft place), underway.same, found]
    rfl
  have inTable : ∀ item ∈ items, level ≤ item ∧ item < parts.size := fun item member => by
    have inRange := itemsLater item member
    omega
  rw [fill]
  refine Asks.after (made?_apply draft place) ?_
  rw [isMade]
  refine Asks.after itemsFound (asks_make_whole _ inRange ?_)
  rw [found]
  obtain ⟨_, next, asking, underwayNext, grows, itemsAsked⟩ :=
    asks_forM_ask ordinary inTable underway
  exact ⟨(), next, asking, underwayNext, grows, rfl, itemsAsked⟩

theorem asks_fill_record (ordinary : AreOrdinary parts 0 parts.size)
    (underway : Underway parts (place :: waiting) level draft) (inRange : place < parts.size)
    (later : level ≤ place + 1) (asked : IsAsked draft place) {entries : List (Nat × Nat)}
    (found : partAt parts place = ⟨.map, .mapping entries⟩)
    (entriesLater : ∀ entry ∈ entries, (place < entry.1 ∧ entry.1 < parts.size) ∧
      (place < entry.2 ∧ entry.2 < parts.size))
    (named : ∀ entry ∈ entries, ∃ name, partAt parts entry.1 = ⟨.str, .scalar name⟩)
    (distinct : (entries.map fun entry => partAt parts entry.1).Nodup) :
    Asks parts waiting level draft (fill place) fun _ _ => True := by
  obtain ⟨known, isMade⟩ : ∃ known, draft.made.getD place none = some (.map known) := by
    rcases underway.made_eq asked with whole | empty
    · exact ⟨entries, whole.trans (by rw [found]; rfl)⟩
    · exact ⟨[], empty.trans (by rw [found]; rfl)⟩
  have inTable : ∀ entry ∈ entries, (level ≤ entry.1 ∧ entry.1 < parts.size) ∧
      (level ≤ entry.2 ∧ entry.2 < parts.size) := fun entry member => by
    have inRange := entriesLater entry member
    omega
  rw [fill]
  refine Asks.after (made?_apply draft place) ?_
  rw [isMade]
  refine asks_make_whole Made.map inRange ?_
  rw [found]
  obtain ⟨_, next, asking, underwayNext, grows, rfl, entriesAsked⟩ :=
    asks_askEntries ordinary underway found inTable named distinct
  exact ⟨_, next, asking, underwayNext, grows, rfl, Part.forall_mem_places.mpr entriesAsked⟩

/-- A collection is filled when all its parts have been asked for. -/
theorem asks_fill (ordinary : AreOrdinary parts 0 parts.size)
    (underway : Underway parts (place :: waiting) level draft) (inRange : place < parts.size)
    (later : level ≤ place + 1) (asked : IsAsked draft place) :
    Asks parts waiting level draft (fill place) fun _ _ => True := by
  have isOrdinary := ordinary place (Nat.zero_le _) inRange
  obtain ⟨part, isPart⟩ : ∃ part, partAt parts place = part := ⟨_, rfl⟩
  rw [isPart] at isOrdinary
  cases isOrdinary with
  | text text => exact asks_fill_text underway asked isPart
  | list itemsLater => exact asks_fill_list ordinary underway inRange later asked isPart itemsLater
  | record keysLater valuesLater named distinct =>
    exact asks_fill_record ordinary underway inRange later asked isPart
      (fun entry member => ⟨keysLater entry member, valuesLater entry member⟩) named distinct

end

theorem asks_forM_fill (ordinary : AreOrdinary parts 0 parts.size)
    (underway : Underway parts waiting level draft)
    (ready : ∀ place ∈ waiting, (level ≤ place + 1 ∧ place < parts.size) ∧ IsAsked draft place) :
    Asks parts [] level draft (waiting.forM fill) fun _ _ => True := by
  induction waiting generalizing draft with
  | nil => exact Asks.of_run () rfl underway trivial
  | cons place others inductionHypothesis =>
    obtain ⟨⟨⟨later, inRange⟩, asked⟩, othersReady⟩ := List.forall_mem_cons.mp ready
    obtain ⟨_, middle, filling, underwayThen, grows, -⟩ :=
      asks_fill ordinary underway inRange later asked
    obtain ⟨_, next, rest, underwayNext, growsNext, -⟩ := inductionHypothesis underwayThen
      fun other member => ⟨(othersReady other member).1, grows other (othersReady other member).2⟩
    refine ⟨(), next, ?_, underwayNext, grows.trans growsNext, trivial⟩
    show (fill place >>= fun _ => List.forM _ fill) draft = _
    rw [bind_of_run filling]
    exact rest

/-- All that waits now is filled in the next round, and what it asks for is further back. -/
theorem Underway.nextRound (underway : Underway parts [] level draft) :
    Underway parts draft.pending.reverse (level + 1) { draft with pending := [] } := by
  refine ⟨underway.same, underway.size, fun place made found => ?_, nofun⟩
  refine (underway.asked place made found).imp_right fun empty => ⟨empty.1, Or.inl ?_⟩
  exact List.mem_reverse.mpr (empty.2.resolve_left List.not_mem_nil)

/-- The collections that wait are filled round by round, each round further back in the table. -/
theorem asks_fillPending (ordinary : AreOrdinary parts 0 parts.size) {bound : Nat}
    (enough : parts.size ≤ level + bound) (underway : Underway parts [] level draft) :
    ∃ last, Asks parts [] last draft (fillPending bound) fun _ next => next.pending = [] := by
  induction bound generalizing level draft with
  | zero =>
    refine ⟨level, Asks.of_run () rfl underway ?_⟩
    refine List.eq_nil_iff_forall_not_mem.mpr fun place member => ?_
    have deep := (underway.deep place member).1
    omega
  | succ bound inductionHypothesis =>
    cases waiting : draft.pending.isEmpty with
    | true =>
      refine ⟨level, Asks.of_run () ?_ underway (List.isEmpty_iff.mp waiting)⟩
      rw [fillPending, bind_of_run (get_apply draft), waiting]
      rfl
    | false =>
      obtain ⟨_, middle, filling, underwayThen, grows, -⟩ :=
        asks_forM_fill ordinary underway.nextRound fun place member => by
          obtain ⟨deep, asked⟩ := underway.deep place (List.mem_reverse.mp member)
          exact ⟨⟨by omega, deep.2⟩, asked⟩
      obtain ⟨last, _, next, rest, underwayNext, growsNext, done⟩ :=
        inductionHypothesis (show parts.size ≤ level + 1 + bound by omega) underwayThen
      have grown : Grows draft next := fun place asked => growsNext place (grows place asked)
      refine ⟨last, (), next, ?_, underwayNext, grown, done⟩
      have emptied : (modify fun draft => { draft with pending := [] } : Making Unit) draft =
          .ok ((), { draft with pending := [] }) :=
        rfl
      rw [fillPending, bind_of_run (get_apply draft), waiting]
      show ((modify fun draft => { draft with pending := [] } : Making Unit) >>= _) draft = _
      rw [bind_of_run emptied, bind_of_run filling]
      exact rest

end Making

/-! ### Documents -/

/-- What is made of an ordinary table whose first node is asked for: everything that is made is
whole, and its parts are made too. -/
structure IsMade (parts : Array Part) (made : Array (Option Made)) : Prop where
  size : made.size = parts.size
  first : (made.getD 0 none).isSome = true
  whole : ∀ place part, made.getD place none = some part →
    part = (partAt parts place).whole ∧
      ∀ inner ∈ (partAt parts place).places, (made.getD inner none).isSome = true

/-- Everything is made of an ordinary table that is asked for its first node. -/
theorem Document.make_eq_ok {parts : Array Part} (ordinary : AreOrdinary parts 0 parts.size)
    (filled : 0 < parts.size) :
    ∃ made, (Document.mk parts 0).make = .ok made ∧ IsMade parts made := by
  obtain ⟨draft, isDraft⟩ : ∃ draft : Draft, draft = ⟨parts, parts.map fun _ => none, [],
    Merging.mergeKeyCount parts, parts.size⟩ := ⟨_, rfl⟩
  have nothing (place : Nat) : draft.made.getD place none = none := by
    rw [isDraft, Array.getD_eq_getD_getElem?, Array.getElem?_map]
    cases parts[place]? with
    | none => rfl
    | some part => rfl
  have untouched : Making.Underway parts [] 0 draft := by
    refine ⟨by rw [isDraft], by rw [isDraft, Array.size_map], fun place made found => ?_,
      fun place member => ?_⟩
    · rw [nothing] at found
      cases found
    · rw [isDraft] at member
      exact absurd member List.not_mem_nil
  obtain ⟨_, middle, asking, underway, -, asked⟩ :=
    Making.asks_ask ordinary untouched filled (Nat.zero_le _)
  obtain ⟨level, _, next, filling, complete, grows, done⟩ := Making.asks_fillPending ordinary
    (show parts.size ≤ 0 + (parts.size + 1) by omega) underway
  refine ⟨next.made, ?_, complete.size, grows 0 asked, fun place part found => ?_⟩
  · rw [Document.make]
    show ((Making.ask 0 >>= fun _ => Making.fillPending (parts.size + 1)) _ >>= fun result =>
      Except.ok result.2.made) = _
    rw [← isDraft, bind_of_run asking, filling]
    rfl
  · rcases complete.asked place part found with whole | ⟨-, waits | waits⟩
    · exact whole
    · exact absurd waits List.not_mem_nil
    · rw [done] at waits
      exact absurd waits List.not_mem_nil

end Taskbook.Yaml
