/-
No key twice.

Where a key of a mapping comes again in a text, the mapping takes the later value for it. So no two
keys of a mapping that is read are equal, wherever the mapping is, and also where mappings are parts
of themselves.

Keys are scalars, and what has been made of a scalar stays. So a mapping whose keys differ when it
is filled is right, whatever is filled later.
-/

import Taskbook.Proofs.Manifest.Grammar
import Taskbook.Proofs.Yaml.Making
import Taskbook.Yaml.Reader

namespace Taskbook

/-! ### Values whose keys differ -/

namespace Value

/-- No two keys of some entries are equal. -/
def AreKeyed (entries : List (Value × Value)) : Prop :=
  entries.Pairwise fun first second => same first.1 second.1 = false

/-- No mapping in a value has two equal keys. -/
def IsKeyed (value : Value) : Prop :=
  ∀ inner : Value, inner.IsInside value → ∀ entries, inner.entries? = some entries →
    AreKeyed entries

/-- A value without parts. -/
structure IsLeaf (value : Value) : Prop where
  entries : value.entries? = none
  parts : value.parts = []

variable {value : Value}

theorem same_str (text : String) : same (.str text) (.str text) = true := by
  simp [same, sameScalar]

theorem isKeyed_of_parts (own : ∀ entries, value.entries? = some entries → AreKeyed entries)
    (parts : ∀ part ∈ value.parts, part.IsKeyed) : value.IsKeyed :=
  forall_inside own parts

theorem isKeyed_of_entryless (none : value.entries? = none)
    (parts : ∀ part ∈ value.parts, part.IsKeyed) : value.IsKeyed :=
  isKeyed_of_parts (fun entries opened => by rw [none] at opened; cases opened) parts

theorem IsKeyed.inside {inner : Value} (keyed : value.IsKeyed) (inside : inner.IsInside value) :
    inner.IsKeyed :=
  fun further deeper => keyed further (inside.trans deeper)

/-- What a field of a record holds has no equal keys if nothing in the record has. -/
theorem IsKeyed.areKeyed {fields entries : List (Value × Value)} (keyed : value.IsKeyed)
    (opened : value.entries? = some fields) {name : String}
    (given : mappingAt? fields name = some entries) : AreKeyed entries :=
  holds_of_mappingAt? keyed .nil opened given

theorem IsLeaf.isKeyed (leaf : value.IsLeaf) : value.IsKeyed :=
  isKeyed_of_entryless leaf.entries fun part member => by rw [leaf.parts] at member; cases member

end Value

namespace Yaml

open Value

/-! ### Scalars -/

theorem isLeaf_numbered {place : Nat} {value : Value} (leaf : value.IsLeaf) :
    (numbered place value).IsLeaf := by
  cases value with
  | date anchor day => exact ⟨rfl, rfl⟩
  | moment anchor point => exact ⟨rfl, rfl⟩
  | _ => exact leaf

/-- Numbers of nodes play no part in what is equal. -/
theorem same_numbered (place other : Nat) (first second : Value) :
    (numbered place first).same (numbered other second) = first.same second := by
  have left (value : Value) : (numbered place first).same value = first.same value := by
    cases first with
    | date anchor day => cases value <;> simp only [numbered, same] <;> rfl
    | moment anchor point => cases value <;> simp only [numbered, same] <;> rfl
    | _ => rfl
  have right : first.same (numbered other second) = first.same second := by
    cases second with
    | date anchor day => cases first <;> simp only [numbered, same] <;> rfl
    | moment anchor point => cases first <;> simp only [numbered, same] <;> rfl
    | _ => rfl
  rw [left, right]

section

variable {value : Value}

theorem isLeaf_truthValue {text : String} (read : truthValue text = .ok value) : value.IsLeaf := by
  unfold truthValue at read
  dsimp only at read
  split at read
  · obtain rfl := Except.ok.inj read
    exact ⟨rfl, rfl⟩
  · split at read
    · obtain rfl := Except.ok.inj read
      exact ⟨rfl, rfl⟩
    · cases read

theorem isLeaf_integer {text : List Char} (read : integer text = .ok value) : value.IsLeaf := by
  rw [integer] at read
  obtain ⟨signed, -, read⟩ := bind_eq_ok.mp read
  obtain ⟨number, -, read⟩ := bind_eq_ok.mp read
  obtain rfl := Except.ok.inj read
  exact ⟨rfl, rfl⟩

theorem isLeaf_float {text : List Char} (read : float text = .ok value) : value.IsLeaf := by
  rw [float] at read
  obtain ⟨signed, -, read⟩ := bind_eq_ok.mp read
  obtain ⟨number, -, read⟩ := bind_eq_ok.mp read
  obtain rfl := Except.ok.inj read
  exact ⟨rfl, rfl⟩

theorem isLeaf_octets {text : List Char} (read : octets text = .ok value) : value.IsLeaf := by
  unfold octets at read
  split at read
  · split at read
    · obtain rfl := Except.ok.inj read
      exact ⟨rfl, rfl⟩
    · cases read
  · cases read

theorem isLeaf_pointInTime {text : List Char} (read : pointInTime text = .ok value) :
    value.IsLeaf := by
  rw [pointInTime] at read
  obtain ⟨stamp, -, read⟩ := bind_eq_ok.mp read
  unfold stampValue at read
  split at read
  · obtain ⟨day, -, read⟩ := bind_eq_ok.mp read
    obtain rfl := Except.ok.inj read
    exact ⟨rfl, rfl⟩
  · obtain ⟨day, -, read⟩ := bind_eq_ok.mp read
    obtain ⟨point, -, read⟩ := bind_eq_ok.mp read
    obtain rfl := Except.ok.inj read
    exact ⟨rfl, rfl⟩

/-- A scalar stands for a value without parts. -/
theorem isLeaf_scalarValue {parts : Array Part} {place : Nat}
    (read : Making.scalarValue parts place = .ok value) : value.IsLeaf := by
  unfold Making.scalarValue at read
  dsimp only at read
  split at read
  · obtain ⟨text, -, read⟩ := bind_eq_ok.mp read
    obtain rfl := Except.ok.inj read
    exact ⟨rfl, rfl⟩
  · obtain ⟨text, -, read⟩ := bind_eq_ok.mp read
    exact isLeaf_truthValue read
  · obtain ⟨text, -, read⟩ := bind_eq_ok.mp read
    exact isLeaf_integer read
  · obtain ⟨text, -, read⟩ := bind_eq_ok.mp read
    exact isLeaf_float read
  · obtain ⟨text, -, read⟩ := bind_eq_ok.mp read
    obtain rfl := Except.ok.inj read
    exact ⟨rfl, rfl⟩
  · obtain ⟨text, -, read⟩ := bind_eq_ok.mp read
    exact isLeaf_octets read
  · obtain ⟨text, -, read⟩ := bind_eq_ok.mp read
    unfold Making.stampOf at read
    split at read
    · exact isLeaf_pointInTime read
    · cases read
  · cases read

end

/-! ### What is made of a document -/

/-- The value that is made, if that is a scalar. -/
def Made.scalar? : Made → Option Value
  | .scalar value => some value
  | _ => none

variable {made next last : Array (Option Made)}

/-- What has been made stays the same scalar, or a collection. -/
def Keeps (made next : Array (Option Made)) : Prop :=
  ∀ place found, made.getD place none = some found →
    ∃ later, next.getD place none = some later ∧ later.scalar? = found.scalar?

theorem Keeps.refl (made : Array (Option Made)) : Keeps made made :=
  fun _ found isMade => ⟨found, isMade, rfl⟩

theorem Keeps.trans (first : Keeps made next) (second : Keeps next last) : Keeps made last := by
  intro place found isMade
  obtain ⟨later, isLater, same⟩ := first place found isMade
  obtain ⟨latest, isLatest, stillSame⟩ := second place later isLater
  exact ⟨latest, isLatest, stillSame.trans same⟩

theorem Keeps.scalar (keeps : Keeps made next) {place : Nat} {value : Value}
    (isMade : made.getD place none = some (.scalar value)) :
    next.getD place none = some (.scalar value) := by
  obtain ⟨later, isLater, same⟩ := keeps place _ isMade
  cases later with
  | scalar other =>
    obtain rfl := Option.some.inj same
    exact isLater
  | _ => cases same

/-- Two nodes are scalars that are not equal. -/
def AreUnequal (made : Array (Option Made)) (first second : Nat) : Prop :=
  ∃ left right, made.getD first none = some (.scalar left) ∧
    made.getD second none = some (.scalar right) ∧ left.same right = false

/-- Some nodes are scalars, and no two of them are equal. -/
structure AreDistinct (made : Array (Option Made)) (keys : List Nat) : Prop where
  scalars : ∀ key ∈ keys, ∃ value, made.getD key none = some (.scalar value)
  unequal : keys.Pairwise (AreUnequal made)

theorem AreDistinct.kept {keys : List Nat} (distinct : AreDistinct made keys)
    (keeps : Keeps made next) : AreDistinct next keys where
  scalars key member := (distinct.scalars key member).imp fun _ isMade => keeps.scalar isMade
  unequal := distinct.unequal.imp fun ⟨left, right, isLeft, isRight, differ⟩ =>
    ⟨left, right, keeps.scalar isLeft, keeps.scalar isRight, differ⟩

theorem areDistinct_nil (made : Array (Option Made)) : AreDistinct made [] :=
  ⟨fun _ member => (List.not_mem_nil member).elim, .nil⟩

/-- All scalars that have been made have no parts, and all mappings have keys that differ. -/
structure IsDistinct (made : Array (Option Made)) : Prop where
  leaves : ∀ place value, made.getD place none = some (.scalar value) → value.IsLeaf
  keys : ∀ place entries, made.getD place none = some (.map entries) →
    AreDistinct made (entries.map Prod.fst)

/-- What a computation makes is distinct and comes on top of what was made before. -/
def Making.Leads {α : Type} (draft : Draft) (making : Making α)
    (fits : α → Array (Option Made) → Prop) : Prop :=
  ∀ value left, making draft = .ok (value, left) →
    Keeps draft.made left.made ∧ IsDistinct left.made ∧ fits value left.made

namespace Making

variable {α β : Type} {draft : Draft} {fits : α → Array (Option Made) → Prop}
  {further : β → Array (Option Made) → Prop}

theorem Leads.bind {making : Making α} {goesOn : α → Making β} (leads : Leads draft making fits)
    (rest : ∀ value left, Keeps draft.made left.made → IsDistinct left.made →
      fits value left.made → Leads left (goesOn value) further) :
    Leads draft (making >>= goesOn) further := by
  intro result left ran
  obtain ⟨value, middle, made, goes⟩ := run_bind_eq_ok.mp ran
  obtain ⟨keeps, distinct, fit⟩ := leads value middle made
  obtain ⟨keepsOn, distinctThen, fitThen⟩ := rest value middle keeps distinct fit result left goes
  exact ⟨keeps.trans keepsOn, distinctThen, fitThen⟩

/-- What makes nothing leads to where the rest does. -/
theorem leads_after {making : Making α} {goesOn : α → Making β} {value : α} {left : Draft}
    (ran : making draft = .ok (value, left)) (same : left.made = draft.made)
    (rest : Leads left (goesOn value) further) : Leads draft (making >>= goesOn) further := by
  intro result last goes
  rw [bind_of_run ran] at goes
  rw [← same]
  exact rest result last goes

/-- What makes nothing leaves all as it was. -/
theorem leads_of_run {making : Making α} {value : α} {left : Draft}
    (ran : making draft = .ok (value, left)) (same : left.made = draft.made)
    (distinct : IsDistinct draft.made) (fit : fits value draft.made) :
    Leads draft making fits := by
  intro other last goes
  obtain ⟨rfl, rfl⟩ := Prod.mk.inj (Except.ok.inj (ran.symm.trans goes))
  rw [same]
  exact ⟨Keeps.refl _, distinct, fit⟩

theorem Leads.pure {value : α} (distinct : IsDistinct draft.made) (fit : fits value draft.made) :
    Leads draft (pure value) fits :=
  leads_of_run rfl rfl distinct fit

/-- A failure leads nowhere. -/
theorem leads_throw {error : ReadError} : Leads draft (throw error : Making α) fits :=
  fun _ _ ran => nomatch ran

/-- A loop leads on where each of its rounds does. -/
theorem leads_foldlM {step : β → α → Making β}
    (each : ∀ state item draft, IsDistinct draft.made → further state draft.made →
      Leads draft (step state item) further)
    {items : List α} {start : β} (distinct : IsDistinct draft.made)
    (fit : further start draft.made) : Leads draft (items.foldlM step start) further := by
  induction items generalizing start draft with
  | nil => exact Leads.pure distinct fit
  | cons item rest inductionHypothesis =>
    rw [List.foldlM_cons]
    exact (each start item draft distinct fit).bind fun state left _ distinctThen fitThen =>
      inductionHypothesis distinctThen fitThen

theorem leads_forM {act : α → Making Unit}
    (each : ∀ item draft, IsDistinct draft.made → Leads draft (act item) fun _ _ => True)
    {items : List α} (distinct : IsDistinct draft.made) :
    Leads draft (items.forM act) fun _ _ => True := by
  induction items generalizing draft with
  | nil => exact Leads.pure distinct trivial
  | cons item rest inductionHypothesis =>
    exact (each item draft distinct).bind fun _ left _ distinctThen _ =>
      inductionHypothesis distinctThen

theorem leads_mapM {act : α → Making β}
    (each : ∀ item draft, IsDistinct draft.made → Leads draft (act item) fun _ _ => True)
    {items : List α} (distinct : IsDistinct draft.made) :
    Leads draft (items.mapM act) fun _ _ => True := by
  induction items generalizing draft with
  | nil => exact Leads.pure distinct trivial
  | cons item rest inductionHypothesis =>
    rw [List.mapM_cons]
    exact (each item draft distinct).bind fun _ left _ distinctThen _ =>
      (inductionHypothesis distinctThen).bind fun _ last _ distinctAfter _ =>
        Leads.pure distinctAfter trivial

/-- A collection is made of one, or anything of a node that nothing was made of. -/
theorem leads_make (distinct : IsDistinct draft.made) {place : Nat} {part : Made}
    (same : ∀ found, draft.made.getD place none = some found → part.scalar? = found.scalar?)
    (leaf : ∀ value, part = .scalar value → value.IsLeaf)
    (keys : ∀ entries, part = .map entries → AreDistinct draft.made (entries.map Prod.fst)) :
    Leads draft (make place part) fun _ _ => True := by
  intro value left ran
  obtain ⟨-, rfl⟩ := Prod.mk.inj (Except.ok.inj ran)
  have held := fun other => getD_setIfInBounds draft.made place other (some part) none
  have keeps : Keeps draft.made (draft.made.setIfInBounds place (some part)) := by
    intro other found isMade
    rcases held other with ⟨rfl, isPart⟩ | unchanged
    · exact ⟨part, isPart, same found isMade⟩
    · exact ⟨found, unchanged.trans isMade, rfl⟩
  refine ⟨keeps, ⟨fun other value isMade => ?_, fun other entries isMade => ?_⟩, trivial⟩
  · rcases held other with ⟨rfl, isPart⟩ | unchanged
    · exact leaf value (Option.some.inj (isPart.symm.trans isMade))
    · exact distinct.leaves other value (unchanged.symm.trans isMade)
  · rcases held other with ⟨rfl, isPart⟩ | unchanged
    · exact (keys entries (Option.some.inj (isPart.symm.trans isMade))).kept keeps
    · exact (distinct.keys other entries (unchanged.symm.trans isMade)).kept keeps

/-- A collection that waits to be filled has no keys. -/
theorem empty?_eq_some {tag : Tag} {empty : Made} (isEmpty : empty? tag = some empty) :
    empty.scalar? = none ∧ ∀ entries, empty = .map entries → entries = [] := by
  cases tag with
  | map =>
    obtain rfl := Option.some.inj isEmpty
    exact ⟨rfl, fun entries same => (Made.map.inj same).symm⟩
  | seq | omap | pairs | set =>
    obtain rfl := Option.some.inj isEmpty
    exact ⟨rfl, fun entries same => nomatch same⟩
  | _ => exact nomatch isEmpty

/-- What is made of a node that is asked for is a scalar, or an empty collection. -/
theorem leads_ask (place : Nat) (draft : Draft) (distinct : IsDistinct draft.made) :
    Leads draft (ask place) fun _ _ => True := by
  rw [ask]
  refine leads_after (made?_apply draft place) rfl ?_
  cases isMade : draft.made.getD place none with
  | some found => exact Leads.pure distinct trivial
  | none =>
    have fresh (part : Made) : ∀ found, draft.made.getD place none = some found →
        part.scalar? = found.scalar? := by
      intro found isFound
      cases isMade.symm.trans isFound
    refine leads_after (part_apply draft place) rfl ?_
    cases isEmpty : empty? (partAt draft.parts place).tag with
    | some empty =>
      obtain ⟨collection, keyless⟩ := empty?_eq_some isEmpty
      refine (leads_make distinct (fresh empty) ?_ ?_).bind fun _ left _ distinctThen _ =>
        leads_of_run rfl rfl distinctThen trivial
      · rintro value rfl
        cases collection
      · rintro entries rfl
        rw [keyless entries rfl]
        exact areDistinct_nil _
    | none =>
      refine leads_after (get_apply draft) rfl ?_
      cases read : scalarValue draft.parts place with
      | error error =>
        intro result left ran
        cases ran
      | ok value =>
        refine leads_after rfl rfl (leads_make distinct (fresh (.scalar value)) ?_ ?_)
        · rintro other same
          obtain rfl := Made.scalar.inj same
          exact isLeaf_scalarValue read
        · rintro entries same
          cases same

/-- A key that is asked for is a scalar. -/
theorem leads_askKey (place : Nat) (draft : Draft) (distinct : IsDistinct draft.made) :
    Leads draft (askKey place) fun _ made =>
      ∃ value, made.getD place none = some (.scalar value) := by
  rw [askKey]
  refine (leads_ask place draft distinct).bind fun _ left _ distinctThen _ =>
    leads_after (made?_apply left place) rfl ?_
  split
  · rename_i value isMade
    exact Leads.pure distinctThen ⟨value, isMade⟩
  · exact leads_throw

/-- Where an entry is put among others: its key is one of theirs, or comes after them. -/
theorem keys_putEntry (draft : Draft) (entries : List (Nat × Nat)) (entry : Nat × Nat) :
    (putEntry draft entries entry).map Prod.fst = entries.map Prod.fst ∨
      (putEntry draft entries entry).map Prod.fst = entries.map Prod.fst ++ [entry.1] ∧
        ∀ key ∈ entries.map Prod.fst, isSameKey draft key entry.1 = false := by
  induction entries with
  | nil => exact Or.inr ⟨rfl, fun key member => (List.not_mem_nil member).elim⟩
  | cons other rest inductionHypothesis =>
    rw [putEntry]
    cases isSame : isSameKey draft other.1 entry.1 with
    | true => exact Or.inl rfl
    | false =>
      rw [if_neg Bool.false_ne_true, List.map_cons, List.map_cons]
      rcases inductionHypothesis with same | ⟨appended, differ⟩
      · exact Or.inl (congrArg (other.1 :: ·) same)
      · exact Or.inr ⟨congrArg (other.1 :: ·) appended,
          List.forall_mem_cons.mpr ⟨isSame, differ⟩⟩

/-- Scalars are unequal where they do not make the same key. -/
theorem areUnequal_of_isSameKey {first second : Nat} {left right : Value}
    (isLeft : draft.made.getD first none = some (.scalar left))
    (isRight : draft.made.getD second none = some (.scalar right))
    (differ : isSameKey draft first second = false) : AreUnequal draft.made first second := by
  rw [isSameKey, isLeft, isRight] at differ
  exact ⟨left, right, isLeft, isRight, (Bool.or_eq_false_iff.mp differ).2⟩

theorem areDistinct_putEntry {entries : List (Nat × Nat)}
    (distinct : AreDistinct draft.made (entries.map Prod.fst)) {entry : Nat × Nat} {value : Value}
    (isMade : draft.made.getD entry.1 none = some (.scalar value)) :
    AreDistinct draft.made ((putEntry draft entries entry).map Prod.fst) := by
  rcases keys_putEntry draft entries entry with same | ⟨appended, differ⟩
  · rw [same]
    exact distinct
  · rw [appended]
    refine ⟨fun key member => ?_, List.pairwise_append.mpr ⟨distinct.unequal,
      List.pairwise_singleton _ _, fun key member other isLast => ?_⟩⟩
    · rcases List.mem_append.mp member with before | isLast
      · exact distinct.scalars key before
      · obtain rfl := List.mem_singleton.mp isLast
        exact ⟨value, isMade⟩
    · obtain rfl := List.mem_singleton.mp isLast
      obtain ⟨left, isLeft⟩ := distinct.scalars key member
      exact areUnequal_of_isSameKey isLeft isMade (differ key member)

/-- Nothing is made where merge keys are resolved. -/
theorem leads_ofMerging (merging : Merging α) (distinct : IsDistinct draft.made) :
    Leads draft (ofMerging merging) fun _ _ => True := by
  rw [ofMerging]
  refine leads_after (get_apply draft) rfl ?_
  cases merged : merging.run draft.parts with
  | error error =>
    intro result left ran
    cases ran
  | ok merged => exact leads_of_run rfl rfl distinct trivial

/-- The keys of the entries that are asked for differ. -/
theorem leads_askEntries (place : Nat) (draft : Draft) (distinct : IsDistinct draft.made) :
    Leads draft (askEntries place) fun entries made => AreDistinct made (entries.map Prod.fst) := by
  rw [askEntries]
  refine leads_after (get_apply draft) rfl ((leads_ofMerging _ distinct).bind
    fun entries left _ distinctThen _ => leads_foldlM (fun known entry draft distinct differ => ?_)
      distinctThen (areDistinct_nil _))
  refine (leads_askKey entry.1 draft distinct).bind fun _ left keeps distinctThen isScalar =>
    (leads_ask entry.2 left distinctThen).bind fun _ last keepsOn distinctAfter _ =>
      leads_after (get_apply last) rfl (Leads.pure distinctAfter ?_)
  obtain ⟨value, isMade⟩ := isScalar
  exact areDistinct_putEntry (differ.kept (keeps.trans keepsOn)) (keepsOn.scalar isMade)

/-! ### Filling collections -/

theorem leads_itemsOf (place : Nat) (distinct : IsDistinct draft.made) :
    Leads draft (itemsOf place) fun _ _ => True := by
  rw [itemsOf]
  refine leads_after (part_apply draft place) rfl ?_
  split
  · exact Leads.pure distinct trivial
  · exact leads_throw

theorem leads_askPair (place : Nat) (draft : Draft) (distinct : IsDistinct draft.made) :
    Leads draft (askPair place) fun _ _ => True := by
  rw [askPair]
  refine leads_after (part_apply draft place) rfl ?_
  split
  · rename_i key value _
    exact (leads_ask key draft distinct).bind fun _ left _ distinctThen _ =>
      (leads_ask value left distinctThen).bind fun _ last _ distinctAfter _ =>
        Leads.pure distinctAfter trivial
  · exact leads_throw

/-- A node that was a collection once is filled: it stays a collection. -/
theorem leads_make_filled (distinct : IsDistinct draft.made) {place : Nat} {empty part : Made}
    (isMade : made.getD place none = some empty) (wasCollection : empty.scalar? = none)
    (keeps : Keeps made draft.made) (isCollection : part.scalar? = none)
    (keys : ∀ entries, part = .map entries → AreDistinct draft.made (entries.map Prod.fst)) :
    Leads draft (make place part) fun _ _ => True := by
  obtain ⟨later, isLater, still⟩ := keeps place empty isMade
  refine leads_make distinct (fun found isFound => ?_) (fun value same => ?_) keys
  · obtain rfl := Option.some.inj (isLater.symm.trans isFound)
    rw [isCollection, still, wasCollection]
  · rw [same] at isCollection
    cases isCollection

/-- What fills a collection keeps it one, and the keys of a mapping differ. -/
theorem leads_fill (place : Nat) (draft : Draft) (distinct : IsDistinct draft.made) :
    Leads draft (fill place) fun _ _ => True := by
  rw [fill]
  refine leads_after (made?_apply draft place) rfl ?_
  split
  · rename_i isMade
    exact (leads_itemsOf place distinct).bind fun items left keeps distinctThen _ =>
      (leads_forM leads_ask distinctThen).bind fun _ last keepsOn distinctAfter _ =>
        leads_make_filled distinctAfter isMade rfl (keeps.trans keepsOn) rfl fun _ same => by
          cases same
  · rename_i isMade
    refine (leads_itemsOf place distinct).bind fun items left keeps distinctThen _ =>
      (leads_mapM leads_askPair distinctThen).bind fun pairs last keepsOn distinctAfter _ => ?_
    let numbered : Draft := { last with nextNumber := last.nextNumber + pairs.length }
    have distinctNumbered : IsDistinct numbered.made := distinctAfter
    exact leads_after rfl rfl (leads_make_filled distinctNumbered isMade rfl
      (keeps.trans keepsOn) rfl fun _ same => by cases same)
  · rename_i isMade
    exact (leads_askEntries place draft distinct).bind fun entries left keeps distinctThen _ =>
      leads_after (get_apply left) rfl (leads_make_filled distinctThen isMade rfl keeps rfl
        fun _ same => by cases same)
  · rename_i isMade
    exact (leads_askEntries place draft distinct).bind fun entries left keeps distinctThen differ =>
      leads_make_filled distinctThen isMade rfl keeps rfl fun others same => by
        obtain rfl := Made.map.inj same
        exact differ
  · exact Leads.pure distinct trivial

theorem leads_fillPending (bound : Nat) (draft : Draft) (distinct : IsDistinct draft.made) :
    Leads draft (fillPending bound) fun _ _ => True := by
  induction bound generalizing draft with
  | zero => exact Leads.pure distinct trivial
  | succ bound inductionHypothesis =>
    rw [fillPending]
    refine leads_after (get_apply draft) rfl ?_
    dsimp only
    split
    · exact Leads.pure distinct trivial
    · have cleared : IsDistinct { draft with pending := [] }.made := distinct
      exact leads_after rfl rfl ((leads_forM leads_fill cleared).bind
        fun _ left _ distinctThen _ => inductionHypothesis left distinctThen)

end Making

/-- What is made of a document is distinct. -/
theorem isDistinct_make {document : Document} (making : document.make = .ok made) :
    IsDistinct made := by
  rw [Document.make] at making
  obtain ⟨⟨done, left⟩, ran, isMade⟩ := bind_eq_ok.mp making
  obtain rfl := Except.ok.inj isMade
  have nothing (place : Nat) (found : Made) :
      (document.parts.map fun _ => (none : Option Made)).getD place none ≠ some found := by
    rw [Array.getD_eq_getD_getElem?, Array.getElem?_map]
    cases document.parts[place]? <;> (intro isMade; cases isMade)
  have start : IsDistinct (document.parts.map fun _ => (none : Option Made)) :=
    ⟨fun place _ isMade => (nothing place _ isMade).elim,
      fun place _ isMade => (nothing place _ isMade).elim⟩
  have leads := ((Making.leads_ask document.root _ start).bind fun _ left _ distinct _ =>
    Making.leads_fillPending (document.parts.size + 1) left distinct) done left ran
  exact leads.2.1

end Yaml

end Taskbook
