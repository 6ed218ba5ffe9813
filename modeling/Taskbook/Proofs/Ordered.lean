/-
Dictionaries that remember the order of their keys.

What holds of all keys and all values that are written into a dictionary holds of those in
it. The value of a key is the last one that is written for it, in whatever dictionaries it
was written before they were merged: merging is writing one list of entries after the other. So
dictionaries can be merged in any grouping, and what comes of it is known key by key.
-/

import Mathlib.Data.List.Induction
import Mathlib.Data.List.Nodup
import Taskbook.Ordered

namespace Taskbook.Ordered

variable {κ ν : Type} [BEq κ]

/-! ### What all entries have -/

/-- What a key that is written has, and what its value has, all entries have if they had it
before. A key that is there already stays the one it is. -/
theorem forall_put {ofKey : κ → Prop} {ofValue : ν → Prop} {entries : Ordered κ ν} {key : κ}
    {value : ν} (known : ∀ entry ∈ entries, ofKey entry.1 ∧ ofValue entry.2)
    (keyKnown : ofKey key) (valueKnown : ofValue value) :
    ∀ entry ∈ entries.put key value, ofKey entry.1 ∧ ofValue entry.2 := by
  induction entries with
  | nil =>
    intro entry member
    rw [put, List.mem_singleton] at member
    subst member
    exact ⟨keyKnown, valueKnown⟩
  | cons first rest inductionHypothesis =>
    obtain ⟨other, old⟩ := first
    have firstKnown := known (other, old) List.mem_cons_self
    have restKnown : ∀ entry ∈ rest, ofKey entry.1 ∧ ofValue entry.2 :=
      fun entry member => known entry (List.mem_cons_of_mem _ member)
    intro entry member
    rw [put] at member
    split at member
    · rcases List.mem_cons.mp member with rfl | inRest
      · exact ⟨firstKnown.1, valueKnown⟩
      · exact restKnown entry inRest
    · rcases List.mem_cons.mp member with rfl | inRest
      · exact firstKnown
      · exact inductionHypothesis restKnown entry inRest

theorem forall_merge {ofKey : κ → Prop} {ofValue : ν → Prop} {lower upper : Ordered κ ν}
    (lowerKnown : ∀ entry ∈ lower, ofKey entry.1 ∧ ofValue entry.2)
    (upperKnown : ∀ entry ∈ upper, ofKey entry.1 ∧ ofValue entry.2) :
    ∀ entry ∈ lower.merge upper, ofKey entry.1 ∧ ofValue entry.2 := by
  unfold merge
  induction upper generalizing lower with
  | nil => exact lowerKnown
  | cons first rest inductionHypothesis =>
    have firstKnown := upperKnown first List.mem_cons_self
    exact inductionHypothesis (forall_put lowerKnown firstKnown.1 firstKnown.2)
      fun entry member => upperKnown entry (List.mem_cons_of_mem _ member)

theorem forall_mergeAll {ofKey : κ → Prop} {ofValue : ν → Prop} {layers : List (Ordered κ ν)}
    (known : ∀ layer ∈ layers, ∀ entry ∈ layer, ofKey entry.1 ∧ ofValue entry.2) :
    ∀ entry ∈ mergeAll layers, ofKey entry.1 ∧ ofValue entry.2 := by
  have fromAny (merged : Ordered κ ν)
      (mergedKnown : ∀ entry ∈ merged, ofKey entry.1 ∧ ofValue entry.2) :
      ∀ entry ∈ layers.foldl merge merged, ofKey entry.1 ∧ ofValue entry.2 := by
    induction layers generalizing merged with
    | nil => exact mergedKnown
    | cons first rest inductionHypothesis =>
      exact inductionHypothesis (fun layer member => known layer (List.mem_cons_of_mem _ member))
        _ (forall_merge mergedKnown (known first List.mem_cons_self))
  exact fromAny [] (by simp)

/-- Putting keeps all other entries and adds one of a key that is equal to the given one. -/
theorem mem_put {entries : Ordered κ ν} {key : κ} {value : ν} {entry : κ × ν}
    (member : entry ∈ entries.put key value) :
    entry ∈ entries ∨ entry.2 = value ∧ (entry.1 = key ∨ (entry.1 == key) = true) := by
  induction entries with
  | nil =>
    rw [put, List.mem_singleton] at member
    subst member
    exact Or.inr ⟨rfl, Or.inl rfl⟩
  | cons first rest inductionHypothesis =>
    obtain ⟨other, old⟩ := first
    rw [put] at member
    split at member
    · rename_i same
      rcases List.mem_cons.mp member with rfl | inRest
      · exact Or.inr ⟨rfl, Or.inr same⟩
      · exact Or.inl (List.mem_cons_of_mem _ inRest)
    · rcases List.mem_cons.mp member with rfl | inRest
      · exact Or.inl List.mem_cons_self
      · rcases inductionHypothesis inRest with before | new
        · exact Or.inl (List.mem_cons_of_mem _ before)
        · exact Or.inr new

/-- A key that is not equal to any in a dictionary comes last. -/
theorem put_of_forall_ne {entries : Ordered κ ν} {key : κ} (value : ν)
    (absent : ∀ entry ∈ entries, (entry.1 == key) = false) :
    entries.put key value = entries ++ [(key, value)] := by
  induction entries with
  | nil => rfl
  | cons first rest inductionHypothesis =>
    obtain ⟨other, old⟩ := first
    have different := absent (other, old) List.mem_cons_self
    dsimp only at different
    rw [put, different, if_neg Bool.false_ne_true,
      inductionHypothesis fun entry member => absent entry (List.mem_cons_of_mem _ member)]
    rfl

/-- A value that is put where it is already changes nothing. -/
theorem put_of_first {entries : Ordered κ ν} {key : κ} {value : ν}
    (first : List.find? (fun entry => entry.1 == key) entries = some (key, value)) :
    entries.put key value = entries := by
  induction entries with
  | nil => cases first
  | cons entry rest inductionHypothesis =>
    obtain ⟨other, old⟩ := entry
    rw [List.find?_cons] at first
    rw [put]
    cases here : other == key with
    | true =>
      rw [here] at first
      obtain ⟨-, rfl⟩ := Prod.mk.inj (Option.some.inj first)
      rfl
    | false =>
      rw [here] at first
      rw [if_neg Bool.false_ne_true, inductionHypothesis first]

/-! ### Dictionaries of other types -/

section Translation

variable {α β : Type} [BEq α]

/-- Dictionaries may be written in other types, as long as the same keys are equal. -/
theorem map_put {keyOf : κ → α} {valueOf : ν → β}
    (same : ∀ first second, (keyOf first == keyOf second) = (first == second))
    (entries : Ordered κ ν) (key : κ) (value : ν) :
    put (entries.map (Prod.map keyOf valueOf)) (keyOf key) (valueOf value) =
      (entries.put key value).map (Prod.map keyOf valueOf) := by
  induction entries with
  | nil => rfl
  | cons first rest inductionHypothesis =>
    obtain ⟨other, old⟩ := first
    rw [List.map_cons, Prod.map_apply, put, put, same]
    split
    · rfl
    · rw [inductionHypothesis, List.map_cons, Prod.map_apply]

theorem map_merge {keyOf : κ → α} {valueOf : ν → β}
    (same : ∀ first second, (keyOf first == keyOf second) = (first == second))
    (lower upper : Ordered κ ν) :
    merge (lower.map (Prod.map keyOf valueOf)) (upper.map (Prod.map keyOf valueOf)) =
      (lower.merge upper).map (Prod.map keyOf valueOf) := by
  unfold merge
  induction upper generalizing lower with
  | nil => rfl
  | cons first rest inductionHypothesis =>
    rw [List.map_cons, List.foldl_cons, List.foldl_cons, ← inductionHypothesis,
      ← map_put same]
    rfl

theorem map_mergeAll {keyOf : κ → α} {valueOf : ν → β}
    (same : ∀ first second, (keyOf first == keyOf second) = (first == second))
    (layers : List (Ordered κ ν)) :
    mergeAll (layers.map (List.map (Prod.map keyOf valueOf))) =
      (mergeAll layers).map (Prod.map keyOf valueOf) := by
  have onTop (merged : Ordered κ ν) :
      (layers.map (List.map (Prod.map keyOf valueOf))).foldl merge
          (merged.map (Prod.map keyOf valueOf)) =
        (layers.foldl merge merged).map (Prod.map keyOf valueOf) := by
    induction layers generalizing merged with
    | nil => rfl
    | cons first rest inductionHypothesis =>
      rw [List.map_cons, List.foldl_cons, List.foldl_cons, ← inductionHypothesis,
        map_merge same]
  exact onTop []

end Translation

/-! ### Merging what is merged -/

section Sharp

/-- A key that is equal to nothing but itself, as far as keys are compared. -/
def IsSharp (key : κ) : Prop :=
  ∀ other : κ, (other == key) = true ↔ other = key

variable {key other : κ}

theorem IsSharp.beq_self (sharp : IsSharp key) : (key == key) = true :=
  (sharp key).mpr rfl

/-- What is put for a key twice is put the second time. -/
theorem IsSharp.put_put (sharp : IsSharp key) (entries : Ordered κ ν) (value later : ν) :
    (entries.put key value).put key later = entries.put key later := by
  induction entries with
  | nil => simp [put, sharp.beq_self]
  | cons first rest inductionHypothesis =>
    by_cases same : (first.1 == key) = true
    · simp [put, same]
    · simp [put, same, inductionHypothesis]

/-- What is put for two keys may be put in either order, if one of them has its place already. -/
theorem IsSharp.put_comm (sharp : IsSharp key) (otherSharp : IsSharp other)
    (different : other ≠ key) {entries : Ordered κ ν} (member : key ∈ entries.keys)
    (value later : ν) :
    (entries.put other value).put key later = (entries.put key later).put other value := by
  induction entries with
  | nil => cases member
  | cons first rest inductionHypothesis =>
    obtain ⟨here, old⟩ := first
    by_cases same : here = key
    · subst same
      have apart : ¬ (here == other) = true := fun equal => different ((otherSharp here).mp equal).symm
      simp [put, apart, sharp.beq_self]
    · have apart : ¬ (here == key) = true := fun equal => same ((sharp here).mp equal)
      have inRest : key ∈ keys rest := (List.mem_cons.mp member).resolve_left (Ne.symm same)
      by_cases found : (here == other) = true
      · simp [put, apart, found]
      · simp [put, apart, found, inductionHypothesis inRest]

theorem IsSharp.mem_keys_put (sharp : IsSharp key) (entries : Ordered κ ν) (value : ν) :
    key ∈ (entries.put key value).keys := by
  induction entries with
  | nil => exact List.mem_cons_self
  | cons first rest inductionHypothesis =>
    obtain ⟨here, old⟩ := first
    by_cases same : (here == key) = true
    · obtain rfl := (sharp here).mp same
      rw [put, if_pos same]
      exact List.mem_cons_self
    · rw [put, if_neg same]
      exact List.mem_cons_of_mem _ inductionHypothesis

theorem keys_subset_put (entries : Ordered κ ν) (key : κ) (value : ν) :
    entries.keys ⊆ (entries.put key value).keys := by
  induction entries with
  | nil => exact List.nil_subset _
  | cons first rest inductionHypothesis =>
    rw [put]
    split
    · exact List.Subset.refl _
    · exact List.cons_subset_cons _ inductionHypothesis

/-- A key that has its place, and that is not among those which are merged, may be put before. -/
theorem IsSharp.put_merge (sharp : IsSharp key) {lower upper : Ordered κ ν}
    (sharpKeys : ∀ entry ∈ upper, IsSharp entry.1) (absent : key ∉ upper.keys)
    (member : key ∈ lower.keys) (value : ν) :
    (lower.merge upper).put key value = (lower.put key value).merge upper := by
  unfold merge
  induction upper generalizing lower with
  | nil => rfl
  | cons first rest inductionHypothesis =>
    have firstSharp := sharpKeys first List.mem_cons_self
    obtain ⟨apart, absentRest⟩ := not_or.mp (mt List.mem_cons.mpr absent)
    rw [List.foldl_cons, List.foldl_cons, inductionHypothesis
      (fun entry inRest => sharpKeys entry (List.mem_cons_of_mem _ inRest)) absentRest
      (keys_subset_put _ _ _ member), sharp.put_comm firstSharp (Ne.symm apart) member]

/-- What is put into a dictionary of its own and merged then, may be put after merging. -/
theorem IsSharp.merge_put (sharp : IsSharp key) (lower : Ordered κ ν) {upper : Ordered κ ν}
    (sharpKeys : ∀ entry ∈ upper, IsSharp entry.1) (distinct : upper.keys.Nodup) (value : ν) :
    lower.merge (upper.put key value) = (lower.merge upper).put key value := by
  induction upper generalizing lower with
  | nil => rfl
  | cons first rest inductionHypothesis =>
    obtain ⟨here, old⟩ := first
    obtain ⟨fresh, restDistinct⟩ := List.nodup_cons.mp distinct
    have restSharp : ∀ entry ∈ rest, IsSharp entry.1 :=
      fun entry inRest => sharpKeys entry (List.mem_cons_of_mem _ inRest)
    by_cases same : (here == key) = true
    · obtain rfl := (sharp here).mp same
      rw [put, if_pos same]
      calc merge lower ((here, value) :: rest)
          = ((lower.put here old).put here value).merge rest := by rw [sharp.put_put]; rfl
        _ = ((lower.put here old).merge rest).put here value :=
            (sharp.put_merge restSharp fresh (sharp.mem_keys_put _ _) value).symm
        _ = (merge lower ((here, old) :: rest)).put here value := rfl
    · rw [put, if_neg same]
      exact inductionHypothesis (lower.put here old) restSharp restDistinct

theorem mem_keys_of_put {entries : Ordered κ ν} {value : ν}
    (member : other ∈ (entries.put key value).keys) : other ∈ entries.keys ∨ other = key := by
  induction entries with
  | nil => exact Or.inr (List.mem_singleton.mp member)
  | cons first rest inductionHypothesis =>
    rw [put] at member
    split at member
    · exact Or.inl member
    · rcases List.mem_cons.mp member with rfl | inRest
      · exact Or.inl List.mem_cons_self
      · exact (inductionHypothesis inRest).imp_left (List.mem_cons_of_mem _)

theorem IsSharp.nodup_put (sharp : IsSharp key) {entries : Ordered κ ν}
    (distinct : entries.keys.Nodup) (value : ν) : (entries.put key value).keys.Nodup := by
  induction entries with
  | nil => simp [put, keys]
  | cons first rest inductionHypothesis =>
    obtain ⟨here, old⟩ := first
    obtain ⟨fresh, restDistinct⟩ := List.nodup_cons.mp distinct
    rw [put]
    split
    · exact distinct
    · rename_i different
      refine List.nodup_cons.mpr ⟨fun member => ?_, inductionHypothesis restDistinct⟩
      rcases mem_keys_of_put member with inRest | rfl
      · exact fresh inRest
      · exact different sharp.beq_self

/-- Merging a dictionary and then another is merging the two merged. -/
theorem merge_merge (lower : Ordered κ ν) {middle upper : Ordered κ ν}
    (middleSharp : ∀ entry ∈ middle, IsSharp entry.1) (distinct : middle.keys.Nodup)
    (upperSharp : ∀ entry ∈ upper, IsSharp entry.1) :
    lower.merge (middle.merge upper) = (lower.merge middle).merge upper := by
  induction upper generalizing middle with
  | nil => rfl
  | cons first rest inductionHypothesis =>
    have firstSharp := upperSharp first List.mem_cons_self
    have putSharp : ∀ entry ∈ middle.put first.1 first.2, IsSharp entry.1 :=
      fun entry member => (mem_put member).elim (middleSharp entry) fun new =>
        new.2.elim (fun same => same ▸ firstSharp) fun same => (firstSharp entry.1).mp same ▸ firstSharp
    have both := inductionHypothesis putSharp (firstSharp.nodup_put distinct first.2)
      fun entry member => upperSharp entry (List.mem_cons_of_mem _ member)
    calc lower.merge (middle.merge (first :: rest))
        = lower.merge ((middle.put first.1 first.2).merge rest) := rfl
      _ = (lower.merge (middle.put first.1 first.2)).merge rest := both
      _ = ((lower.merge middle).put first.1 first.2).merge rest := by
          rw [firstSharp.merge_put lower middleSharp distinct]
      _ = (lower.merge middle).merge (first :: rest) := rfl

end Sharp

/-! ### The last value of a key -/

/-- The value of the last entry of a key. A dictionary has one entry of a key, but a list of
entries that are written one after the other may have several. -/
def last? (entries : Ordered κ ν) (key : κ) : Option ν :=
  match entries with
  | [] => none
  | (other, value) :: rest => (last? rest key).or (if other == key then some value else none)

@[simp]
theorem last?_nil (key : κ) : last? ([] : Ordered κ ν) key = none :=
  rfl

@[simp]
theorem last?_cons (other : κ) (value : ν) (rest : Ordered κ ν) (key : κ) :
    last? ((other, value) :: rest) key =
      (last? rest key).or (if other == key then some value else none) :=
  rfl

/-- What is written later decides. -/
theorem last?_append (earlier later : Ordered κ ν) (key : κ) :
    last? (earlier ++ later) key = (last? later key).or (last? earlier key) := by
  induction earlier with
  | nil => simp
  | cons first rest inductionHypothesis =>
    obtain ⟨other, value⟩ := first
    rw [List.cons_append, last?_cons, last?_cons, inductionHypothesis, Option.or_assoc]

omit [BEq κ] in
theorem keys_cons (first : κ × ν) (rest : Ordered κ ν) :
    keys (first :: rest) = first.1 :: rest.keys :=
  rfl

variable [LawfulBEq κ]

theorem find?_put_self (entries : Ordered κ ν) (key : κ) (value : ν) :
    find? (entries.put key value) key = some value := by
  induction entries with
  | nil => simp [put, find?]
  | cons first rest inductionHypothesis =>
    obtain ⟨other, old⟩ := first
    rw [put]
    split
    · rename_i same
      rw [find?, if_pos same]
    · rename_i different
      rw [find?, if_neg different, inductionHypothesis]

theorem isSharp_of_lawful (key : κ) : IsSharp key :=
  fun _ => beq_iff_eq

/-- What is put for a key twice is put the second time. -/
theorem put_put (entries : Ordered κ ν) (key : κ) (value other : ν) :
    (entries.put key value).put key other = entries.put key other :=
  (isSharp_of_lawful key).put_put entries value other

theorem find?_put_of_ne (entries : Ordered κ ν) {key other : κ} (different : key ≠ other)
    (value : ν) : find? (entries.put key value) other = find? entries other := by
  have differ : (key == other) = false := beq_eq_false_iff_ne.mpr different
  induction entries with
  | nil => simp [put, find?, differ]
  | cons first rest inductionHypothesis =>
    obtain ⟨here, old⟩ := first
    rw [put]
    split
    · rename_i same
      obtain rfl := eq_of_beq same
      simp [find?, differ]
    · rw [find?, find?, inductionHypothesis]

theorem find?_eq_none {entries : Ordered κ ν} {key : κ} (absent : key ∉ entries.keys) :
    find? entries key = none := by
  induction entries with
  | nil => rfl
  | cons first rest inductionHypothesis =>
    obtain ⟨other, value⟩ := first
    rw [keys_cons, List.mem_cons, not_or] at absent
    rw [find?, beq_eq_false_iff_ne.mpr (Ne.symm absent.1), if_neg Bool.false_ne_true,
      inductionHypothesis absent.2]

/-- Leaving values out leaves out what is found, if no key occurs twice. -/
theorem find?_filter {entries : Ordered κ ν} (distinct : entries.keys.Nodup) (kept : ν → Bool)
    (key : κ) :
    find? (List.filter (fun entry => kept entry.2) entries) key =
      (find? entries key).filter kept := by
  induction entries with
  | nil => rfl
  | cons first rest inductionHypothesis =>
    obtain ⟨other, value⟩ := first
    obtain ⟨fresh, restDistinct⟩ := List.nodup_cons.mp distinct
    have inRest := inductionHypothesis restDistinct
    rw [List.filter_cons, find?]
    by_cases same : other = key
    · subst same
      rw [find?_eq_none fresh] at inRest
      rw [if_pos (beq_self_eq_true other)]
      split
      · rename_i isKept
        rw [find?, if_pos (beq_self_eq_true other), Option.filter_some_pos isKept]
      · rename_i leftOut
        rw [inRest]
        exact (if_neg leftOut).symm
    · have differ : (other == key) = false := beq_eq_false_iff_ne.mpr same
      rw [differ, if_neg Bool.false_ne_true, ← inRest]
      split
      · rw [find?, differ, if_neg Bool.false_ne_true]
      · rfl

theorem last?_eq_none {entries : Ordered κ ν} {key : κ} (absent : key ∉ entries.keys) :
    last? entries key = none := by
  induction entries with
  | nil => rfl
  | cons first rest inductionHypothesis =>
    obtain ⟨other, value⟩ := first
    rw [keys_cons, List.mem_cons, not_or] at absent
    have different : (other == key) = false := by
      rw [beq_eq_false_iff_ne]
      exact Ne.symm absent.1
    rw [last?_cons, inductionHypothesis absent.2, different]
    rfl

theorem mem_of_last? {entries : Ordered κ ν} {key : κ} {value : ν}
    (found : last? entries key = some value) : (key, value) ∈ entries := by
  induction entries with
  | nil => cases found
  | cons first rest inductionHypothesis =>
    obtain ⟨other, own⟩ := first
    rw [last?_cons, Option.or_eq_some_iff] at found
    rcases found with later | ⟨-, here⟩
    · exact List.mem_cons_of_mem _ (inductionHypothesis later)
    · split at here
      · rename_i same
        rw [eq_of_beq same, Option.some.inj here]
        exact List.mem_cons_self
      · cases here

/-- The keys are those that have a last value. -/
theorem mem_keys_iff_last? {entries : Ordered κ ν} {key : κ} :
    key ∈ entries.keys ↔ ∃ value, last? entries key = some value := by
  constructor
  · intro member
    induction entries with
    | nil => cases member
    | cons first rest inductionHypothesis =>
      obtain ⟨other, own⟩ := first
      rw [last?_cons]
      cases later : last? rest key with
      | some value => exact ⟨value, rfl⟩
      | none =>
        rcases List.mem_cons.mp member with rfl | inRest
        · exact ⟨own, by rw [Option.none_or, if_pos (beq_self_eq_true _)]⟩
        · obtain ⟨value, found⟩ := inductionHypothesis inRest
          rw [later] at found
          cases found
  · rintro ⟨value, found⟩
    exact List.mem_map_of_mem (mem_of_last? found)

omit [BEq κ] [LawfulBEq κ] in
/-- A key that occurs once has one value. -/
theorem eq_of_mem_of_nodup {entries : Ordered κ ν} (distinct : entries.keys.Nodup) {key : κ}
    {value other : ν} (member : (key, value) ∈ entries) (also : (key, other) ∈ entries) :
    value = other :=
  congrArg Prod.snd (List.inj_on_of_nodup_map distinct member also rfl)

theorem mem_keys_put {entries : Ordered κ ν} {key other : κ} {value : ν} :
    other ∈ (entries.put key value).keys ↔ other ∈ entries.keys ∨ other = key := by
  induction entries with
  | nil => simp [put, keys]
  | cons first rest inductionHypothesis =>
    obtain ⟨here, old⟩ := first
    rw [put]
    split
    · rename_i same
      have same : here = key := eq_of_beq same
      subst same
      rw [keys_cons, keys_cons, List.mem_cons]
      exact ⟨Or.inl, fun member => member.elim id Or.inl⟩
    · rw [keys_cons, keys_cons, List.mem_cons, List.mem_cons, inductionHypothesis, or_assoc]

omit [LawfulBEq κ] [BEq κ] in
/-- The key of an entry is not among those before it, if no key occurs twice. -/
theorem not_mem_keys_of_nodup {before after : Ordered κ ν} {entry : κ × ν}
    (distinct : (keys (before ++ entry :: after)).Nodup) : entry.1 ∉ keys before := by
  intro member
  rw [keys, List.map_append] at distinct
  exact (List.nodup_append.mp distinct).2.2 entry.1 member entry.1 List.mem_cons_self rfl

/-- A new key comes last. -/
theorem put_of_not_mem {entries : Ordered κ ν} {key : κ} (absent : key ∉ entries.keys)
    (value : ν) : entries.put key value = entries ++ [(key, value)] := by
  refine put_of_forall_ne value fun entry member => ?_
  rw [beq_eq_false_iff_ne]
  rintro rfl
  exact absent (List.mem_map_of_mem member)

/-- A key that is there keeps its place. -/
theorem keys_put_of_mem {entries : Ordered κ ν} {key : κ} (member : key ∈ entries.keys)
    (value : ν) : (entries.put key value).keys = entries.keys := by
  induction entries with
  | nil => cases member
  | cons first rest inductionHypothesis =>
    obtain ⟨other, old⟩ := first
    rw [put]
    split
    · rfl
    · rename_i elsewhere
      have differ : key ≠ other := by
        rintro rfl
        exact elsewhere (beq_self_eq_true key)
      have inRest : key ∈ keys rest := (List.mem_cons.mp member).resolve_left differ
      rw [keys_cons, keys_cons, inductionHypothesis inRest]

/-- A dictionary keeps one entry of a key. -/
theorem nodup_put {entries : Ordered κ ν} (distinct : entries.keys.Nodup) (key : κ) (value : ν) :
    (entries.put key value).keys.Nodup :=
  (isSharp_of_lawful key).nodup_put distinct value

/-- A dictionary is what its own entries write. -/
theorem ofEntries_of_nodup {entries : Ordered κ ν} (distinct : entries.keys.Nodup) :
    ofEntries entries = entries := by
  have onTop (before rest : Ordered κ ν) (apart : (keys (before ++ rest)).Nodup) :
      merge before rest = before ++ rest := by
    unfold merge
    induction rest generalizing before with
    | nil => rw [List.append_nil, List.foldl_nil]
    | cons first others inductionHypothesis =>
      have fresh : first.1 ∉ keys before := not_mem_keys_of_nodup apart
      have whole : before ++ first :: others = before ++ [(first.1, first.2)] ++ others := by
        rw [List.append_assoc, List.singleton_append]
      rw [whole] at apart ⊢
      rw [List.foldl_cons, put_of_not_mem fresh, inductionHypothesis _ apart]
  exact onTop [] entries distinct

theorem nodup_merge {lower : Ordered κ ν} (distinct : lower.keys.Nodup) (upper : Ordered κ ν) :
    (lower.merge upper).keys.Nodup := by
  unfold merge
  induction upper generalizing lower with
  | nil => exact distinct
  | cons first rest inductionHypothesis =>
    exact inductionHypothesis (nodup_put distinct first.1 first.2)

/-- Merged layers have each of their keys once, even if a layer has one twice. -/
theorem nodup_mergeAll (layers : List (Ordered κ ν)) : (mergeAll layers).keys.Nodup := by
  have onTop (rest : List (Ordered κ ν)) (lower : Ordered κ ν) (distinct : lower.keys.Nodup) :
      (rest.foldl merge lower).keys.Nodup := by
    induction rest generalizing lower with
    | nil => exact distinct
    | cons layer others inductionHypothesis =>
      exact inductionHypothesis _ (nodup_merge distinct layer)
  exact onTop layers [] List.nodup_nil

/-- A value that is put into a dictionary is the one of its key, and no other key changes. -/
theorem last?_put {entries : Ordered κ ν} (distinct : entries.keys.Nodup) (key : κ) (value : ν)
    (other : κ) :
    last? (entries.put key value) other =
      (if key == other then some value else none).or (last? entries other) := by
  induction entries with
  | nil => simp [put]
  | cons first rest inductionHypothesis =>
    obtain ⟨here, old⟩ := first
    obtain ⟨fresh, restDistinct⟩ := List.nodup_cons.mp distinct
    rw [put]
    split
    · rename_i same
      have same : here = key := eq_of_beq same
      subst same
      by_cases asked : here = other
      · subst asked
        simp [last?_eq_none fresh]
      · simp [asked]
    · rw [last?_cons, last?_cons, inductionHypothesis restDistinct, Option.or_assoc]

/-- In merged dictionaries a key has the value that is written for it last. -/
theorem last?_merge {lower : Ordered κ ν} (distinct : lower.keys.Nodup) (upper : Ordered κ ν)
    (key : κ) : last? (lower.merge upper) key = last? (lower ++ upper) key := by
  unfold merge
  induction upper generalizing lower with
  | nil => simp
  | cons first rest inductionHypothesis =>
    obtain ⟨other, value⟩ := first
    rw [List.foldl_cons, inductionHypothesis (nodup_put distinct other value), last?_append,
      last?_append, last?_put distinct, last?_cons, Option.or_assoc]

theorem last?_mergeAll (layers : List (Ordered κ ν)) (key : κ) :
    last? (mergeAll layers) key = last? layers.flatten key := by
  have onTop (merged : Ordered κ ν) (distinct : merged.keys.Nodup) :
      last? (layers.foldl merge merged) key = last? (merged ++ layers.flatten) key := by
    induction layers generalizing merged with
    | nil => simp
    | cons first rest inductionHypothesis =>
      rw [List.foldl_cons, inductionHypothesis _ (nodup_merge distinct first), last?_append,
        last?_merge distinct, last?_append, List.flatten_cons, last?_append, last?_append,
        Option.or_assoc]
  exact onTop [] List.nodup_nil

/-- Merged layers have no entries but those of the layers. -/
theorem mem_of_mem_mergeAll {layers : List (Ordered κ ν)} {key : κ} {value : ν}
    (member : (key, value) ∈ mergeAll layers) : ∃ layer ∈ layers, (key, value) ∈ layer := by
  obtain ⟨last, found⟩ := mem_keys_iff_last?.mp (List.mem_map_of_mem member)
  obtain rfl := eq_of_mem_of_nodup (nodup_mergeAll layers) member (mem_of_last? found)
  rw [last?_mergeAll] at found
  exact List.mem_flatten.mp (mem_of_last? found)

/-- Merged layers have the keys of all layers. -/
theorem mem_keys_mergeAll {layers : List (Ordered κ ν)} {layer : Ordered κ ν} {key : κ}
    (among : layer ∈ layers) (member : key ∈ layer.keys) : key ∈ (mergeAll layers).keys := by
  obtain ⟨⟨_, value⟩, inLayer, rfl⟩ := List.mem_map.mp member
  rw [mem_keys_iff_last?, last?_mergeAll, ← mem_keys_iff_last?]
  exact List.mem_map_of_mem (List.mem_flatten.mpr ⟨layer, among, inLayer⟩)

/-! ### What entries write -/

/-- What comes again at the end of a list is no new element of it. -/
theorem eraseDups_concat (items : List κ) (item : κ) :
    (items ++ [item]).eraseDups =
      if item ∈ items.eraseDups then items.eraseDups else items.eraseDups ++ [item] := by
  rw [List.eraseDups_append]
  split
  next known =>
    have nothing : [item].removeAll items = [] :=
      List.filter_cons_of_neg (by simpa using List.mem_eraseDups.1 known)
    rw [nothing, List.eraseDups_nil, List.append_nil]
  next unknown =>
    have alone : [item].removeAll items = [item] :=
      List.filter_cons_of_pos (by simpa using mt List.mem_eraseDups.2 unknown)
    rw [alone]
    rfl

theorem nodup_eraseDups (items : List κ) : items.eraseDups.Nodup := by
  induction items using List.reverseRecOn with
  | nil => exact List.nodup_nil
  | append_singleton items item inductionHypothesis =>
    rw [eraseDups_concat]
    split
    next => exact inductionHypothesis
    next unknown =>
      rw [← List.concat_eq_append]
      exact inductionHypothesis.concat unknown

/-- A dictionary is what some entries write: it has each of their keys once, in the order in which
they come first, and for each the value that comes last. -/
structure IsWrittenBy (dictionary entries : Ordered κ ν) : Prop where
  keys : dictionary.keys = entries.keys.eraseDups
  values : ∀ key, find? dictionary key = last? entries key

theorem find?_put (dictionary : Ordered κ ν) (key : κ) (value : ν) (asked : κ) :
    find? (dictionary.put key value) asked =
      if key == asked then some value else find? dictionary asked := by
  by_cases same : key = asked
  · subst same
    rw [find?_put_self, if_pos (beq_self_eq_true key)]
  · rw [find?_put_of_ne dictionary same, if_neg (by simpa using same)]

/-- One more entry takes the place of its key, or a new one at the end. -/
theorem IsWrittenBy.put {dictionary entries : Ordered κ ν}
    (written : IsWrittenBy dictionary entries) (key : κ) (value : ν) :
    IsWrittenBy (dictionary.put key value) (entries ++ [(key, value)]) := by
  refine ⟨?_, fun asked => ?_⟩
  · have appended : (entries ++ [(key, value)]).keys = entries.keys ++ [key] := List.map_append
    rw [appended, eraseDups_concat, ← written.keys]
    split
    next known => exact keys_put_of_mem known value
    next unknown =>
      rw [put_of_not_mem unknown, Ordered.keys, List.map_append]
      rfl
  · rw [find?_put, written.values, last?_append, last?_cons, last?_nil, Option.none_or]
    split <;> rfl

theorem isWrittenBy_ofEntries (entries : List (κ × ν)) :
    IsWrittenBy (ofEntries entries) entries := by
  have onTop (written before rest : List (κ × ν)) (sofar : IsWrittenBy written before) :
      IsWrittenBy (merge written rest) (before ++ rest) := by
    unfold merge
    induction rest generalizing written before with
    | nil => rwa [List.append_nil]
    | cons first others inductionHypothesis =>
      have whole : before ++ first :: others = before ++ [(first.1, first.2)] ++ others := by
        rw [List.append_assoc, List.singleton_append]
      rw [whole]
      exact inductionHypothesis _ _ (sofar.put first.1 first.2)
  exact onTop [] [] entries ⟨rfl, fun key => rfl⟩

/-! ### What dictionaries are merged to -/

omit [BEq κ] [LawfulBEq κ] in
theorem keys_flatten (layers : List (Ordered κ ν)) :
    keys layers.flatten = layers.flatMap keys := by
  rw [keys, List.map_flatten, List.flatMap_def]
  rfl

/-- Where a dictionary has a key once, its last value is its only one. -/
theorem last?_eq_some {entries : Ordered κ ν} (distinct : entries.keys.Nodup) {key : κ}
    {value : ν} : last? entries key = some value ↔ (key, value) ∈ entries := by
  refine ⟨mem_of_last?, fun member => ?_⟩
  obtain ⟨other, found⟩ := mem_keys_iff_last?.mp (List.mem_map_of_mem member)
  rw [found, eq_of_mem_of_nodup distinct (mem_of_last? found) member]

/-- Of all values that some dictionaries have for a key, the last one is that of the last
dictionary that has the key. -/
theorem last?_flatten_eq_some {layers : List (Ordered κ ν)} {key : κ} {value : ν} :
    last? layers.flatten key = some value ↔ ∃ before layer after,
      layers = before ++ layer :: after ∧ last? layer key = some value ∧
        ∀ higher ∈ after, key ∉ keys higher := by
  induction layers with
  | nil => simp
  | cons first rest inductionHypothesis =>
    rw [List.flatten_cons, last?_append, Option.or_eq_some_iff, inductionHypothesis]
    constructor
    · rintro (⟨before, layer, after, rfl, found, above⟩ | ⟨missing, found⟩)
      · exact ⟨first :: before, layer, after, rfl, found, above⟩
      · refine ⟨[], first, rest, rfl, found, fun higher among member => ?_⟩
        have inRest : key ∈ keys rest.flatten :=
          keys_flatten rest ▸ List.mem_flatMap.mpr ⟨higher, among, member⟩
        obtain ⟨other, foundAbove⟩ := mem_keys_iff_last?.mp inRest
        rw [missing] at foundAbove
        cases foundAbove
    · rintro ⟨before, layer, after, whole, found, above⟩
      cases before with
      | nil =>
        obtain ⟨rfl, rfl⟩ := List.cons.inj whole
        refine Or.inr ⟨last?_eq_none fun inRest => ?_, found⟩
        obtain ⟨higher, among, member⟩ := List.mem_flatMap.mp (keys_flatten rest ▸ inRest)
        exact above higher among member
      | cons lowest others =>
        obtain ⟨rfl, rfl⟩ := List.cons.inj whole
        exact Or.inl ⟨others, layer, after, rfl, found, above⟩

/-- A dictionary is what some others are merged to: it has each of their keys once, in the order in
which they come first, and for each the value of the last dictionary that has it. -/
structure IsMergedFrom (dictionary : Ordered κ ν) (layers : List (Ordered κ ν)) : Prop where
  keys : dictionary.keys = (layers.flatMap Ordered.keys).eraseDups
  distinct : dictionary.keys.Nodup
  entries : ∀ key value, (key, value) ∈ dictionary ↔ ∃ before layer after,
    layers = before ++ layer :: after ∧ (key, value) ∈ layer ∧
      ∀ higher ∈ after, key ∉ Ordered.keys higher

theorem isMergedFrom_mergeAll {layers : List (Ordered κ ν)}
    (distinct : ∀ layer ∈ layers, (keys layer).Nodup) :
    IsMergedFrom (mergeAll layers) layers where
  keys := by
    have written : mergeAll layers = ofEntries layers.flatten := List.foldl_flatten.symm
    rw [written, (isWrittenBy_ofEntries _).keys, keys_flatten]
  distinct := nodup_mergeAll layers
  entries := by
    intro key value
    rw [← last?_eq_some (nodup_mergeAll layers), last?_mergeAll, last?_flatten_eq_some]
    refine exists_congr fun before => exists_congr fun layer => exists_congr fun after =>
      and_congr_right fun whole => and_congr_left fun _ => last?_eq_some (distinct layer ?_)
    exact whole ▸ List.mem_append_right _ List.mem_cons_self

/-- The keys of the lower dictionaries come first. -/
theorem IsMergedFrom.isPrefix {dictionary : Ordered κ ν} {lower upper : List (Ordered κ ν)}
    (merged : IsMergedFrom dictionary (lower ++ upper)) :
    (lower.flatMap Ordered.keys).eraseDups <+: dictionary.keys := by
  rw [merged.keys, List.flatMap_append, List.eraseDups_append]
  exact List.prefix_append _ _

/-- Merging what some dictionaries are merged to is merging them one after the other. -/
theorem merge_mergeAll (lower : Ordered κ ν) (layers : List (Ordered κ ν)) :
    lower.merge (mergeAll layers) = layers.foldl merge lower := by
  have sharp (entries : Ordered κ ν) : ∀ entry ∈ entries, IsSharp entry.1 :=
    fun entry _ => isSharp_of_lawful entry.1
  induction layers using List.reverseRecOn with
  | nil => rfl
  | append_singleton layers last inductionHypothesis =>
    calc lower.merge (mergeAll (layers ++ [last]))
        = lower.merge ((mergeAll layers).merge last) := by
          rw [mergeAll, List.foldl_append]
          rfl
      _ = (lower.merge (mergeAll layers)).merge last :=
          merge_merge lower (sharp _) (nodup_mergeAll layers) (sharp last)
      _ = (layers ++ [last]).foldl merge lower := by
          rw [inductionHypothesis, List.foldl_append]
          rfl

/-- Dictionaries that follow each other may be merged before the others are. -/
theorem mergeAll_append_mergeAll_cons (before run after : List (Ordered κ ν)) :
    mergeAll (before ++ mergeAll run :: after) = mergeAll (before ++ run ++ after) := by
  unfold mergeAll
  rw [List.foldl_append, List.foldl_cons, List.foldl_append, List.foldl_append]
  exact congrArg (after.foldl merge ·) (merge_mergeAll _ run)

end Taskbook.Ordered
