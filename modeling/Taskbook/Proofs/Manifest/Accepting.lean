/-
Which manifests are accepted.

A manifest whose keys are texts is accepted exactly if it has the form of one, and what is read from
it are its fields. Nothing of that form is refused: each check of the reader is one of the grammar.
Anything else is refused as invalid. What can come between is only that a value inside the manifest
cannot be written.
-/

import Taskbook.Proofs.Manifest.Grammar

namespace Taskbook

/-! ### What has the form is not refused -/

namespace Env

variable {entries fields : List (Value × Value)}

/-- A declaration is read, unless one of its values cannot be written. -/
theorem failsOnly_isUntold_ofEntries (named : ∀ entry ∈ entries, IsName entry.1) :
    FailsOnly IsUntold (ofEntries entries) := by
  refine failsOnly_foldlM fun before entry after env same _ => ?_
  have member : entry ∈ entries := same ▸ List.mem_append_right _ List.mem_cons_self
  obtain ⟨text, checked⟩ := checkName_isOk.mpr (named entry member)
  rw [assign, checked, ok_bind]
  exact (failsOnly_orFault isUntold_fault _).bind fun _ _ => failsOnly_ok _

theorem IsDeclaration.exists_mappingAt? {name : String}
    (declares : IsDeclaration (Value.field fields name)) :
    ∃ entries, Value.mappingAt? fields name = some entries ∧
      FailsOnly IsUntold (ofEntries entries) := by
  obtain ⟨entries, holds, named⟩ := declares
  exact ⟨entries, Value.mappingAt?_eq_some.mpr holds, failsOnly_isUntold_ofEntries named⟩

end Env

theorem Step.IsGrammatical.failsOnly_isUntold {record : Value} {fields : List (Value × Value)}
    (grammatical : IsGrammatical fields) (opened : record.entries? = some fields) :
    FailsOnly IsUntold (ofRecord record) := by
  obtain ⟨entries, given, declared⟩ := grammatical.env.exists_mappingAt?
  rw [ofRecord, opened]
  dsimp only
  rw [checkKeys_eq_ok.mpr grammatical.only, ok_bind, mappingField_eq_ok.mpr ⟨rfl, entries, given⟩,
    ok_bind]
  refine failsOnly_make (fun differ => (differ grammatical.acts).elim) ?_
  rw [Env.ofValue_of_entries? given]
  exact declared

namespace Registry

variable {registry : Registry} {name : String} {manifest : Value}

/-- A task of the right form is added under a name that is new, unless something cannot be
written. -/
theorem failsOnly_isUntold_addEntry {entry : Value × Value} {fields : List (Value × Value)}
    (isText : entry.1 = .str name) (named : isTaskName name = true) (fresh : name ∉ registry.names)
    (opened : entry.2.entries? = some fields) (grammatical : Task.IsGrammatical name fields) :
    FailsOnly IsUntold (registry.addEntry entry).result := by
  obtain ⟨settings, given, declared⟩ := grammatical.env.exists_mappingAt?
  obtain ⟨records, lists, recordsGrammatical⟩ := grammatical.steps
  have shaped : IsRecord name entry.2 fields settings records :=
    ⟨opened, grammatical.only, grammatical.declared, given, Value.listAt?_eq_some.mpr lists⟩
  obtain ⟨env, checked, isMap⟩ := shaped.checked
  have key : entry.1.text = .ok name := by rw [isText]; rfl
  have band := Category.parse_isOk.mpr grammatical.category
  have added : FailsOnly IsUntold (registry.addTask (.str name) .null
      (Value.field fields "description") (Value.field fields "category")
      (Value.field fields "condition") env).result := by
    rw [failsOnly_isUntold_iff, addTask_isOk, isUnreported_addTask, Env.ofValue_of_entries? isMap]
    rcases failsOnly_isUntold_iff.mp declared with made | unreported
    · exact Or.inl ⟨named, fresh, band, made⟩
    · exact Or.inr ⟨named, fresh, Or.inr ⟨band, unreported⟩⟩
  rw [result_addEntry, key, orFault_ok, ok_bind, checked, ok_bind]
  refine added.bind fun task _ => ?_
  refine FailsOnly.bind (failsOnly_mapM fun record member => ?_) fun _ _ => failsOnly_ok _
  obtain ⟨inner, recordOpened, recordGrammatical⟩ := recordsGrammatical record member
  exact recordGrammatical.failsOnly_isUntold recordOpened

/-- Entries of the right form are added, unless something cannot be written. Their names are new
since their keys are. -/
theorem failsOnly_isUntold_addEntries {env : Env} {entries : List (Value × Value)}
    (distinct : (entries.map Prod.fst).Nodup)
    (grammatical : ∀ entry ∈ entries, ∃ name record, entry.1 = .str name ∧
      isTaskName name = true ∧ entry.2.entries? = some record ∧ Task.IsGrammatical name record) :
    FailsOnly IsUntold (entries.foldlM addEntry ⟨env, []⟩).result := by
  have empty : (names ⟨env, []⟩).Nodup := List.nodup_nil
  rw [Logged.result_foldlM]
  refine failsOnly_foldlM fun before entry after last same folded => ?_
  rw [← Logged.result_foldlM] at folded
  obtain ⟨tasks, described, -, rfl⟩ := (foldlM_addEntry_eq_ok empty).mp folded
  subst same
  obtain ⟨name, record, isText, named, opened, taskGrammatical⟩ :=
    grammatical entry (List.mem_append_right _ List.mem_cons_self)
  refine failsOnly_isUntold_addEntry isText named (fun known => ?_) opened taskGrammatical
  -- A name that is known already is the key of an entry before this one.
  obtain ⟨task, member, isName⟩ := List.mem_map.mp known
  obtain ⟨source, inBefore, describes⟩ := exists_mem_of_forall₂ described member
  obtain ⟨other, -, otherText, -⟩ := grammatical source (List.mem_append_left _ inBefore)
  have key := describes.key
  rw [otherText] at key
  obtain rfl : other = name := (Except.ok.inj key).trans isName
  rw [List.map_append, List.map_cons] at distinct
  exact (List.nodup_append.mp distinct).2.2 _ (List.mem_map_of_mem inBefore) _ List.mem_cons_self
    (otherText.trans isText.symm)

/-- A manifest of the right form is read, unless something cannot be written. -/
theorem IsManifest.failsOnly_isUntold (form : IsManifest manifest) (keyed : manifest.HasTextKeys) :
    FailsOnly IsUntold (ofManifest manifest).result := by
  obtain ⟨fields, opened, declares, entries, holds, grammatical⟩ := form
  obtain ⟨settings, given, declared⟩ := declares.exists_mappingAt?
  have listed := Value.mappingAt?_eq_some.mpr holds
  rw [result_ofManifest opened, given]
  refine declared.bind fun env _ => ?_
  rw [listed]
  exact failsOnly_isUntold_addEntries (keyed.areTextKeyed opened listed).2 grammatical

/-- Tasks with different texts for keys have different names. -/
theorem not_hasClashingKeys (keyed : manifest.HasTextKeys) : ¬ HasClashingKeys manifest := by
  rintro ⟨fields, entries, opened, listed, clash⟩
  obtain ⟨texts, distinct⟩ := keyed.areTextKeyed opened listed
  refine clash ((List.pairwise_map.mp distinct).imp_of_mem ?_)
  intro first second member otherMember differ name called otherCalled
  obtain ⟨text, isText⟩ := texts first member
  obtain ⟨other, otherIsText⟩ := texts second otherMember
  rw [isText] at called
  rw [otherIsText] at otherCalled
  obtain rfl := (Except.ok.inj called).trans (Except.ok.inj otherCalled).symm
  exact differ (isText.trans otherIsText.symm)

end Registry

/-! ### What cannot be written -/

/-- Something in a value cannot be written. -/
def Value.HoldsUnwritten (value : Value) : Prop :=
  ∃ inner : Value, inner.IsInside value ∧ ¬ inner.IsWritable

theorem Value.HoldsUnwritten.outward {inner outer : Value} (holds : inner.HoldsUnwritten)
    (inside : inner.IsInside outer) : outer.HoldsUnwritten := by
  obtain ⟨innermost, deeper, unwritten⟩ := holds
  exact ⟨innermost, inside.trans deeper, unwritten⟩

variable {fields entries : List (Value × Value)} {record manifest : Value}

/-- Keys that are texts can be named, whichever of them are known. -/
theorem Step.not_hasUnreportableKeys (keyed : Value.AreTextKeyed fields) (known : List String) :
    ¬ HasUnreportableKeys known fields := by
  have texts : ∀ key ∈ unsupported fields known, ∃ text, key = .str text := by
    intro key member
    obtain ⟨entry, inFields, rfl⟩ := List.mem_map.mp (List.mem_filter.mp member).1
    exact keyed.1 entry inFields
  rintro (unsorted | ⟨key, member, unnamed⟩)
  · have comparable : ∀ key ∈ unsupported fields known, ∀ other ∈ unsupported fields known,
        (Value.before? key other).isSome = true := by
      intro key member other otherMember
      obtain ⟨text, rfl⟩ := texts key member
      obtain ⟨further, rfl⟩ := texts other otherMember
      rfl
    obtain ⟨ordered, sorted⟩ := Value.sorted?_isSome comparable
    rw [sorted] at unsorted
    cases unsorted
  · obtain ⟨text, rfl⟩ := texts key member
    exact unnamed (Value.hasLiteral_str text)

/-- Where the variables of a record go unreported, one of their values cannot be written. -/
theorem Env.IsUnreportable.holdsUnwritten (keyed : record.HasTextKeys)
    (opened : record.entries? = some fields) {name : String}
    (given : Value.mappingAt? fields name = some entries) (unreportable : IsUnreportable entries) :
    record.HoldsUnwritten := by
  obtain ⟨before, entry, after, rfl, -, unnamed | ⟨-, unwritten⟩⟩ := unreportable
  · obtain ⟨text, isText⟩ := (keyed.areTextKeyed opened given).1 entry
      (List.mem_append_right _ List.mem_cons_self)
    rw [isText] at unnamed
    exact (unnamed (Value.hasLiteral_str text)).elim
  · exact ⟨entry.2, Value.isInside_of_mappingAt? opened given
      (List.mem_append_right _ List.mem_cons_self), unwritten⟩

theorem Step.IsUnreportable.holdsUnwritten (keyed : record.HasTextKeys)
    (unreportable : IsUnreportable record) : record.HoldsUnwritten := by
  rcases unreportable with ⟨opened, unreportable⟩ | ⟨opened, -, -, given, unreportable⟩
  · exact (not_hasUnreportableKeys (keyed _ .refl _ opened) _ unreportable).elim
  · exact unreportable.holdsUnwritten keyed opened given

namespace Registry

theorem IsUnreportableEntry.holdsUnwritten {names : List String} {entry : Value × Value}
    (textual : ∃ text, entry.1 = .str text) (keyed : entry.2.HasTextKeys)
    (unreportable : IsUnreportableEntry names entry) : entry.2.HoldsUnwritten := by
  cases unreportable with
  | key unwritten =>
    obtain ⟨text, isText⟩ := textual
    rw [isText] at unwritten
    exact (unwritten (Value.isWritable_str text)).elim
  | keys called opened unreportable =>
    exact (Step.not_hasUnreportableKeys (keyed _ .refl _ opened) _ unreportable).elim
  | name called opened only given unwritten =>
    exact ⟨_, Value.isInside_of_entry opened (Value.mem_of_field? given),
      fun writable => unwritten writable.hasLiteral⟩
  | category called shaped named fresh unwritten =>
    rcases Value.isInside_field shaped.opened "category" with inside | isNull
    · exact ⟨_, inside, unwritten⟩
    · rw [isNull] at unwritten
      exact (unwritten ⟨"None", rfl⟩).elim
  | env called shaped named fresh parsed unreportable =>
    exact unreportable.holdsUnwritten keyed shaped.opened shaped.given
  | steps called shaped named fresh parsed set unreportable =>
    obtain ⟨before, record, after, rfl, -, unreportable⟩ := unreportable
    have inside := Value.isInside_of_listAt? shaped.opened shaped.listed
      (List.mem_append_right before List.mem_cons_self)
    exact (unreportable.holdsUnwritten (keyed.inside inside)).outward inside

/-- Where a manifest with text keys goes unreported, something in it cannot be written. -/
theorem IsUnreportable.holdsUnwritten (keyed : manifest.HasTextKeys)
    (unreportable : IsUnreportable manifest) : manifest.HoldsUnwritten := by
  rcases unreportable with ⟨opened, given, unreportable⟩ |
    @⟨fields, settings, before, after, entry, tasks, opened, -, -, listed, -, -, unreportable⟩
  · exact unreportable.holdsUnwritten keyed opened given
  · have member : entry ∈ before ++ entry :: after :=
      List.mem_append_right before List.mem_cons_self
    have inside := Value.isInside_of_mappingAt? opened listed member
    exact (unreportable.holdsUnwritten ((keyed.areTextKeyed opened listed).1 _ member)
      (keyed.inside inside)).outward inside

/-! ### All manifests with text keys -/

/-- A manifest of the right form is read as it is, and any other is refused as invalid. -/
def IsReadByForm (manifest : Value) : Prop :=
  (IsManifest manifest ∧ ∃ registry fields, (ofManifest manifest).result = .ok registry ∧
      manifest.entries? = some fields ∧ registry.IsReadFrom fields) ∨
    ¬ IsManifest manifest ∧ ∃ error notice, (ofManifest manifest).result = .error error ∧
      error.notice = .ok notice ∧ notice.kind = .invalid

/-- A manifest whose keys are texts is read by its form, unless the first thing that is wrong with
it cannot be reported, which is never so where everything in it can be written. -/
theorem isReadByForm_iff (manifest : Value) (keyed : manifest.HasTextKeys) :
    (IsReadByForm manifest ↔ ¬ IsUnreportable manifest) ∧
      (IsUnreportable manifest → manifest.HoldsUnwritten) := by
  refine ⟨⟨?_, fun reportable => ?_⟩, fun unreportable => unreportable.holdsUnwritten keyed⟩
  · rw [← isUnreported_ofManifest]
    rintro (⟨-, registry, -, read, -⟩ | ⟨-, error, notice, failed, noticed, -⟩)
    · rw [read]
      exact not_isUnreported_ok registry
    · rw [failed]
      exact not_isUnreported_of_message (notice_eq_ok.mp noticed).1
  · rcases isAnswered_ofManifest.mpr reportable with
      ⟨registry, read⟩ | ⟨error, notice, failed, noticed, kind⟩
    · obtain ⟨fields, opened, grammatical, isRead⟩ := isReadFrom_of_ofManifest keyed read
      exact Or.inl ⟨⟨fields, opened, grammatical⟩, registry, fields, read, opened, isRead⟩
    · refine Or.inr ⟨fun form => ?_, error, notice, failed, noticed, ?_⟩
      · obtain ⟨fault, unworded⟩ := form.failsOnly_isUntold keyed error failed
        rw [(notice_eq_ok.mp noticed).1] at unworded
        cases unworded
      · exact kind.resolve_right fun conflict => not_hasClashingKeys keyed conflict.2

/-- A manifest that says little: one task with one step. -/
def sparse : Value :=
  .ofEntries [(.str "tasks", .ofEntries [(.str "lint",
    .ofEntries [(.str "steps", .ofItems [.ofEntries [(.str "exec", .str "make")]])])])]

/-- The manifest is read by its form. -/
theorem sparse_isReadByForm :
    sparse.HasTextKeys ∧ IsManifest sparse ∧ ∃ registry fields,
      (ofManifest sparse).result = .ok registry ∧ sparse.entries? = some fields ∧
        registry.IsReadFrom fields := by
  have keyed : sparse.HasTextKeys :=
    Value.hasTextKeys_single _ <| Value.hasTextKeys_single _ <| Value.hasTextKeys_single _ <|
      Value.hasTextKeys_ofItems fun item member => by
        obtain rfl := List.mem_singleton.mp member
        exact Value.hasTextKeys_single _ (Value.hasTextKeys_of_leaf rfl rfl)
  have given : (ofManifest sparse).result.isOk = true := by
    decide +kernel
  cases read : (ofManifest sparse).result with
  | error error =>
    rw [read] at given
    cases given
  | ok registry =>
    have reportable : ¬ IsUnreportable sparse := by
      rw [← isUnreported_ofManifest, read]
      exact not_isUnreported_ok registry
    rcases (isReadByForm_iff sparse keyed).1.mpr reportable with
      isRead | ⟨-, error, notice, failed, -⟩
    · rw [read] at isRead
      exact ⟨keyed, isRead⟩
    · rw [read] at failed
      cases failed

/-- A band of too many digits is not refused as invalid. -/
theorem not_isReadByForm_of_unwritable :
    ¬ ∀ manifest : Value, manifest.HasTextKeys → IsReadByForm manifest := by
  intro always
  have unread (number : Nat) (long : Number.firstUnwritten ≤ number) : ∃ manifest : Value,
      manifest.HasTextKeys ∧ IsUnreported (ofManifest manifest).result := by
    let fields : List (Value × Value) := [(.str "category", .int number)]
    let manifest : Value := .ofEntries [(.str "tasks", .ofEntries [(.str "a", .ofEntries fields)])]
    have keyed : manifest.HasTextKeys :=
      Value.hasTextKeys_single _ <| Value.hasTextKeys_single _ <| Value.hasTextKeys_single _ <|
        Value.hasTextKeys_of_leaf rfl rfl
    have only : Step.HasOnly taskKeys fields := by
      intro entry member
      obtain rfl := List.mem_singleton.mp member
      exact ⟨"category", by decide, rfl⟩
    have shaped : IsRecord "a" (.ofEntries fields) fields [] [] :=
      ⟨rfl, only, fun value found => (by cases found), rfl, rfl⟩
    have unwritten : ¬ (Value.field fields "category").IsWritable := by
      rintro ⟨text, written⟩
      have failed : (Value.int number).text = .error .wrongValue := Value.text_int_of_le long
      cases failed.symm.trans written
    refine ⟨manifest, keyed, isUnreported_ofManifest.mpr ?_⟩
    have none : ∀ setting ∈ ([] : List (Value × Value)), Env.IsSetting setting :=
      fun setting member => (List.not_mem_nil member).elim
    have unreportable : IsUnreportableEntry [] (.str "a", .ofEntries fields) :=
      .category rfl shaped (by decide) List.not_mem_nil unwritten
    exact @IsUnreportable.tasks manifest _ [] [] [] _ [] rfl rfl none rfl .nil List.nodup_nil
      unreportable
  obtain ⟨manifest, keyed, error, fault, failed, unworded⟩ := unread _ (Nat.le_refl _)
  rcases always manifest keyed with
    ⟨-, registry, -, read, -⟩ | ⟨-, other, notice, read, noticed, -⟩
  · cases failed.symm.trans read
  · obtain rfl := Except.error.inj (failed.symm.trans read)
    cases unworded.symm.trans (notice_eq_ok.mp noticed).1

end Registry

end Taskbook
