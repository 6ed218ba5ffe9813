/-
Which tasks are listed, and in which order.

A list holds the tasks that are asked for and no others. They stand in the order of their bands, the
ones without a band last, and in a band in the order of their names. Since no two tasks of a
registry have the same name, this order leaves no choice: there is one list only, whatever the order
of the tasks in the manifest. So a list of all tasks is made of the lists of the bands.
-/

import Mathlib.Data.List.Perm.Basic
import Mathlib.Data.String.Basic
import Taskbook.Proofs.Manifest.Grammar
import Taskbook.Proofs.Manifest.Reporting
import Taskbook.Proofs.Project.Exporting

namespace Taskbook

/-! ### The order of a list -/

/-- A task comes before another in a list: its band does, or they have the same band and its name
does, letter by letter. -/
def Task.Precedes (first second : Task) : Prop :=
  ∃ name other : String, first.name = .str name ∧ second.name = .str other ∧
    (Category.rankOf first.category < Category.rankOf second.category ∨
      Category.rankOf first.category = Category.rankOf second.category ∧
        name.toList < other.toList)

namespace Task

variable {first second : Task}

theorem Precedes.asymm (precedes : first.Precedes second) : ¬ second.Precedes first := by
  obtain ⟨name, other, firstName, secondName, before⟩ := precedes
  rintro ⟨otherAgain, nameAgain, secondAgain, firstAgain, behind⟩
  obtain rfl := Value.str.inj (firstName.symm.trans firstAgain)
  obtain rfl := Value.str.inj (secondName.symm.trans secondAgain)
  rcases before with before | ⟨same, before⟩ <;> rcases behind with behind | ⟨also, behind⟩
  · omega
  · omega
  · omega
  · exact lt_asymm before behind

theorem not_precedes_self (task : Task) : ¬ task.Precedes task :=
  fun precedes => precedes.asymm precedes

end Task

/-! ### Manifests in another order -/

/-- A manifest has the shared variables of another, and its tasks in another order. -/
def Registry.Reorders (manifest other : Value) : Prop :=
  ∃ fields otherFields entries otherEntries,
    manifest.entries? = some fields ∧ other.entries? = some otherFields ∧
    Value.field otherFields "env" = Value.field fields "env" ∧
    (Value.field fields "tasks").Holds entries ∧
    (Value.field otherFields "tasks").Holds otherEntries ∧ otherEntries.Perm entries

/-- What is read of such a manifest is the same registry with its tasks in another order. -/
theorem Registry.Reorders.ofManifest {manifest other : Value} {registry : Registry}
    (reorders : Reorders manifest other)
    (read : (Registry.ofManifest manifest).result = .ok registry) :
    ∃ reordered, (Registry.ofManifest other).result = .ok reordered ∧
      reordered.env = registry.env ∧ reordered.tasks.Perm registry.tasks := by
  obtain ⟨fields, otherFields, entries, otherEntries, opened, otherOpened, sameEnv, held, otherHeld,
    perm⟩ := reorders
  obtain ⟨distinct, readFields, env, readEntries, readOpened, given, described, found,
    entriesDescribed⟩ := ofManifest_eq_ok.mp read
  obtain rfl := Option.some.inj (opened.symm.trans readOpened)
  obtain rfl := Option.some.inj ((Value.mappingAt?_eq_some.mpr held).symm.trans found)
  obtain ⟨tasks, otherDescribed, tasksPerm⟩ := List.perm_comp_forall₂ perm entriesDescribed
  refine ⟨⟨registry.env, tasks⟩, ofManifest_eq_ok.mpr ⟨?_, otherFields, env, otherEntries,
    otherOpened, ?_, described, Value.mappingAt?_eq_some.mpr otherHeld, otherDescribed⟩, rfl,
    tasksPerm⟩
  · exact (tasksPerm.map Prod.fst).nodup_iff.mpr distinct
  · rw [Step.mappingField, sameEnv]
    exact given

/-! ### Lists -/

namespace Project

variable {project : Project} {files : Files} {registry : Registry} {category : Value}
  {wanted : Option Category} {tasks : List Task} {isWanted : Task → Prop} {listing : List Task}

/-- Some tasks listed: those that are wanted and no others, each one once, and each one before all
that come behind it. -/
structure IsListing (tasks : List Task) (isWanted : Task → Prop) (listing : List Task) : Prop where
  mem : ∀ task, task ∈ listing ↔ task ∈ tasks ∧ isWanted task
  increasing : listing.Pairwise Task.Precedes

theorem IsListing.nodup (isListing : IsListing tasks isWanted listing) : listing.Nodup := by
  refine isListing.increasing.imp ?_
  rintro first second precedes rfl
  exact Task.not_precedes_self first precedes

/-- There is one list of some tasks at most, and the order that they are given in plays no part. -/
theorem IsListing.unique {others : List Task} {other : List Task} {isOther : Task → Prop}
    (isListing : IsListing tasks isWanted listing) (isAnother : IsListing others isOther other)
    (sameTasks : ∀ task, task ∈ tasks ↔ task ∈ others)
    (sameWanted : ∀ task, isWanted task ↔ isOther task) : listing = other := by
  have members (task : Task) : task ∈ listing ↔ task ∈ other := by
    rw [isListing.mem, isAnother.mem, sameTasks, sameWanted]
  have perm := (List.perm_ext_iff_of_nodup isListing.nodup isAnother.nodup).mpr members
  exact perm.eq_of_pairwise (fun _ _ _ _ before behind => absurd behind before.asymm)
    isListing.increasing isAnother.increasing

/-! ### What is selected -/

theorem precedes_trans (first second third : String × Task) (before : precedes first second = true)
    (further : precedes second third = true) : precedes first third = true := by
  simp only [precedes, Bool.or_eq_true, Bool.and_eq_true, decide_eq_true_eq] at *
  rcases before with before | ⟨same, before⟩ <;> rcases further with further | ⟨also, further⟩
  · exact Or.inl (before.trans further)
  · exact Or.inl (also ▸ before)
  · exact Or.inl (same ▸ further)
  · exact Or.inr ⟨same.trans also, before.trans further⟩

theorem precedes_total (first second : String × Task) :
    (precedes first second || precedes second first) = true := by
  simp only [precedes, Bool.or_eq_true, Bool.and_eq_true, decide_eq_true_eq]
  rcases lt_trichotomy (Category.rankOf first.2.category) (Category.rankOf second.2.category) with
    before | same | behind
  · exact Or.inl (Or.inl before)
  · rcases le_total first.1 second.1 with before | behind
    · exact Or.inl (Or.inr ⟨same, before⟩)
    · exact Or.inr (Or.inr ⟨same.symm, behind⟩)
  · exact Or.inr (Or.inl behind)

/-- Entries that are in order and have different names have tasks of which the first comes before
the second. -/
theorem task_precedes {first second : String × Task}
    (firstNamed : first.2.name = .str first.1) (secondNamed : second.2.name = .str second.1)
    (before : precedes first second = true) (differ : first.1 ≠ second.1) :
    first.2.Precedes second.2 := by
  simp only [precedes, Bool.or_eq_true, Bool.and_eq_true, decide_eq_true_eq] at before
  refine ⟨first.1, second.1, firstNamed, secondNamed, before.imp_right fun level => ⟨level.1, ?_⟩⟩
  exact String.lt_iff_toList_lt.mp (lt_of_le_of_ne level.2 differ)

/-- The tasks of a registry that are kept, put in order, are a list of those that are wanted. -/
theorem isListing_mergeSort (consistent : registry.IsConsistent) (isKept : String × Task → Bool)
    (keeps : ∀ entry, isKept entry = true ↔ isWanted entry.2) :
    IsListing (registry.tasks.map Prod.snd) isWanted
      (((registry.tasks.filter isKept).mergeSort precedes).map Prod.snd) := by
  have perm := List.mergeSort_perm (registry.tasks.filter isKept) precedes
  have inOrder : ((registry.tasks.filter isKept).mergeSort precedes).Pairwise
      fun first second => precedes first second = true :=
    List.pairwise_mergeSort precedes_trans precedes_total _
  have known : ∀ entry ∈ (registry.tasks.filter isKept).mergeSort precedes,
      entry.2.name = .str entry.1 := by
    intro entry member
    exact (consistent.named entry (List.mem_filter.mp (perm.mem_iff.mp member)).1).2
  have apart : ((registry.tasks.filter isKept).mergeSort precedes).Pairwise
      fun first second => first.1 ≠ second.1 := by
    have names : (registry.tasks.filter isKept).Pairwise fun first second => first.1 ≠ second.1 :=
      (List.pairwise_map.mp consistent.distinct).filter _
    exact (perm.pairwise_iff fun differ same => differ same.symm).mpr names
  constructor
  · intro task
    simp only [List.mem_map, perm.mem_iff, List.mem_filter, keeps]
    constructor
    · rintro ⟨entry, ⟨member, wanted⟩, rfl⟩
      exact ⟨⟨entry, member, rfl⟩, wanted⟩
    · rintro ⟨⟨entry, member, rfl⟩, wanted⟩
      exact ⟨entry, ⟨member, wanted⟩, rfl⟩
  · refine List.pairwise_map.mpr ((inOrder.and apart).imp_of_mem ?_)
    intro first second firstMember secondMember held
    exact task_precedes (known first firstMember) (known second secondMember) held.1
      held.2

/-- What is selected from a registry is a list of the tasks of a band, or of all tasks. -/
theorem isListing_selected (consistent : registry.IsConsistent) (wanted : Option Category) :
    IsListing (registry.tasks.map Prod.snd)
      (fun task => ∀ band, wanted = some band → task.category = some band)
      (selected registry.tasks wanted) := by
  refine isListing_mergeSort consistent _ fun entry => ?_
  cases wanted <;> simp

/-! ### Whole lists -/

/-- A value says which tasks to list: all of them, or those of a band. -/
def IsAsked (category : Value) : Prop :=
  category = .null ∨ ∃ band : Category, band.IsNamedBy category

variable [Depths]

/-- A project that is loaded has a list of whatever is asked for. -/
theorem exists_isListing (loaded : (project.load files).result = .ok registry)
    (asked : IsAsked category) :
    ∃ listing, (project.list category files).result = .ok listing ∧
      IsListing (registry.tasks.map Prod.snd)
        (fun task => ∀ band : Category, band.IsNamedBy category → task.category = some band)
        listing := by
  obtain ⟨wanted, parsed⟩ := Category.parse_isOk.mpr asked
  have isListing := isListing_selected (isConsistent_load loaded) wanted
  simp only [(Category.parse_eq_ok.mp parsed).2] at isListing
  refine ⟨_, ?_, isListing⟩
  rw [list, Logged.result_bind, loaded, ok_bind, Logged.result_bind, Logged.result_lift, parsed,
    ok_bind]
  rfl

/-- A list of something else fails, and the caller is told about it unless the value cannot be
written. -/
theorem exists_error_of_not_isAsked (loaded : (project.load files).result = .ok registry)
    (notAsked : ¬ IsAsked category) :
    ∃ error, (project.list category files).result = .error error ∧
      ((∃ message, error.notice = .ok ⟨.invalid, message⟩) ↔ category.IsWritable) := by
  cases parsed : Category.parse category with
  | ok wanted => exact absurd (Category.parse_isOk.mp ⟨wanted, parsed⟩) notAsked
  | error error =>
    refine ⟨error, ?_, ?_⟩
    · rw [list, Logged.result_bind, loaded, ok_bind, Logged.result_bind, Logged.result_lift, parsed]
      rfl
    · have refuses := @Category.failsOnly_parse False category
      have invalid : error.kind = .invalid :=
        (refuses error parsed).resolve_right fun conflict => conflict.2
      have unreported := @Category.isUnreported_parse category
      rw [parsed, isUnreported_error] at unreported
      rw [← not_iff_not, ← unreported]
      simp only [notice_eq_ok, invalid, and_true]
      cases error.message <;> simp

/-- The same tasks in another order are listed as they are. -/
theorem list_of_perm {other : Project} {otherFiles : Files} {reordered : Registry}
    (loaded : (project.load files).result = .ok registry)
    (otherLoaded : (other.load otherFiles).result = .ok reordered)
    (perm : reordered.tasks.Perm registry.tasks) (category : Value) :
    (other.list category otherFiles).result = (project.list category files).result := by
  rw [list, list, Logged.result_bind, Logged.result_bind, loaded, otherLoaded, ok_bind, ok_bind,
    Logged.result_bind, Logged.result_bind, Logged.result_lift]
  cases Category.parse category with
  | error error => rfl
  | ok wanted =>
    have same : selected reordered.tasks wanted = selected registry.tasks wanted :=
      (isListing_selected (isConsistent_load otherLoaded) wanted).unique
        (isListing_selected (isConsistent_load loaded) wanted)
        (fun task => (perm.map Prod.snd).mem_iff) fun task => Iff.rfl
    exact congrArg Except.ok same

omit [Depths] in
/-- A band is asked for by its code, and by that it is the only one. -/
theorem isNamedBy_code_iff {band other : Category} :
    other.IsNamedBy (.str band.code) ↔ band = other := by
  have parsed := Category.parse_eq_ok.mp (Category.parse_toValue (some band))
  exact (parsed.2 other).symm.trans Option.some_inj

omit [Depths] in
/-- The lists of the bands in their order, and then a list of the tasks without a band, are a list
of all tasks. -/
theorem isListing_flatMap {inBand : Category → List Task} {bare : List Task}
    (banded : ∀ band, IsListing tasks (fun task => task.category = some band) (inBand band))
    (unbanded : IsListing tasks (fun task => task.category = none) bare)
    (named : ∀ task ∈ tasks, ∃ name : String, task.name = .str name) :
    IsListing tasks (fun _ => True) (Category.all.flatMap inBand ++ bare) := by
  have between {first second : Task} (firstMember : first ∈ tasks) (secondMember : second ∈ tasks)
      (before : Category.rankOf first.category < Category.rankOf second.category) :
      first.Precedes second := by
    obtain ⟨name, firstNamed⟩ := named first firstMember
    obtain ⟨other, secondNamed⟩ := named second secondMember
    exact ⟨name, other, firstNamed, secondNamed, Or.inl before⟩
  constructor
  · intro task
    simp only [List.mem_append, List.mem_flatMap, (banded _).mem, unbanded.mem, and_true]
    constructor
    · rintro (⟨band, -, member, -⟩ | ⟨member, -⟩) <;> exact member
    · intro member
      cases banded : task.category with
      | none => exact Or.inr ⟨member, rfl⟩
      | some band => exact Or.inl ⟨band, by cases band <;> decide, member, rfl⟩
  · refine List.pairwise_append.mpr ⟨List.pairwise_flatMap.mpr ⟨fun band _ =>
      (banded band).increasing, ?_⟩, unbanded.increasing, ?_⟩
    · have ranks : Category.all.Pairwise fun first second => first.rank < second.rank := by
        decide
      refine ranks.imp fun {band next} (before : band.rank < next.rank) first firstMember second
        secondMember => ?_
      obtain ⟨firstKnown, firstBand⟩ := ((banded band).mem first).mp firstMember
      obtain ⟨secondKnown, secondBand⟩ := ((banded next).mem second).mp secondMember
      refine between firstKnown secondKnown ?_
      rw [firstBand, secondBand]
      exact before
    · intro first firstMember second secondMember
      obtain ⟨band, -, inBand⟩ := List.mem_flatMap.mp firstMember
      obtain ⟨firstKnown, firstBand⟩ := ((banded band).mem first).mp inBand
      obtain ⟨secondKnown, secondBare⟩ := (unbanded.mem second).mp secondMember
      refine between firstKnown secondKnown ?_
      rw [firstBand, secondBare]
      cases band <;> decide

/-- How a project that is loaded lists its tasks. -/
structure ListsTasks (project : Project) (files : Files) (registry : Registry) : Prop where
  /-- What is asked for is listed. -/
  sorted : ∀ category, IsAsked category →
    ∃ listing, (project.list category files).result = .ok listing ∧
      IsListing (registry.tasks.map Prod.snd)
        (fun task => ∀ band : Category, band.IsNamedBy category → task.category = some band)
        listing
  /-- A manifest with the same tasks in another order is read as these tasks in another order. -/
  reorders : ∀ (other : Project) (otherFiles : Files) (manifest otherManifest : Value),
    project.readManifest files = .ok manifest →
    other.readManifest otherFiles = .ok otherManifest →
    Registry.Reorders manifest otherManifest →
    ∃ reordered, (other.load otherFiles).result = .ok reordered ∧
      reordered.tasks.Perm registry.tasks
  /-- The same tasks in another order are listed as they are, whatever is asked for. -/
  independent : ∀ (other : Project) (otherFiles : Files) (reordered : Registry),
    (other.load otherFiles).result = .ok reordered → reordered.tasks.Perm registry.tasks →
    ∀ category, (other.list category otherFiles).result = (project.list category files).result
  /-- The list of all tasks is those of the bands in their order, and then one of the tasks without
  a band. -/
  joined : ∃ inBand bare,
    (∀ band : Category, (project.list (.str band.code) files).result = .ok (inBand band)) ∧
    IsListing (registry.tasks.map Prod.snd) (fun task => task.category = none) bare ∧
    (project.list .null files).result = .ok (Category.all.flatMap inBand ++ bare)
  /-- Any other text is refused as invalid. -/
  refused : ∀ text : String, ¬ IsAsked (.str text) →
    ∃ error message, (project.list (.str text) files).result = .error error ∧
      error.notice = .ok ⟨.invalid, message⟩
  /-- So is any other value, exactly if it can be written. -/
  refusedValue : ∀ category, ¬ IsAsked category →
    ∃ error, (project.list category files).result = .error error ∧
      ((∃ message, error.notice = .ok ⟨.invalid, message⟩) ↔ category.IsWritable)

/-- A project that can be loaded lists the tasks that are asked for, each one once and in the
order of their bands and names, whatever their order in the manifest. What asks for no tasks is
refused. -/
theorem list_isSorted (loaded : (project.load files).result = .ok registry) :
    project.ListsTasks files registry where
  sorted := fun _ asked => exists_isListing loaded asked
  reorders := by
    intro other otherFiles manifest otherManifest read otherRead reorders
    have described := loaded
    rw [load, Logged.result_bind, Logged.result_lift, read, ok_bind] at described
    obtain ⟨reordered, otherDescribed, -, perm⟩ := reorders.ofManifest described
    refine ⟨reordered, ?_, perm⟩
    rw [load, Logged.result_bind, Logged.result_lift, otherRead, ok_bind, otherDescribed]
  independent := fun _ _ _ otherLoaded perm category =>
    list_of_perm loaded otherLoaded perm category
  joined := by
    have consistent := isConsistent_load loaded
    have named : ∀ task ∈ registry.tasks.map Prod.snd, ∃ name : String, task.name = .str name := by
      rintro task member
      obtain ⟨entry, inTasks, rfl⟩ := List.mem_map.mp member
      exact ⟨entry.1, (consistent.named entry inTasks).2⟩
    have asked (band : Category) : IsAsked (.str band.code) :=
      Or.inr ⟨band, isNamedBy_code_iff.mpr rfl⟩
    choose inBand listed isListing using fun band => exists_isListing loaded (asked band)
    obtain ⟨all, allListed, isAll⟩ := exists_isListing loaded (Or.inl rfl)
    simp only [isNamedBy_code_iff, forall_eq'] at isListing
    have unbanded :
        IsListing (registry.tasks.map Prod.snd) (fun task => task.category = none) _ :=
      isListing_mergeSort consistent (fun entry => decide (entry.2.category = none))
        fun _ => decide_eq_true_iff
    refine ⟨inBand, _, listed, unbanded, ?_⟩
    rw [allListed, isAll.unique (isListing_flatMap isListing unbanded named) (fun _ => Iff.rfl)
      fun _ => iff_true_intro fun band named => absurd named (Category.not_isNamedBy_null band)]
  refused := by
    intro text notAsked
    obtain ⟨error, failed, told⟩ := exists_error_of_not_isAsked loaded notAsked
    obtain ⟨message, noticed⟩ := told.mpr (Value.isWritable_str text)
    exact ⟨error, message, failed, noticed⟩
  refusedValue := fun _ notAsked => exists_error_of_not_isAsked loaded notAsked

end Project

namespace Project

/-- A task of a sample. It does nothing. -/
def shelvedTask (name : String) (band : Option Category) : String × Task :=
  (name, ⟨.str name, .null, band, .null, [], []⟩)

/-- The manifest of a task of the sample. -/
def shelvedText (entry : String × Task) : String :=
  " " ++ entry.1 ++ ":\n" ++ "  name: " ++ entry.1 ++ "\n" ++
    (match entry.2.category with
    | some band => "  category: " ++ band.code ++ "\n"
    | none => "") ++ "  steps: []\n"

/-- The files of a project with some of these tasks. -/
def shelved (tasks : Ordered String Task) : Files :=
  ⟨.directory [("work", .directory [(directoryName, .directory
    [("tasks.yaml", .file ("tasks:\n" ++ String.join (tasks.map shelvedText)).toUTF8)])])]⟩

/-- The tasks of the sample. -/
def shelf : Ordered String Task :=
  [shelvedTask "a" none, shelvedTask "b" (some .misc)]

theorem isSound_shelved {tasks : Ordered String Task} (distinct : tasks.keys.Nodup)
    (shelvedTasks : ∀ entry ∈ tasks, isTaskName entry.1 = true ∧
      ∃ band, entry = shelvedTask entry.1 band) : Registry.IsSound ⟨[], tasks⟩ where
  env := Env.isValid_nil
  distinct := distinct
  named := by
    intro entry member
    obtain ⟨named, band, same⟩ := shelvedTasks entry member
    exact ⟨named, by rw [same]; rfl⟩
  tasks := by
    intro entry member
    obtain ⟨-, band, same⟩ := shelvedTasks entry member
    rw [same]
    exact ⟨Value.isTextOrNull_null, Value.isTextOrNull_null, Env.isValid_nil,
      fun _ inside => (List.not_mem_nil inside).elim⟩

theorem load_shelved {tasks : Ordered String Task} (sound : Registry.IsSound ⟨[], tasks⟩)
    (copied : (match sample.readManifest (shelved tasks) with
      | .ok copy => copy.isCopy (.ofEntries (Value.keyed (Registry.savedFields ⟨[], tasks⟩)))
      | .error _ => false) = true) :
    (sample.load (shelved tasks)).result = .ok ⟨[], tasks⟩ := by
  split at copied
  · rename_i copy read
    rw [load, Logged.result_bind, Logged.result_lift, read, ok_bind]
    exact sound.ofManifest copied
  · cases copied

/-- The tasks of the sample are listed as `list_isSorted` has it, from a manifest in either
order. -/
theorem shelved_list_isSorted :
    ((sample.load (shelved shelf)).result = .ok ⟨[], shelf⟩ ∧
      (sample.load (shelved (List.reverse shelf))).result = .ok ⟨[], List.reverse shelf⟩) ∧
    sample.ListsTasks (shelved shelf) ⟨[], shelf⟩ ∧
    (∀ category, (sample.list category (shelved (List.reverse shelf))).result =
      (sample.list category (shelved shelf)).result) ∧
    IsAsked (.str " Misc ") ∧ ¬ IsAsked (.str "quality") := by
  have sound : Registry.IsSound ⟨[], shelf⟩ := by
    refine isSound_shelved (by decide) fun entry member => ?_
    simp only [shelf, List.mem_cons, List.not_mem_nil, or_false] at member
    rcases member with rfl | rfl <;> exact ⟨by decide, _, rfl⟩
  have reversed : Registry.IsSound ⟨[], List.reverse shelf⟩ := by
    refine isSound_shelved (by decide) fun entry member => ?_
    obtain ⟨named, -⟩ := sound.named entry (List.mem_reverse.mp member)
    simp only [shelf, List.mem_reverse, List.mem_cons, List.not_mem_nil, or_false] at member
    rcases member with rfl | rfl <;> exact ⟨named, _, rfl⟩
  have loaded := load_shelved sound (by decide +kernel)
  have otherLoaded := load_shelved reversed (by decide +kernel)
  have lists := list_isSorted loaded
  refine ⟨⟨loaded, otherLoaded⟩, lists,
    lists.independent sample _ _ otherLoaded (List.reverse_perm shelf),
    Or.inr ⟨.misc, " Misc ", rfl, Or.inr (by decide +kernel)⟩, ?_⟩
  rintro (isNull | ⟨band, text, written, named⟩)
  · cases isNull
  · obtain rfl : "quality" = text := Except.ok.inj written
    revert named
    cases band <;> decide +kernel

end Project

end Taskbook
