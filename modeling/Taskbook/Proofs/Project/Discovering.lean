/-
The nearest project.

Projects are looked for from a place upward. If all of their directories can be looked up, the
nearest one is in the first place that holds one. So a project that is made in a place where none
was nearer is the nearest one, and the others are found as before.
-/

import Taskbook.Project.Discovery
import Taskbook.Proofs.Directories
import Taskbook.Proofs.Paths

namespace Taskbook

/-! ### Choosing by what can fail -/

section

variable {ε α : Type} {items : List α} {choice : α → Except ε Bool}

theorem filterM_map_eq_ok {β : Type} {sources : List β} {source : β → α} {isChosen : β → Bool}
    (each : ∀ item ∈ sources, choice (source item) = .ok (isChosen item)) :
    (sources.map source).filterM choice = .ok ((sources.filter isChosen).map source) := by
  have behind (sofar : List α) : List.filterAuxM choice (sources.map source) sofar =
      .ok (((sources.filter isChosen).map source).reverse ++ sofar) := by
    induction sources generalizing sofar with
    | nil => rfl
    | cons first rest inductionHypothesis =>
      have others (sofar : List α) := inductionHypothesis (fun item member =>
        each item (List.mem_cons_of_mem _ member)) sofar
      rw [List.map_cons, List.filterAuxM, each first List.mem_cons_self, ok_bind, others,
        List.filter_cons]
      cases isChosen first with
      | false => rfl
      | true =>
        rw [cond_true, if_pos rfl, List.map_cons, List.reverse_cons, List.append_assoc]
        rfl
  rw [List.filterM, behind, ok_bind, List.append_nil, List.reverse_reverse]
  rfl

theorem forall_of_filterM {chosen : List α} (given : items.filterM choice = .ok chosen) :
    ∀ item ∈ items, ∃ isChosen, choice item = .ok isChosen := by
  obtain ⟨reversed, behind, -⟩ := bind_eq_ok.mp given
  clear given
  generalize ([] : List α) = sofar at behind
  induction items generalizing sofar with
  | nil => exact fun item member => (List.not_mem_nil member).elim
  | cons first rest inductionHypothesis =>
    obtain ⟨isChosen, here, further⟩ := bind_eq_ok.mp behind
    exact List.forall_mem_cons.mpr ⟨⟨isChosen, here⟩, inductionHypothesis _ further⟩

theorem mem_of_findM? {found : α} (given : items.findM? choice = .ok (some found)) :
    found ∈ items := by
  induction items with
  | nil => cases given
  | cons first rest inductionHypothesis =>
    obtain ⟨isFound, -, further⟩ := bind_eq_ok.mp given
    cases isFound with
    | true =>
      obtain rfl := Option.some.inj (Except.ok.inj further)
      exact List.mem_cons_self
    | false => exact List.mem_cons_of_mem _ (inductionHypothesis further)

end

/-! ### Looking upward -/

namespace Project

variable {files : Files} {start place : Path}

theorem upward_eq (start : Path) : upward start =
    (List.range (start.parts.length + 1)).reverse.map fun count =>
      ⟨start.parts.take count⟩ := by
  rw [List.range_succ, List.reverse_append, List.reverse_singleton, List.map_append,
    List.map_singleton, List.take_length]
  rfl

/-- Looking upward from a place leads to each directory that it is in, and on from there. -/
theorem upward_append (start : Path) (below : List String) :
    upward ⟨start.parts ++ below⟩ =
      ((List.range below.length).reverse.map fun count =>
        ⟨start.parts ++ below.take (count + 1)⟩) ++ upward start := by
  rw [upward_eq, upward_eq, List.length_append, Nat.add_right_comm, List.range_add,
    List.reverse_append, List.map_append, ← List.map_reverse, List.map_map]
  refine congrArg₂ _ (List.map_congr_left fun count _ => ?_)
    (List.map_congr_left fun count member => ?_)
  · rw [Function.comp_apply, List.take_append, List.take_of_length_le (by omega)]
    congr 4
    omega
  · have bound := List.mem_range.mp (List.mem_reverse.mp member)
    rw [List.take_append_of_le_length (by omega)]

theorem mem_upward : place ∈ upward start ↔ place.parts <+: start.parts := by
  rw [upward_eq]
  constructor
  · intro member
    obtain ⟨count, -, rfl⟩ := List.mem_map.mp member
    exact List.take_prefix ..
  · rintro ⟨below, whole⟩
    refine List.mem_map.mpr ⟨place.parts.length, ?_, ?_⟩
    · rw [List.mem_reverse, List.mem_range, ← whole, List.length_append]
      omega
    · rw [← whole, List.take_left]

theorem directoryName_forward : directoryName ≠ Path.backward := by
  decide

theorem directoryName_checked : Path.checkName directoryName = .ok () :=
  rfl

/-- The project in a directory. -/
def within (place : Path) : Project :=
  ⟨place.child directoryName⟩

/-- Whether a place holds the directory of a project. -/
def isHeld (files : Files) (place : Path) : Bool :=
  match files.isDirectory (within place).directory with
  | .ok isThere => isThere
  | .error _ => false

/-- Whether a place holds the directory of a project depends on the tree, and on whether the path of
that directory can be looked up. -/
theorem isDirectory_within (has : files.HasDirectory place) :
    files.isDirectory (within place).directory =
      match (within place).directory.check with
      | .ok () => .ok (files.holdsDirectory (within place).directory)
      | .error .nameTooLong => .error .nameTooLong
      | .error _ => .ok false := by
  obtain ⟨resolved, named⟩ := has.child directoryName_forward directoryName_checked
  exact Files.isDirectory_eq resolved named

theorem isHeld_eq_false (has : files.HasDirectory place)
    (nothing : files.holdsDirectory (within place).directory = false) :
    isHeld files place = false := by
  rw [isHeld, isDirectory_within has, nothing]
  cases (within place).directory.check with
  | ok => rfl
  | error fault => cases fault <;> rfl

/-- Where all can be looked up, the nearest project is that of the nearest place that holds one, and
there are others if more places do. -/
theorem nearest_of_lookups
    (each : ∀ place ∈ upward start,
      files.isDirectory (within place).directory = .ok (isHeld files place)) :
    nearest files start = .ok (((upward start).find? (isHeld files)).map within,
      decide (1 < (upward start).countP (isHeld files))) := by
  have chosen : ((upward start).map (Path.child · directoryName)).filterM files.isDirectory =
      .ok (((upward start).filter (isHeld files)).map (Path.child · directoryName)) :=
    filterM_map_eq_ok each
  rw [nearest, enclosing, chosen, ok_bind, List.map_map]
  rw [← List.head?_filter, List.countP_eq_length_filter]
  cases (upward start).filter (isHeld files) with
  | nil => rfl
  | cons first rest => cases rest <;> rfl

theorem lookups_of_nearest {found : Option Project × Bool}
    (given : nearest files start = .ok found) :
    ∀ place ∈ upward start,
      files.isDirectory (within place).directory = .ok (isHeld files place) := by
  obtain ⟨projects, enclosed, -⟩ := bind_eq_ok.mp given
  obtain ⟨chosen, filtered, -⟩ := bind_eq_ok.mp enclosed
  intro place member
  obtain ⟨isThere, looked⟩ := forall_of_filterM filtered _ (List.mem_map_of_mem member)
  have looked : files.isDirectory (within place).directory = .ok isThere := looked
  rw [isHeld, looked]

/-- Nothing is found from a place where the path to look for a project is too long. -/
theorem nearest_of_tooLong (has : files.HasDirectory start)
    (tooLong : (within start).directory.check = .error .nameTooLong) :
    nearest files start = .error .nameTooLong := by
  have failed : files.isDirectory (start.child directoryName) = .error .nameTooLong := by
    refine (isDirectory_within has).trans ?_
    rw [tooLong]
  have filtered : ((upward start).map (Path.child · directoryName)).filterM files.isDirectory =
      .error .nameTooLong := by
    rw [upward, List.map_cons, List.filterM, List.filterAuxM, failed]
    rfl
  rw [nearest, enclosing, filtered]
  rfl

/-- A new project is made in a place that is found upward. -/
theorem fresh_eq_ok {project : Project} (made : fresh files start = .ok project) :
    ∃ place ∈ upward start, project = within place := by
  obtain ⟨repository, found, made⟩ := bind_eq_ok.mp made
  obtain rfl := Except.ok.inj made
  cases repository with
  | none => exact ⟨start, List.mem_cons_self, rfl⟩
  | some place => exact ⟨place, mem_of_findM? found, rfl⟩

/-- What is the first place that holds a project, or one of them where none does, is the first that
holds one if it holds one itself. -/
theorem find?_or_self {places : List Path} {held : Path → Bool} {base : Path}
    (member : base ∈ places)
    (first : places.find? held = some base ∨ places.find? held = none) :
    (places.find? fun place => place = base || held place) = some base := by
  induction places with
  | nil => cases member
  | cons place rest inductionHypothesis =>
    by_cases same : place = base
    · rw [List.find?_cons_of_pos (by simp [same]), same]
    · have notHeld : held place = false := by
        by_contra isHeld
        rw [List.find?_cons_of_pos (by simpa using isHeld)] at first
        rcases first with first | first
        · exact same (Option.some.inj first)
        · cases first
      rw [List.find?_cons_of_neg (by simp [notHeld])] at first
      rw [List.find?_cons_of_neg (by simp [same, notHeld])]
      exact inductionHypothesis ((List.mem_cons.mp member).resolve_left (Ne.symm same)) first

/-- A project that is made in a place is the nearest one, if the place was the nearest that held
one, or if none did. -/
theorem nearest_of_made {changed : Files} {base : Path} (member : base ∈ upward start)
    (lookups : ∀ place ∈ upward start,
      files.isDirectory (within place).directory = .ok (isHeld files place))
    (first : (upward start).find? (isHeld files) = some base ∨
      (upward start).find? (isHeld files) = none)
    (made : changed.isDirectory (within base).directory = .ok true)
    (others : ∀ place ∈ upward start, place ≠ base →
      changed.isDirectory (within place).directory =
        files.isDirectory (within place).directory) :
    nearest changed start = .ok (some (within base),
      decide (1 < (upward start).countP (isHeld changed))) := by
  have held : ∀ place ∈ upward start,
      isHeld changed place = (decide (place = base) || isHeld files place) := by
    intro place inside
    by_cases same : place = base
    · subst same
      rw [isHeld, made, decide_eq_true rfl, Bool.true_or]
    · rw [isHeld, others place inside same, lookups place inside, decide_eq_false same,
        Bool.false_or]
  have each : ∀ place ∈ upward start,
      changed.isDirectory (within place).directory = .ok (isHeld changed place) := by
    intro place inside
    by_cases same : place = base
    · subst same
      rw [isHeld, made]
    · rw [isHeld, others place inside same, lookups place inside]
  have found : (upward start).find? (isHeld changed) = some base := by
    rw [← find?_or_self member first, ← List.head?_filter, ← List.head?_filter,
      List.filter_congr held]
  rw [nearest_of_lookups each, found]
  rfl

/-- Below a place its nearest project is the nearest one, if no place between holds one and the
path of the lowest one can be looked up. -/
theorem nearest_of_below {below : List String} {found : Option Project × Bool}
    (has : files.HasDirectory ⟨start.parts ++ below⟩)
    (notBetween : ∀ count < below.length,
      isHeld files ⟨start.parts ++ below.take (count + 1)⟩ = false)
    (checked : (within ⟨start.parts ++ below⟩).directory.check = .ok ())
    (given : nearest files start = .ok found) :
    nearest files ⟨start.parts ++ below⟩ = .ok found := by
  have lookups := lookups_of_nearest given
  rw [nearest_of_lookups lookups] at given
  obtain rfl := Except.ok.inj given
  have between : ∀ place ∈ (List.range below.length).reverse.map fun count =>
      (⟨start.parts ++ below.take (count + 1)⟩ : Path), isHeld files place = false ∧
        files.isDirectory (within place).directory = .ok (isHeld files place) := by
    intro place member
    obtain ⟨count, inside, rfl⟩ := List.mem_map.mp member
    have bound := List.mem_range.mp (List.mem_reverse.mp inside)
    refine ⟨notBetween count bound, ?_⟩
    have whole : start.parts ++ below =
        (start.parts ++ below.take (count + 1)) ++ below.drop (count + 1) := by
      rw [List.append_assoc, List.take_append_drop]
    rw [whole] at has checked
    have looked := isDirectory_within (Files.HasDirectory.of_append has)
    rw [show (within _).directory.check = .ok () from Path.check_child_of_append checked]
      at looked
    rw [isHeld, looked]
  have each : ∀ place ∈ upward ⟨start.parts ++ below⟩,
      files.isDirectory (within place).directory = .ok (isHeld files place) := by
    rw [upward_append]
    intro place member
    rcases List.mem_append.mp member with inside | above
    · exact (between place inside).2
    · exact lookups place above
  have notFound : ((List.range below.length).reverse.map fun count =>
      (⟨start.parts ++ below.take (count + 1)⟩ : Path)).find? (isHeld files) = none :=
    List.find?_eq_none.mpr fun place member => by simp [(between place member).1]
  have notCounted : ((List.range below.length).reverse.map fun count =>
      (⟨start.parts ++ below.take (count + 1)⟩ : Path)).countP (isHeld files) = 0 :=
    List.countP_eq_zero.mpr fun place member => by simp [(between place member).1]
  rw [nearest_of_lookups each, upward_append, List.find?_append, notFound, Option.none_or,
    List.countP_append, notCounted, Nat.zero_add]

end Project

end Taskbook
