/-
In which order tasks are rendered.

What a task spawns, and what is spawned from there, make up its expansion. A spot of the expansion is
known by the numbers of the steps that lead to it, one for each level. So the order of addresses is
the one in which a tree is gone through from its root, children after their parent and in the order
of the steps. A step whose target is not there, or is on the way to the step already, is a fault, and
nothing is expanded behind it.

A trace of some steps are the spots below them up to the first fault, in order, and that fault if
there is one. It is put together from the trace of the first step and that of the others.
-/

import Mathlib.Data.List.Chain
import Mathlib.Data.List.Nodup
import Taskbook.Proofs.Rendering.References

namespace Taskbook.Registry

/-! ### Expansions -/

/-- What a step of an expansion spawns: the numbers of the steps that lead there, the names of the
tasks on the way, and its own name. The root is led to by no step. -/
structure Spot where
  address : List Nat
  path : List String
  name : String

/-- The record of the task at a spot being rendered. -/
def Spot.record (spot : Spot) : Record :=
  .debug .rendering
    ("Rendering task " ++ spot.name ++ " (depth " ++ toString (spot.path.length + 1) ++ ")")

/-- A step of the task at a spot spawns the next one. -/
def IsNext (registry : Registry) (spot next : Spot) : Prop :=
  ∃ task index step, registry.resolve (.str spot.name) = .ok (some (spot.name, task)) ∧
    task.steps[index]? = some step ∧ step.action = .spawn (.str next.name) ∧
    next.address = spot.address ++ [index] ∧ next.path = spot.path ++ [spot.name]

/-- What is spawned is not there, or is on the way already. -/
def IsFaulty (registry : Registry) (spot : Spot) : Prop :=
  spot.name ∉ registry.names ∨ spot.name ∈ spot.path

/-- The tasks of the expansion of a name. -/
inductive IsExpanded (registry : Registry) (root : String) : Spot → Prop
  | root (known : root ∈ registry.names) : IsExpanded registry root ⟨[], [], root⟩
  | next {spot next : Spot} (expanded : IsExpanded registry root spot)
      (follows : registry.IsNext spot next) (sound : ¬ registry.IsFaulty next) :
      IsExpanded registry root next

/-- A task of an expansion spawns what is faulty. -/
def IsFault (registry : Registry) (root : String) (owner fault : Spot) : Prop :=
  registry.IsExpanded root owner ∧ registry.IsNext owner fault ∧ registry.IsFaulty fault

/-- The fault that comes before all others. -/
structure IsFirstFault (registry : Registry) (root : String) (owner fault : Spot) : Prop where
  isFault : registry.IsFault root owner fault
  first : ∀ otherOwner other, registry.IsFault root otherOwner other →
    other = fault ∨ fault.address < other.address

variable {registry : Registry}

theorem IsNext.spawns {spot next : Spot} (follows : registry.IsNext spot next) :
    registry.Spawns spot.name next.name := by
  obtain ⟨task, index, step, found, there, spawns, -, -⟩ := follows
  exact ⟨task, found, step, List.mem_of_getElem? there, spawns⟩

/-- A chain goes on from its last name to what that spawns. -/
theorem isChain_concat {names : List String} {last next : String}
    (chain : names.IsChain registry.Spawns) (isLast : names.getLast? = some last)
    (spawns : registry.Spawns last next) : (names ++ [next]).IsChain registry.Spawns := by
  refine chain.append (List.isChain_singleton next) fun other otherIsLast first isFirst => ?_
  rw [isLast] at otherIsLast
  obtain rfl := Option.some.inj otherIsLast
  obtain rfl := Option.some.inj isFirst
  exact spawns

/-- The way to a task of an expansion starts at the root, every task on it spawns the next, and
none is on it twice. -/
structure IsWay (registry : Registry) (root : String) (names : List String) : Prop where
  starts : names.head? = some root
  spawning : names.IsChain registry.Spawns
  distinct : names.Nodup

theorem IsExpanded.isWay {root : String} {spot : Spot}
    (expanded : registry.IsExpanded root spot) :
    registry.IsWay root (spot.path ++ [spot.name]) := by
  induction expanded with
  | root known =>
    exact ⟨rfl, List.isChain_singleton root, List.nodup_singleton root⟩
  | @next spot next _ follows sound inductionHypothesis =>
    obtain ⟨starts, spawning, distinct⟩ := inductionHypothesis
    have spawns := follows.spawns
    obtain ⟨-, -, -, -, -, -, -, samePath⟩ := follows
    have fresh : next.name ∉ spot.path ++ [spot.name] := samePath ▸ fun member => sound (.inr member)
    rw [samePath]
    refine ⟨?_, ?_, ?_⟩
    · rw [List.head?_append, starts]
      rfl
    · exact isChain_concat spawning List.getLast?_concat spawns
    · exact List.nodup_append.mpr ⟨distinct, List.nodup_singleton _, fun other member last isLast => by
        rintro rfl
        exact fresh (List.mem_singleton.mp isLast ▸ member)⟩

/-- All on the way to a task of an expansion are there. -/
theorem IsExpanded.mem_names {root : String} {spot : Spot}
    (expanded : registry.IsExpanded root spot) :
    ∀ name ∈ spot.path ++ [spot.name], name ∈ registry.names := by
  induction expanded with
  | root known =>
    intro name member
    obtain rfl := List.mem_singleton.mp member
    exact known
  | @next spot next _ follows sound inductionHypothesis =>
    obtain ⟨-, -, -, -, -, -, -, samePath⟩ := follows
    intro name member
    rw [samePath] at member
    rcases List.mem_append.mp member with before | last
    · exact inductionHypothesis name before
    · obtain rfl := List.mem_singleton.mp last
      exact not_not.mp fun absent => sound (.inl absent)

/-! ### Below some steps -/

/-- What the steps of a task spawn, and what is spawned from there. The address starts with the
number of one of the steps. -/
inductive Inside (registry : Registry) : List String → List Step → Spot → Prop
  | here {path : List String} {steps : List Step} {index : Nat} {step : Step} {target : String}
      (there : steps[index]? = some step) (spawns : step.action = .spawn (.str target)) :
      Inside registry path steps ⟨[index], path, target⟩
  | deeper {path : List String} {steps : List Step} {index : Nat} {step : Step} {target : String}
      {task : Task} {spot : Spot}
      (there : steps[index]? = some step) (spawns : step.action = .spawn (.str target))
      (found : registry.resolve (.str target) = .ok (some (target, task)))
      (fresh : target ∉ path) (inside : Inside registry (path ++ [target]) task.steps spot) :
      Inside registry path steps ⟨index :: spot.address, spot.path, spot.name⟩

/-- What is spawned from a sound spot below some steps is below them. -/
theorem Inside.next {path : List String} {steps : List Step} {spot next : Spot}
    (inside : registry.Inside path steps spot) (sound : ¬ registry.IsFaulty spot)
    (follows : registry.IsNext spot next) : registry.Inside path steps next := by
  obtain ⟨task, index, step, found, there, spawns, sameAddress, samePath⟩ := follows
  obtain ⟨address, names, name⟩ := next
  dsimp only at spawns sameAddress samePath
  subst sameAddress
  subst samePath
  induction inside with
  | here thereFirst spawnsFirst =>
    exact .deeper thereFirst spawnsFirst found (fun member => sound (.inr member))
      (.here there spawns)
  | deeper thereFirst spawnsFirst foundFirst fresh _ inductionHypothesis =>
    exact .deeper thereFirst spawnsFirst foundFirst fresh (inductionHypothesis sound found)

/-- What is below the steps of a task of an expansion is spawned by a task of the expansion. -/
theorem Inside.exists_isNext {root : String} {spot : Spot} {path : List String} {steps : List Step}
    (inside : registry.Inside path steps spot) {owner : Spot} {task : Task}
    (expanded : registry.IsExpanded root owner) (way : path = owner.path ++ [owner.name])
    (found : registry.resolve (.str owner.name) = .ok (some (owner.name, task)))
    (own : steps = task.steps) :
    ∃ last, registry.IsExpanded root last ∧
      registry.IsNext last ⟨owner.address ++ spot.address, spot.path, spot.name⟩ := by
  induction inside generalizing owner task with
  | @here path steps index step target there spawns =>
    subst own
    exact ⟨owner, expanded, task, index, step, found, there, spawns, rfl, way⟩
  | @deeper path steps index step target inner spot there spawns innerFound fresh _
      inductionHypothesis =>
    subst own
    let next : Spot := ⟨owner.address ++ [index], owner.path ++ [owner.name], target⟩
    have nextExpanded : registry.IsExpanded root next := by
      refine .next expanded ⟨task, index, step, found, there, spawns, rfl, rfl⟩ ?_
      rintro (missing | onPath)
      · exact missing (mem_names_of_resolve innerFound)
      · exact fresh (way ▸ onPath)
    obtain ⟨last, lastExpanded, follows⟩ := inductionHypothesis nextExpanded
      (by rw [way]) innerFound rfl
    refine ⟨last, lastExpanded, ?_⟩
    rwa [List.append_cons]

/-- The tasks of an expansion other than its root are the sound spots below the root's steps. -/
theorem isExpanded_iff {root : String} {task : Task}
    (found : registry.resolve (.str root) = .ok (some (root, task))) {spot : Spot} :
    registry.IsExpanded root spot ↔ spot = ⟨[], [], root⟩ ∨
      registry.Inside [root] task.steps spot ∧ ¬ registry.IsFaulty spot := by
  constructor
  · intro expanded
    induction expanded with
    | root known => exact Or.inl rfl
    | @next owner spot _ follows sound inductionHypothesis =>
      refine Or.inr ⟨?_, sound⟩
      rcases inductionHypothesis with rfl | ⟨inside, ownerSound⟩
      · obtain ⟨other, index, step, otherFound, there, spawns, sameAddress, samePath⟩ := follows
        rw [found] at otherFound
        obtain ⟨-, rfl⟩ := Prod.mk.inj (Option.some.inj (Except.ok.inj otherFound))
        obtain ⟨address, path, name⟩ := spot
        dsimp only at sameAddress samePath
        subst sameAddress
        subst samePath
        exact .here there spawns
      · exact inside.next ownerSound follows
  · have known := mem_names_of_resolve found
    rintro (rfl | ⟨inside, sound⟩)
    · exact .root known
    · obtain ⟨last, lastExpanded, follows⟩ := inside.exists_isNext (.root known) rfl found rfl
      exact .next lastExpanded follows sound

/-- The faults of an expansion are the faulty spots below the root's steps. -/
theorem exists_isFault_iff {root : String} {task : Task}
    (found : registry.resolve (.str root) = .ok (some (root, task))) {fault : Spot} :
    (∃ owner, registry.IsFault root owner fault) ↔
      registry.Inside [root] task.steps fault ∧ registry.IsFaulty fault := by
  constructor
  · rintro ⟨owner, expanded, follows, faulty⟩
    refine ⟨?_, faulty⟩
    rcases (isExpanded_iff found).mp expanded with rfl | ⟨inside, sound⟩
    · obtain ⟨other, index, step, otherFound, there, spawns, sameAddress, samePath⟩ := follows
      rw [found] at otherFound
      obtain ⟨-, rfl⟩ := Prod.mk.inj (Option.some.inj (Except.ok.inj otherFound))
      obtain ⟨address, path, name⟩ := fault
      dsimp only at sameAddress samePath
      subst sameAddress
      subst samePath
      exact .here there spawns
    · exact inside.next sound follows
  · rintro ⟨inside, faulty⟩
    obtain ⟨last, lastExpanded, follows⟩ :=
      inside.exists_isNext (.root (mem_names_of_resolve found)) rfl found rfl
    exact ⟨last, lastExpanded, follows, faulty⟩

/-! ### The first step and the others -/

/-- A spot below the steps of a task, seen from the step that spawns the task as the first of its
own task. -/
def Spot.under (spot : Spot) : Spot :=
  { spot with address := 0 :: spot.address }

/-- A spot below some steps, with one more step before them. -/
def Spot.later (spot : Spot) : Spot :=
  { spot with address := match spot.address with
    | [] => []
    | index :: rest => (index + 1) :: rest }

variable {path : List String} {step : Step} {rest : List Step} {spot : Spot}

theorem not_inside_nil : ¬ registry.Inside path [] spot := by
  intro inside
  cases inside with
  | here there _ => cases there
  | deeper there _ _ _ _ => cases there

theorem Inside.address_ne_nil {steps : List Step} (inside : registry.Inside path steps spot) :
    ∃ index address, spot.address = index :: address := by
  cases inside with
  | here _ _ => exact ⟨_, _, rfl⟩
  | deeper _ _ _ _ _ => exact ⟨_, _, rfl⟩

theorem eq_of_single {index : Nat} {other : Step} (there : [step][index]? = some other) :
    index = 0 ∧ other = step := by
  cases index with
  | zero => exact ⟨rfl, (Option.some.inj there).symm⟩
  | succ index => cases there

theorem Inside.address_zero (inside : registry.Inside path [step] spot) :
    ∃ address, spot.address = 0 :: address := by
  cases inside with
  | here there _ =>
    obtain ⟨rfl, -⟩ := eq_of_single there
    exact ⟨_, rfl⟩
  | deeper there _ _ _ _ =>
    obtain ⟨rfl, -⟩ := eq_of_single there
    exact ⟨_, rfl⟩

/-- What is below some steps is below the first one or below the others. -/
theorem inside_cons_iff : registry.Inside path (step :: rest) spot ↔
    registry.Inside path [step] spot ∨
      ∃ other, registry.Inside path rest other ∧ spot = other.later := by
  constructor
  · intro inside
    cases inside with
    | @here _ _ index other target there spawns =>
      cases index with
      | zero => exact Or.inl (.here there spawns)
      | succ index => exact Or.inr ⟨⟨[index], path, target⟩, .here there spawns, rfl⟩
    | @deeper _ _ index other target task inner there spawns found fresh inside =>
      cases index with
      | zero => exact Or.inl (.deeper there spawns found fresh inside)
      | succ index => exact Or.inr ⟨_, .deeper there spawns found fresh inside, rfl⟩
  · rintro (inside | ⟨other, inside, rfl⟩)
    · cases inside with
      | here there spawns =>
        obtain ⟨rfl, rfl⟩ := eq_of_single there
        exact .here rfl spawns
      | deeper there spawns found fresh inside =>
        obtain ⟨rfl, rfl⟩ := eq_of_single there
        exact .deeper rfl spawns found fresh inside
    · cases inside with
      | @here _ _ index _ _ there spawns =>
        exact @Inside.here _ _ _ (index + 1) _ _ there spawns
      | @deeper _ _ index _ _ _ _ there spawns found fresh inside =>
        exact @Inside.deeper _ _ _ (index + 1) _ _ _ _ there spawns found fresh inside

theorem not_inside_run {command : Value} (runs : step.action = .run command) :
    ¬ registry.Inside path [step] spot := by
  intro inside
  cases inside with
  | here there spawns =>
    obtain ⟨-, rfl⟩ := eq_of_single there
    rw [runs] at spawns
    cases spawns
  | deeper there spawns _ _ _ =>
    obtain ⟨-, rfl⟩ := eq_of_single there
    rw [runs] at spawns
    cases spawns

/-- Below a step that spawns a task are that and what is below the steps of the task. -/
theorem inside_spawn_iff {target : String} (spawns : step.action = .spawn (.str target)) :
    registry.Inside path [step] spot ↔ spot = ⟨[0], path, target⟩ ∨
      ∃ task inner, registry.resolve (.str target) = .ok (some (target, task)) ∧ target ∉ path ∧
        registry.Inside (path ++ [target]) task.steps inner ∧ spot = inner.under := by
  constructor
  · intro inside
    cases inside with
    | here there action =>
      obtain ⟨rfl, rfl⟩ := eq_of_single there
      rw [spawns] at action
      obtain rfl := Value.str.inj (Action.spawn.inj action)
      exact Or.inl rfl
    | deeper there action found fresh inside =>
      obtain ⟨rfl, rfl⟩ := eq_of_single there
      rw [spawns] at action
      obtain rfl := Value.str.inj (Action.spawn.inj action)
      exact Or.inr ⟨_, _, found, fresh, inside, rfl⟩
  · rintro (rfl | ⟨task, inner, found, fresh, inside, rfl⟩)
    · exact .here rfl spawns
    · exact .deeper rfl spawns found fresh inside

/-! ### Traces -/

/-- The sound spots below some steps that come before all faults, in order, and the first fault if
there is one. -/
structure IsTrace (registry : Registry) (path : List String) (steps : List Step)
    (visits : List Spot) (fault? : Option Spot) : Prop where
  ordered : visits.Pairwise (·.address < ·.address)
  complete : ∀ spot, spot ∈ visits ↔ registry.Inside path steps spot ∧
    ¬ registry.IsFaulty spot ∧ ∀ fault, fault? = some fault → spot.address < fault.address
  first : ∀ spot, registry.Inside path steps spot → registry.IsFaulty spot →
    ∃ fault, fault? = some fault ∧ (spot = fault ∨ fault.address < spot.address)
  faulty : ∀ fault, fault? = some fault →
    registry.Inside path steps fault ∧ registry.IsFaulty fault

theorem isTrace_of_not_inside {steps : List Step}
    (nothing : ∀ spot, ¬ registry.Inside path steps spot) :
    registry.IsTrace path steps [] none where
  ordered := List.Pairwise.nil
  complete spot :=
    ⟨fun member => (List.not_mem_nil member).elim, fun held => (nothing spot held.1).elim⟩
  first spot inside := (nothing spot inside).elim
  faulty fault isFault := by cases isFault

/-- What is found off the way is no fault. -/
theorem not_isFaulty {address : List Nat} {target : String} {task : Task}
    (found : registry.resolve (.str target) = .ok (some (target, task))) (fresh : target ∉ path) :
    ¬ registry.IsFaulty ⟨address, path, target⟩ := by
  rintro (missing | onPath)
  · exact missing (mem_names_of_resolve found)
  · exact fresh onPath

/-- Nothing comes before a fault of the first step. -/
theorem isTrace_fault {target : String} (spawns : step.action = .spawn (.str target))
    (faulty : registry.IsFaulty ⟨[0], path, target⟩) :
    registry.IsTrace path [step] [] (some ⟨[0], path, target⟩) := by
  have only (spot : Spot) (inside : registry.Inside path [step] spot) :
      spot = ⟨[0], path, target⟩ := by
    rcases (inside_spawn_iff spawns).mp inside with rfl | ⟨task, inner, found, fresh, -, -⟩
    · rfl
    · exact (not_isFaulty found fresh faulty).elim
  refine ⟨.nil, fun spot => ⟨fun member => (List.not_mem_nil member).elim, ?_⟩, ?_, ?_⟩
  · rintro ⟨inside, sound, -⟩
    rw [only spot inside] at sound
    exact (sound faulty).elim
  · exact fun spot inside _ => ⟨_, rfl, Or.inl (only spot inside)⟩
  · rintro fault isFault
    obtain rfl := Option.some.inj isFault
    exact ⟨.here rfl spawns, faulty⟩

theorem under_lt_under {first second : Spot} :
    first.under.address < second.under.address ↔ first.address < second.address := by
  simp [Spot.under]

/-- Below a step that spawns a task are the task and what is below its steps. -/
theorem inside_spawn_of_resolve {target : String} {task : Task}
    (spawns : step.action = .spawn (.str target))
    (found : registry.resolve (.str target) = .ok (some (target, task))) (fresh : target ∉ path)
    (spot : Spot) :
    registry.Inside path [step] spot ↔ spot = ⟨[0], path, target⟩ ∨
      ∃ inner, registry.Inside (path ++ [target]) task.steps inner ∧ spot = inner.under := by
  rw [inside_spawn_iff spawns]
  constructor
  · rintro (rfl | ⟨other, inner, otherFound, -, inside, rfl⟩)
    · exact Or.inl rfl
    · rw [found] at otherFound
      obtain ⟨-, rfl⟩ := Prod.mk.inj (Option.some.inj (Except.ok.inj otherFound))
      exact Or.inr ⟨inner, inside, rfl⟩
  · rintro (rfl | ⟨inner, inside, rfl⟩)
    · exact Or.inl rfl
    · exact Or.inr ⟨task, inner, found, fresh, inside, rfl⟩

/-- Behind a task that a step spawns comes what is below the steps of the task. -/
theorem isTrace_spawn {target : String} {task : Task} {visits : List Spot} {fault? : Option Spot}
    (spawns : step.action = .spawn (.str target))
    (found : registry.resolve (.str target) = .ok (some (target, task))) (fresh : target ∉ path)
    (trace : registry.IsTrace (path ++ [target]) task.steps visits fault?) :
    registry.IsTrace path [step] (⟨[0], path, target⟩ :: visits.map Spot.under)
      (fault?.map Spot.under) := by
  have sound : ¬ registry.IsFaulty ⟨[0], path, target⟩ := not_isFaulty found fresh
  have first {inner : Spot} (inside : registry.Inside (path ++ [target]) task.steps inner) :
      [0] < inner.under.address := by
    obtain ⟨index, address, same⟩ := inside.address_ne_nil
    simp [Spot.under, same]
  have inside_iff := inside_spawn_of_resolve spawns found fresh
  refine ⟨?_, fun spot => ?_, fun spot inside faulty => ?_, fun fault isFault => ?_⟩
  · refine List.pairwise_cons.mpr ⟨fun spot member => ?_, ?_⟩
    · obtain ⟨inner, innerMember, rfl⟩ := List.mem_map.mp member
      exact first ((trace.complete inner).mp innerMember).1
    · exact List.pairwise_map.mpr (trace.ordered.imp under_lt_under.mpr)
  · rw [List.mem_cons, List.mem_map, inside_iff]
    constructor
    · rintro (rfl | ⟨inner, innerMember, rfl⟩)
      · refine ⟨Or.inl rfl, sound, fun fault isFault => ?_⟩
        obtain ⟨innerFault, innerIsFault, rfl⟩ := Option.map_eq_some_iff.mp isFault
        exact first (trace.faulty innerFault innerIsFault).1
      · obtain ⟨inside, innerSound, before⟩ := (trace.complete inner).mp innerMember
        refine ⟨Or.inr ⟨inner, inside, rfl⟩, innerSound, fun fault isFault => ?_⟩
        obtain ⟨innerFault, innerIsFault, rfl⟩ := Option.map_eq_some_iff.mp isFault
        exact under_lt_under.mpr (before innerFault innerIsFault)
    · rintro ⟨rfl | ⟨inner, inside, rfl⟩, spotSound, before⟩
      · exact Or.inl rfl
      · refine Or.inr ⟨inner, (trace.complete inner).mpr ⟨inside, spotSound, ?_⟩, rfl⟩
        exact fun fault isFault => under_lt_under.mp (before fault.under (by rw [isFault]; rfl))
  · rcases (inside_iff spot).mp inside with rfl | ⟨inner, innerInside, rfl⟩
    · exact (sound faulty).elim
    · obtain ⟨fault, isFault, same | later⟩ := trace.first inner innerInside faulty
      · exact ⟨fault.under, by rw [isFault]; rfl, Or.inl (by rw [same])⟩
      · exact ⟨fault.under, by rw [isFault]; rfl, Or.inr (under_lt_under.mpr later)⟩
  · obtain ⟨inner, innerIsFault, rfl⟩ := Option.map_eq_some_iff.mp isFault
    obtain ⟨inside, faulty⟩ := trace.faulty inner innerIsFault
    exact ⟨(inside_iff _).mpr (Or.inr ⟨inner, inside, rfl⟩), faulty⟩

/-- What is below the first step comes before what is below the others. -/
theorem Inside.lt_later {other : Spot} (inside : registry.Inside path [step] spot)
    (otherInside : registry.Inside path rest other) : spot.address < other.later.address := by
  obtain ⟨address, same⟩ := inside.address_zero
  obtain ⟨index, further, otherSame⟩ := otherInside.address_ne_nil
  simp [Spot.later, same, otherSame, List.cons_lt_cons_iff]

theorem later_lt_later {first second : Spot} (inside : registry.Inside path rest first)
    (otherInside : registry.Inside path rest second) :
    first.later.address < second.later.address ↔ first.address < second.address := by
  obtain ⟨index, address, same⟩ := inside.address_ne_nil
  obtain ⟨other, further, otherSame⟩ := otherInside.address_ne_nil
  simp [Spot.later, same, otherSame, List.cons_lt_cons_iff]

/-- Nothing comes behind a fault below the first step. -/
theorem IsTrace.stop {visits : List Spot} {fault : Spot}
    (trace : registry.IsTrace path [step] visits (some fault)) (rest : List Step) :
    registry.IsTrace path (step :: rest) visits (some fault) := by
  obtain ⟨faultInside, faulty⟩ := trace.faulty fault rfl
  refine ⟨trace.ordered, fun spot => ⟨fun member => ?_, ?_⟩, fun spot inside spotFaulty => ?_,
    fun other isFault => ?_⟩
  · obtain ⟨inside, held⟩ := (trace.complete spot).mp member
    exact ⟨inside_cons_iff.mpr (Or.inl inside), held⟩
  · rintro ⟨inside, sound, before⟩
    rcases inside_cons_iff.mp inside with inside | ⟨other, otherInside, rfl⟩
    · exact (trace.complete spot).mpr ⟨inside, sound, before⟩
    · exact absurd (faultInside.lt_later otherInside) (List.lt_asymm (before fault rfl))
  · rcases inside_cons_iff.mp inside with inside | ⟨other, otherInside, rfl⟩
    · exact trace.first spot inside spotFaulty
    · exact ⟨fault, rfl, Or.inr (faultInside.lt_later otherInside)⟩
  · obtain rfl := Option.some.inj isFault
    exact ⟨inside_cons_iff.mpr (Or.inl faultInside), faulty⟩

/-- If there is no fault below the first step, what is below it is followed by what is below the
others. -/
theorem IsTrace.goOn {visits others : List Spot} {fault? : Option Spot}
    (trace : registry.IsTrace path [step] visits none)
    (further : registry.IsTrace path rest others fault?) :
    registry.IsTrace path (step :: rest) (visits ++ others.map Spot.later)
      (fault?.map Spot.later) := by
  refine ⟨?_, fun spot => ?_, fun spot inside faulty => ?_, fun fault isFault => ?_⟩
  · refine List.pairwise_append.mpr ⟨trace.ordered, ?_, fun spot member other otherMember => ?_⟩
    · refine List.pairwise_map.mpr (further.ordered.imp_of_mem fun firstMember secondMember => ?_)
      exact (later_lt_later ((further.complete _).mp firstMember).1
        ((further.complete _).mp secondMember).1).mpr
    · obtain ⟨later, laterMember, rfl⟩ := List.mem_map.mp otherMember
      exact ((trace.complete spot).mp member).1.lt_later ((further.complete later).mp laterMember).1
  · rw [List.mem_append, List.mem_map, inside_cons_iff]
    constructor
    · rintro (member | ⟨other, member, rfl⟩)
      · obtain ⟨inside, sound, -⟩ := (trace.complete spot).mp member
        refine ⟨Or.inl inside, sound, fun fault isFault => ?_⟩
        obtain ⟨later, laterIsFault, rfl⟩ := Option.map_eq_some_iff.mp isFault
        exact inside.lt_later (further.faulty later laterIsFault).1
      · obtain ⟨inside, sound, before⟩ := (further.complete other).mp member
        refine ⟨Or.inr ⟨other, inside, rfl⟩, sound, fun fault isFault => ?_⟩
        obtain ⟨later, laterIsFault, rfl⟩ := Option.map_eq_some_iff.mp isFault
        exact (later_lt_later inside (further.faulty later laterIsFault).1).mpr
          (before later laterIsFault)
    · rintro ⟨inside | ⟨other, inside, rfl⟩, sound, before⟩
      · exact Or.inl ((trace.complete spot).mpr ⟨inside, sound, fun _ isFault => by cases isFault⟩)
      · refine Or.inr ⟨other, (further.complete other).mpr ⟨inside, sound, ?_⟩, rfl⟩
        intro fault isFault
        exact (later_lt_later inside (further.faulty fault isFault).1).mp
          (before fault.later (by rw [isFault]; rfl))
  · rcases inside_cons_iff.mp inside with inFirst | ⟨other, otherInside, rfl⟩
    · obtain ⟨fault, isFault, -⟩ := trace.first spot inFirst faulty
      cases isFault
    · obtain ⟨fault, isFault, same | later⟩ := further.first other otherInside faulty
      · exact ⟨fault.later, by rw [isFault]; rfl, Or.inl (by rw [same])⟩
      · refine ⟨fault.later, by rw [isFault]; rfl, Or.inr ?_⟩
        exact (later_lt_later (further.faulty fault isFault).1 otherInside).mpr later
  · obtain ⟨later, laterIsFault, rfl⟩ := Option.map_eq_some_iff.mp isFault
    obtain ⟨inside, faulty⟩ := further.faulty later laterIsFault
    exact ⟨inside_cons_iff.mpr (Or.inr ⟨later, inside, rfl⟩), faulty⟩

/-! ### The whole expansion -/

variable {root : String} {task : Task}

/-- A trace of the root's steps behind the root, in terms of the expansion. -/
theorem IsTrace.mem_iff (found : registry.resolve (.str root) = .ok (some (root, task)))
    {visits : List Spot} {fault? : Option Spot}
    (trace : registry.IsTrace [root] task.steps visits fault?) (spot : Spot) :
    spot ∈ ⟨[], [], root⟩ :: visits ↔ registry.IsExpanded root spot ∧
      ∀ owner fault, registry.IsFault root owner fault → spot.address < fault.address := by
  have belowRoot {other : Spot} (inside : registry.Inside [root] task.steps other) :
      ([] : List Nat) < other.address := by
    obtain ⟨index, address, same⟩ := inside.address_ne_nil
    simp [same]
  rw [List.mem_cons, isExpanded_iff found, trace.complete]
  constructor
  · rintro (rfl | ⟨inside, sound, before⟩)
    · refine ⟨Or.inl rfl, fun owner fault isFault => ?_⟩
      exact belowRoot ((exists_isFault_iff found).mp ⟨owner, isFault⟩).1
    · refine ⟨Or.inr ⟨inside, sound⟩, fun owner other isFault => ?_⟩
      obtain ⟨otherInside, faulty⟩ := (exists_isFault_iff found).mp ⟨owner, isFault⟩
      obtain ⟨fault, isFirst, rfl | later⟩ := trace.first other otherInside faulty
      · exact before other isFirst
      · exact List.lt_trans (before fault isFirst) later
  · rintro ⟨rfl | ⟨inside, sound⟩, before⟩
    · exact Or.inl rfl
    · refine Or.inr ⟨inside, sound, fun fault isFirst => ?_⟩
      obtain ⟨owner, isFault⟩ := (exists_isFault_iff found).mpr (trace.faulty fault isFirst)
      exact before owner fault isFault

theorem IsTrace.isFirstFault (found : registry.resolve (.str root) = .ok (some (root, task)))
    {visits : List Spot} {fault : Spot}
    (trace : registry.IsTrace [root] task.steps visits (some fault)) :
    ∃ owner, registry.IsFirstFault root owner fault := by
  obtain ⟨owner, isFault⟩ := (exists_isFault_iff found).mpr (trace.faulty fault rfl)
  refine ⟨owner, isFault, fun otherOwner other otherIsFault => ?_⟩
  obtain ⟨inside, faulty⟩ := (exists_isFault_iff found).mp ⟨otherOwner, otherIsFault⟩
  obtain ⟨first, isFirst, held⟩ := trace.first other inside faulty
  obtain rfl := Option.some.inj isFirst
  exact held

theorem IsTrace.not_isFault (found : registry.resolve (.str root) = .ok (some (root, task)))
    {visits : List Spot} (trace : registry.IsTrace [root] task.steps visits none)
    (owner fault : Spot) : ¬ registry.IsFault root owner fault := by
  intro isFault
  obtain ⟨inside, faulty⟩ := (exists_isFault_iff found).mp ⟨owner, isFault⟩
  obtain ⟨first, isFirst, -⟩ := trace.first fault inside faulty
  cases isFirst

end Taskbook.Registry
