/-
Looking tasks up.

A text resolves in a registry exactly if it is among the names of the registry, and then to
a task of that name.
-/

import Taskbook.Proofs.Outcome
import Taskbook.Rendering

namespace Taskbook.Registry

variable {registry : Registry}

/-- A name resolves to the task that it is the name of. -/
theorem eq_of_resolve {name key : String} {task : Task}
    (found : registry.resolve (.str name) = .ok (some (key, task))) : key = name := by
  have looked := Except.ok.inj found
  simpa using List.find?_some looked

theorem mem_names_of_resolve {name key : String} {task : Task}
    (found : registry.resolve (.str name) = .ok (some (key, task))) :
    name ∈ registry.names := by
  rw [← eq_of_resolve found]
  exact List.mem_map_of_mem (mem_of_resolve found)

/-- The names of the registry are those that resolve. -/
theorem resolve_of_mem_names {name : String} (member : name ∈ registry.names) :
    ∃ task, registry.resolve (.str name) = .ok (some (name, task)) := by
  obtain ⟨⟨key, task⟩, entryMember, rfl⟩ := List.mem_map.mp member
  cases found : List.find? (fun entry => entry.1 = key) registry.tasks with
  | none =>
    rw [List.find?_eq_none] at found
    exact absurd (decide_eq_true rfl) (found _ entryMember)
  | some entry =>
    obtain ⟨other, task⟩ := entry
    have same : other = key := by simpa using List.find?_some found
    subst same
    exact ⟨task, congrArg Except.ok found⟩

theorem resolve_eq_none {name : String} (missing : registry.resolve (.str name) = .ok none) :
    name ∉ registry.names := by
  intro member
  obtain ⟨task, found⟩ := resolve_of_mem_names member
  rw [found] at missing
  cases Except.ok.inj missing

/-- What must be there but is not among the names is missed. -/
theorem find_of_not_mem_names {name : String} (absent : name ∉ registry.names) :
    registry.find (.str name) = .error (.taskMissing (.str name)) := by
  cases resolved : registry.resolve (.str name) with
  | error fault => cases resolved
  | ok entry? =>
    cases entry? with
    | none =>
      rw [find, resolved]
      rfl
    | some entry =>
      obtain ⟨key, task⟩ := entry
      exact (absent (mem_names_of_resolve resolved)).elim

/-- What is not a text resolves in no registry, and always for the same reason. -/
theorem resolve_of_not_str (registry other : Registry) {target : Value}
    (untextual : ∀ text, target ≠ .str text) :
    registry.resolve target = .ok none ∧ other.resolve target = .ok none ∨
      ∃ fault, registry.resolve target = .error fault ∧ other.resolve target = .error fault := by
  cases target with
  | str text => exact (untextual text rfl).elim
  | _ =>
    unfold resolve
    dsimp only
    split
    · exact Or.inl ⟨rfl, rfl⟩
    · exact Or.inr ⟨_, rfl, rfl⟩

/-- What must be there is found where it resolves, and missed where it does not. -/
theorem find_eq_ok {name : Value} {entry : String × Task} :
    registry.find name = .ok entry ↔ registry.resolve name = .ok (some entry) := by
  unfold find
  cases registry.resolve name with
  | error fault =>
    constructor
    · intro found
      cases found
    · intro resolved
      cases resolved
  | ok entry? =>
    cases entry? with
    | none =>
      constructor
      · intro found
        cases found
      · intro resolved
        cases resolved
    | some other =>
      constructor
      · intro found
        rw [Except.ok.inj found]
      · intro resolved
        rw [Option.some.inj (Except.ok.inj resolved)]
        rfl

end Taskbook.Registry
