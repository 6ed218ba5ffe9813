/-
Directories of a tree.

Whether there is a directory at a path depends on the tree, and on whether the path can be looked
up. What is placed in a directory, and has nothing in it, leaves all other directories: none is
made or lost but in its place. So making a project leaves what is found elsewhere.
-/

import Taskbook.Proofs.Files
import Taskbook.Proofs.Project.Failing

namespace Taskbook

/-! ### Directories of a tree -/

namespace Entry

theorem place_nil_empty {inner : Entry} : empty.place inner [] = inner := by
  cases inner with
  | file content => rfl
  | directory inside => cases inside <;> rfl

/-- Something without anything in it, placed in a directory where no directory was, leaves all
other places directories or none. -/
theorem isDirectory_at?_place {entry inner : Entry} {names other : List String}
    (hollow : inner.entries = []) (outer : (entry.at? names.dropLast).any isDirectory = true)
    (free : (entry.at? names).any isDirectory = false) (differ : other ≠ names) :
    ((entry.place inner names).at? other).any isDirectory =
      (entry.at? other).any isDirectory := by
  induction names generalizing entry other with
  | nil => exact absurd (outer.symm.trans free) (by simp)
  | cons name rest inductionHypothesis =>
    cases other with
    | nil =>
      have inside : entry.isDirectory = true := by
        cases entry with
        | directory inside => rfl
        | file content => cases rest <;> cases outer
      rw [place_cons, at?_nil, at?_nil]
      exact inside.symm
    | cons asked deeper =>
      by_cases same : asked = name
      · subst same
        have deeperDiffer : deeper ≠ rest := fun equal => differ (equal ▸ rfl)
        rw [place_cons, at?_cons, entries, Ordered.find?_put_self, Option.bind_some, at?_cons]
        rw [at?_cons] at free
        cases rest with
        | nil =>
          obtain ⟨next, others, rfl⟩ := List.exists_cons_of_ne_nil deeperDiffer
          cases found : Ordered.find? entry.entries asked with
          | none =>
            rw [Option.getD_none, place_nil_empty, at?_cons, hollow]
            rfl
          | some there =>
            rw [found, Option.bind_some, at?_nil] at free
            cases there with
            | directory inside => cases free
            | file content =>
              have taken : (file content).place inner [] = inner := by cases inner <;> rfl
              rw [Option.getD_some, taken, at?_cons, hollow]
              rfl
        | cons next others =>
          rw [List.dropLast_cons_cons, at?_cons] at outer
          cases found : Ordered.find? entry.entries asked with
          | none =>
            rw [found] at outer
            cases outer
          | some there =>
            rw [found, Option.bind_some] at outer free
            rw [Option.getD_some, Option.bind_some]
            exact inductionHypothesis outer free deeperDiffer
      · rw [place_cons, at?_cons, at?_cons, entries, Ordered.find?_put_of_ne _ (Ne.symm same)]

end Entry

namespace Visit

/-- Names that can be looked up are followed to their end, unless something is missing there or a
file is on the way. -/
theorem foldlM_eq_error {names : List String} (forward : Path.backward ∉ names)
    (checked : ∀ name ∈ names, Path.checkName name = .ok ()) {start : Visit} {fault : Fault}
    (failed : names.foldlM follow start = .error fault) :
    fault = .fileOnTheWay ∨ fault = .missingFile := by
  induction names generalizing start with
  | nil => cases failed
  | cons name rest inductionHypothesis =>
    rw [List.mem_cons, not_or] at forward
    rw [List.foldlM_cons] at failed
    rcases bind_eq_error.mp failed with here | ⟨next, -, further⟩
    · rw [follow] at here
      split at here
      · exact Or.inl (Except.error.inj here).symm
      · rw [if_neg (Ne.symm forward.1), checked name List.mem_cons_self, ok_bind] at here
        split at here
        · cases here
        · exact Or.inr (Except.error.inj here).symm
    · exact inductionHypothesis forward.2
        (fun other member => checked other (List.mem_cons_of_mem _ member)) further

end Visit

namespace Files

variable {files changed : Files} {path : Path}

/-- Whether there is a directory at the end of a path that leads forward, however long it is. -/
def holdsDirectory (files : Files) (path : Path) : Bool :=
  (files.at? path).any Entry.isDirectory

/-- There is a directory exactly at the end of a path that can be looked up. -/
theorem isDirectory_eq (resolved : Path.backward ∉ path.parts)
    (named : ∀ name ∈ path.parts, Path.checkName name = .ok ()) :
    files.isDirectory path =
      match path.check with
      | .ok () => .ok (files.holdsDirectory path)
      | .error .nameTooLong => .error .nameTooLong
      | .error _ => .ok false := by
  cases check : path.check with
  | error fault =>
    rw [isDirectory, entry?, visit, check, error_bind]
    cases fault <;> rfl
  | ok checked =>
    cases there : files.at? path with
    | some entry =>
      obtain ⟨trail, visited⟩ := (visit_eq_ok_iff resolved).mpr ⟨check, named, there⟩
      rw [isDirectory, entry?, visited, holdsDirectory, there]
      rfl
    | none =>
      cases visited : files.visit path with
      | ok last =>
        obtain ⟨-, -, reached⟩ := (visit_eq_ok_iff resolved).mp ⟨last.trail, visited⟩
        cases there.symm.trans reached
      | error fault =>
        rw [isDirectory, entry?, visited, holdsDirectory, there]
        rw [visit, check, ok_bind] at visited
        rcases Visit.foldlM_eq_error resolved named visited with rfl | rfl <;> rfl

/-- What a path can be looked up as depends on the tree alone. -/
theorem isDirectory_congr (resolved : Path.backward ∉ path.parts)
    (named : ∀ name ∈ path.parts, Path.checkName name = .ok ())
    (same : changed.holdsDirectory path = files.holdsDirectory path) :
    changed.isDirectory path = files.isDirectory path := by
  rw [isDirectory_eq resolved named, isDirectory_eq resolved named, same]

theorem holdsDirectory_of_isDirectory (resolved : Path.backward ∉ path.parts)
    (isDirectory : files.isDirectory path = .ok true) : files.holdsDirectory path = true := by
  obtain ⟨entries, trail, visited⟩ := isDirectory_eq_true isDirectory
  obtain ⟨-, -, reached⟩ := (visit_eq_ok_iff resolved).mp ⟨trail, visited⟩
  rw [holdsDirectory, at?, reached]
  rfl

/-- There is a directory at the end of a path whose names are ones that a place can have. -/
structure HasDirectory (files : Files) (path : Path) : Prop where
  resolved : Path.backward ∉ path.parts
  named : ∀ name ∈ path.parts, Path.checkName name = .ok ()
  holds : files.holdsDirectory path = true

theorem HasDirectory.of_isDirectory (resolved : Path.backward ∉ path.parts)
    (isDirectory : files.isDirectory path = .ok true) : files.HasDirectory path := by
  obtain ⟨entries, trail, visited⟩ := isDirectory_eq_true isDirectory
  obtain ⟨-, named, -⟩ := (visit_eq_ok_iff resolved).mp ⟨trail, visited⟩
  exact ⟨resolved, named, holdsDirectory_of_isDirectory resolved isDirectory⟩

/-- What a directory is in is a directory. -/
theorem HasDirectory.of_append {below : List String}
    (has : files.HasDirectory ⟨path.parts ++ below⟩) : files.HasDirectory path := by
  refine ⟨fun member => has.resolved (List.mem_append_left _ member),
    fun name member => has.named name (List.mem_append_left _ member), ?_⟩
  have holds := has.holds
  rw [holdsDirectory, at?, Entry.at?_append] at holds
  rw [holdsDirectory, at?]
  cases reached : files.root.at? path.parts with
  | none =>
    rw [reached] at holds
    cases holds
  | some entry =>
    cases entry with
    | directory inside => rfl
    | file content =>
      rw [reached, Option.bind_some] at holds
      cases below <;> cases holds

/-- The names of a place in a directory are ones that a place can have. -/
theorem HasDirectory.child (has : files.HasDirectory path) {name : String}
    (forward : name ≠ Path.backward) (checked : Path.checkName name = .ok ()) :
    Path.backward ∉ (path.child name).parts ∧
      ∀ other ∈ (path.child name).parts, Path.checkName other = .ok () := by
  rw [Path.parts_child]
  refine ⟨fun member => ?_, fun other member => ?_⟩
  · rcases List.mem_append.mp member with inPath | here
    · exact has.resolved inPath
    · exact forward (List.mem_singleton.mp here).symm
  · rcases List.mem_append.mp member with inPath | here
    · exact has.named other inPath
    · exact List.mem_singleton.mp here ▸ checked

/-! ### What changes -/

/-- What is placed in a directory leaves all other directories, if nothing is in it and no directory
was in its place. -/
theorem holdsDirectory_place {name : String} {inner : Entry} (has : files.HasDirectory path)
    (hollow : inner.entries = []) (free : files.holdsDirectory (path.child name) = false)
    {other : Path} (differ : other ≠ path.child name) :
    (files.place (path.child name) inner).holdsDirectory other = files.holdsDirectory other := by
  have outer : (files.root.at? (path.child name).parts.dropLast).any Entry.isDirectory = true := by
    rw [Path.parts_child, List.dropLast_concat]
    exact has.holds
  refine Entry.isDirectory_at?_place hollow outer free fun same => differ ?_
  cases other
  exact congrArg Path.mk same

theorem holdsDirectory_place_file {name : String} (has : files.HasDirectory path)
    (free : files.holdsDirectory (path.child name) = false) (content : ByteArray) (other : Path) :
    (files.place (path.child name) (.file content)).holdsDirectory other =
      files.holdsDirectory other := by
  by_cases same : other = path.child name
  · subst same
    rw [free, holdsDirectory, at?, place, Entry.at?_place, Entry.place_file_nil]
    rfl
  · exact holdsDirectory_place has rfl free same

/-- Nothing is missing for a directory that is made in one that is there. -/
theorem makeDirectory_ne_missing (has : files.HasDirectory path) (name : String) :
    files.makeDirectory (path.child name) ≠ .error .missingFile := by
  intro missing
  rcases bind_eq_error.mp missing with unchecked | ⟨⟨⟩, -, missing⟩
  · exact check_ne_missing _ unchecked
  rw [Path.parts_child, List.getLast?_concat] at missing
  dsimp only at missing
  rw [Path.parent_child] at missing
  rcases bind_eq_error.mp missing with nowhere | ⟨outer, -, missing⟩
  · rcases bind_eq_error.mp nowhere with unchecked | ⟨⟨⟩, checked, -⟩
    · exact check_ne_missing _ unchecked
    · have holds := has.holds
      rw [holdsDirectory] at holds
      cases there : files.at? path with
      | none =>
        rw [there] at holds
        cases holds
      | some entry =>
        obtain ⟨trail, visited⟩ := (visit_eq_ok_iff has.resolved).mpr ⟨checked, has.named, there⟩
        cases visited.symm.trans nowhere
  · split at missing
    · cases missing
    · cases missing
    · rename_i notMissing _
      exact notMissing (Except.error.inj missing)

/-- In a directory that is there, no other is made than the one that is asked for. -/
theorem ensureDirectory_child [Depths] {name : String} {prepared : Files}
    (has : files.HasDirectory path) (forward : name ≠ Path.backward)
    (nameChecked : Path.checkName name = .ok ())
    (made : files.ensureDirectory (path.child name) = (prepared, .ok ())) :
    prepared.isDirectory (path.child name) = .ok true ∧
      ∀ other ≠ path.child name, prepared.holdsDirectory other = files.holdsDirectory other := by
  obtain ⟨resolved, named⟩ := has.child forward nameChecked
  rw [ensureDirectory_eq, ensureWithin] at made
  split at made
  · rename_i changed madeHere
    obtain ⟨rfl, -⟩ := Prod.mk.inj made
    obtain ⟨-, absent, rfl⟩ := makeDirectory_places resolved madeHere
    obtain ⟨-, trail, visited⟩ := makeDirectory_eq_ok resolved madeHere
    refine ⟨isDirectory_of_visit visited, fun other differ => ?_⟩
    refine holdsDirectory_place has rfl ?_ differ
    rw [holdsDirectory, at?, absent]
    rfl
  · rename_i missing
    exact (makeDirectory_ne_missing has name missing).elim
  · rename_i fault notMissing failed
    obtain ⟨rfl, there⟩ := Prod.mk.inj made
    obtain ⟨entries, trail, visited⟩ := unlessDirectory_eq_ok there
    exact ⟨isDirectory_of_visit visited, fun _ _ => rfl⟩

/-- A text is written by placing its octets. -/
theorem place_of_writeText {text : String} {session left : Session}
    (resolved : Path.backward ∉ path.parts)
    (ran : Operation.writeText path text session = (.ok (), left)) :
    (path.check = .ok () ∧ ∀ name ∈ path.parts, Path.checkName name = .ok ()) ∧
      ∃ content, left = ⟨session.files.place path (.file content), session.reports⟩ := by
  cases opens : session.files.writeOctets path ByteArray.empty with
  | error fault =>
    rw [Operation.writeText, Operation.bind_of_error (Operation.change_apply_error opens)] at ran
    cases ran
  | ok opened =>
    rw [Operation.writeText, Operation.bind_of_ok (Operation.change_apply opens)] at ran
    cases wrote : opened.writeText path text with
    | error fault =>
      have failed : Operation.change (fun files => files.writeText path text)
          ⟨opened, session.reports⟩ = _ := Operation.change_apply_error wrote
      rw [failed] at ran
      cases ran
    | ok changed =>
      have done : Operation.change (fun files => files.writeText path text)
          ⟨opened, session.reports⟩ = _ := Operation.change_apply wrote
      rw [done] at ran
      obtain ⟨content, wroteOctets⟩ := writeText_eq_ok wrote
      have again := writeOctets_again resolved opens content
      obtain rfl := Except.ok.inj (again.symm.trans wroteOctets)
      exact ⟨(writeOctets_eq_ok resolved opens).1, content, (Prod.mk.inj ran).2.symm⟩

end Files

end Taskbook
