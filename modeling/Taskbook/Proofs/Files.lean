/-
What is written can be read again.

A path is followed with the way back at hand, so that two points can lead back along it. On a
resolved path there are none, and following it is looking up one name after the other. Every
change at such a path, be it a file that is written or a directory that is made, is the same
change of the tree: `Entry.place`. So a single lemma tells what is there afterwards.
-/

import Taskbook.Files
import Taskbook.Proofs.Ordered
import Taskbook.Proofs.Outcome

namespace Taskbook

/-! ### Looking up names -/

namespace Entry

/-- What is at the end of some names, none of which leads back. -/
def at? : Entry → List String → Option Entry
  | entry, [] => some entry
  | directory entries, name :: rest =>
    match Ordered.find? entries name with
    | some inner => inner.at? rest
    | none => none
  | file _, _ :: _ => none

theorem at?_nil (entry : Entry) : entry.at? [] = some entry := by
  cases entry <;> rfl

/-- What is in a directory; nothing is in a file. -/
def entries : Entry → List (String × Entry)
  | directory inside => inside
  | file _ => []

theorem at?_cons (entry : Entry) (name : String) (rest : List String) :
    entry.at? (name :: rest) = (Ordered.find? entry.entries name).bind (·.at? rest) := by
  cases entry with
  | directory inside =>
    rw [at?, entries]
    cases Ordered.find? inside name <;> rfl
  | file content => rfl

theorem place_cons (entry inner : Entry) (name : String) (rest : List String) :
    entry.place inner (name :: rest) = directory (Ordered.put entry.entries name
      (((Ordered.find? entry.entries name).getD empty).place inner rest)) := by
  cases entry <;> rfl

theorem at?_append (entry : Entry) (names rest : List String) :
    entry.at? (names ++ rest) = (entry.at? names).bind fun inner => inner.at? rest := by
  induction names generalizing entry with
  | nil => rw [List.nil_append, at?_nil, Option.bind_some]
  | cons name others inductionHypothesis =>
    rw [List.cons_append, at?_cons, at?_cons, Option.bind_assoc]
    exact congrArg _ (funext inductionHypothesis)

/-- A file takes the place of whatever there is. -/
theorem place_file_nil (entry : Entry) (content : ByteArray) :
    entry.place (.file content) [] = .file content := by
  cases entry <;> rfl

/-- What is placed at the end of some names is there, in what was there before. -/
theorem at?_place (entry inner : Entry) (names : List String) :
    (entry.place inner names).at? names =
      some (((entry.at? names).getD empty).place inner []) := by
  induction names generalizing entry with
  | nil => rw [at?_nil, at?_nil, Option.getD_some]
  | cons name rest inductionHypothesis =>
    rw [place_cons, at?_cons, entries, Ordered.find?_put_self, Option.bind_some,
      inductionHypothesis, at?_cons]
    cases Ordered.find? entry.entries name with
    | some next => rfl
    | none => cases rest <;> rfl

/-- What is placed at the end of some names leaves what is in the same directory. -/
theorem at?_place_of_ne (entry inner : Entry) (names : List String) {name other : String}
    (differ : other ≠ name) :
    (entry.place inner (names ++ [name])).at? (names ++ [other]) =
      entry.at? (names ++ [other]) := by
  induction names generalizing entry with
  | nil =>
    rw [List.nil_append, List.nil_append, place_cons, at?_cons, at?_cons]
    exact congrArg (Option.bind · _) (Ordered.find?_put_of_ne _ differ.symm _)
  | cons first rest inductionHypothesis =>
    rw [List.cons_append, List.cons_append, place_cons, at?_cons, entries,
      Ordered.find?_put_self, Option.bind_some, inductionHypothesis, at?_cons]
    cases Ordered.find? entry.entries first with
    | none => cases rest <;> rfl
    | some next => rfl

/-- A file that is placed where a file has been placed takes its place. -/
theorem place_place_file (entry : Entry) (content later : ByteArray) (names : List String) :
    (entry.place (.file content) names).place (.file later) names =
      entry.place (.file later) names := by
  induction names generalizing entry with
  | nil => rw [place_file_nil, place_file_nil]
  | cons name rest inductionHypothesis =>
    rw [place_cons, place_cons, entries, Ordered.find?_put_self, Option.getD_some,
      Ordered.put_put, inductionHypothesis, place_cons]

end Entry

/-! ### Following names -/

namespace Visit

/-- Following a name that does not lead back looks it up. -/
theorem follow_eq_ok {visit next : Visit} {name : String} (forward : name ≠ Path.backward)
    (followed : visit.follow name = .ok next) :
    ∃ entries entry, visit.entry = .directory entries ∧ Path.checkName name = .ok () ∧
      Ordered.find? entries name = some entry ∧
      next = ⟨entry, (name, visit.entry) :: visit.trail⟩ := by
  unfold follow at followed
  split at followed
  · cases followed
  · rename_i entries isDirectory
    rw [if_neg forward] at followed
    obtain ⟨⟨⟩, checked, followed⟩ := bind_eq_ok.mp followed
    split at followed
    · rename_i entry found
      exact ⟨entries, entry, isDirectory, checked, found, (Except.ok.inj followed).symm⟩
    · cases followed

theorem follow_of_find? {visit : Visit} {name : String} {entries : List (String × Entry)}
    {entry : Entry} (forward : name ≠ Path.backward) (inside : visit.entry = .directory entries)
    (checked : Path.checkName name = .ok ()) (found : Ordered.find? entries name = some entry) :
    visit.follow name = .ok ⟨entry, (name, visit.entry) :: visit.trail⟩ := by
  rw [follow, inside]
  dsimp only
  rw [if_neg forward, checked, ok_bind, found]
  rfl

theorem follow_of_find?_none {visit : Visit} {name : String} {entries : List (String × Entry)}
    (forward : name ≠ Path.backward) (inside : visit.entry = .directory entries)
    (checked : Path.checkName name = .ok ()) (missing : Ordered.find? entries name = none) :
    visit.follow name = .error .missingFile := by
  rw [follow, inside]
  dsimp only
  rw [if_neg forward, checked, ok_bind, missing]
  rfl

/-- Names that are followed to their end are looked up, and the way back is of no account. -/
theorem at?_of_foldlM {names : List String} (forward : Path.backward ∉ names) {start last : Visit}
    (followed : names.foldlM follow start = .ok last) :
    (∀ name ∈ names, Path.checkName name = .ok ()) ∧ start.entry.at? names = some last.entry := by
  induction names generalizing start with
  | nil =>
    obtain rfl := Except.ok.inj followed
    exact ⟨fun name member => (List.not_mem_nil member).elim, Entry.at?_nil _⟩
  | cons name rest inductionHypothesis =>
    rw [List.mem_cons, not_or] at forward
    obtain ⟨notFirst, notRest⟩ := forward
    rw [List.foldlM_cons] at followed
    obtain ⟨next, first, followed⟩ := bind_eq_ok.mp followed
    obtain ⟨entries, entry, inside, checked, found, rfl⟩ := follow_eq_ok (Ne.symm notFirst) first
    obtain ⟨restChecked, reached⟩ := inductionHypothesis notRest followed
    refine ⟨fun other member => ?_, ?_⟩
    · rcases List.mem_cons.mp member with rfl | inRest
      · exact checked
      · exact restChecked other inRest
    · rw [inside, Entry.at?, found]
      exact reached

theorem foldlM_of_at? {names : List String} (forward : Path.backward ∉ names)
    (checked : ∀ name ∈ names, Path.checkName name = .ok ()) (start : Visit) {entry : Entry}
    (reached : start.entry.at? names = some entry) :
    ∃ trail, names.foldlM follow start = .ok ⟨entry, trail⟩ := by
  induction names generalizing start with
  | nil =>
    rw [Entry.at?_nil] at reached
    obtain rfl := Option.some.inj reached
    exact ⟨start.trail, rfl⟩
  | cons name rest inductionHypothesis =>
    rw [List.mem_cons, not_or] at forward
    obtain ⟨notFirst, notRest⟩ := forward
    cases inside : start.entry with
    | file content =>
      rw [inside] at reached
      cases reached
    | directory entries =>
      rw [inside, Entry.at?] at reached
      cases found : Ordered.find? entries name with
      | none =>
        rw [found] at reached
        cases reached
      | some inner =>
        rw [found] at reached
        have first := follow_of_find? (Ne.symm notFirst) inside
          (checked name List.mem_cons_self) found
        obtain ⟨trail, followed⟩ :=
          inductionHypothesis notRest
            (fun other member => checked other (List.mem_cons_of_mem _ member))
            ⟨inner, (name, start.entry) :: start.trail⟩ reached
        exact ⟨trail, by rw [List.foldlM_cons, first, ok_bind, followed]⟩

/-- A change at the end of some names is a change of the tree that they were followed from. -/
theorem replace_place {names : List String} (forward : Path.backward ∉ names)
    {start last : Visit} (followed : names.foldlM follow start = .ok last) (inner : Entry)
    (rest : List String) :
    last.replace (last.entry.place inner rest) =
      start.replace (start.entry.place inner (names ++ rest)) := by
  induction names generalizing start with
  | nil =>
    obtain rfl := Except.ok.inj followed
    rfl
  | cons name others inductionHypothesis =>
    rw [List.mem_cons, not_or] at forward
    obtain ⟨notFirst, notRest⟩ := forward
    rw [List.foldlM_cons] at followed
    obtain ⟨next, first, followed⟩ := bind_eq_ok.mp followed
    obtain ⟨entries, entry, inside, checked, found, rfl⟩ := follow_eq_ok (Ne.symm notFirst) first
    rw [inductionHypothesis notRest followed, inside, List.cons_append, Entry.place, found]
    rfl

end Visit

/-! ### Following paths -/

namespace Files

variable {files : Files} {path : Path}

/-- A path can be followed exactly if it and its names can be looked up and it leads somewhere. -/
theorem visit_eq_ok_iff (resolved : Path.backward ∉ path.parts) {entry : Entry} :
    (∃ trail, files.visit path = .ok ⟨entry, trail⟩) ↔
      path.check = .ok () ∧ (∀ name ∈ path.parts, Path.checkName name = .ok ()) ∧
        files.root.at? path.parts = some entry := by
  constructor
  · rintro ⟨trail, visited⟩
    obtain ⟨⟨⟩, checked, followed⟩ := bind_eq_ok.mp visited
    exact ⟨checked, Visit.at?_of_foldlM resolved followed⟩
  · rintro ⟨checked, namesChecked, reached⟩
    obtain ⟨trail, followed⟩ :=
      Visit.foldlM_of_at? resolved namesChecked ⟨files.root, []⟩ reached
    exact ⟨trail, by rw [visit, checked, ok_bind, followed]⟩

/-- A change at the end of a path that can be followed is a change of the whole tree. -/
theorem replace_visit (resolved : Path.backward ∉ path.parts) {last : Visit}
    (visited : files.visit path = .ok last) (inner : Entry) (rest : List String) :
    last.replace (last.entry.place inner rest) = files.root.place inner (path.parts ++ rest) := by
  obtain ⟨⟨⟩, checked, followed⟩ := bind_eq_ok.mp visited
  exact Visit.replace_place resolved followed inner rest

/-- What is placed at a path is there, in what was there before. -/
theorem visit_place (files : Files) (resolved : Path.backward ∉ path.parts) (checked : path.check = .ok ())
    (namesChecked : ∀ name ∈ path.parts, Path.checkName name = .ok ()) (inner : Entry) :
    ∃ trail, (files.place path inner).visit path =
      .ok ⟨((files.root.at? path.parts).getD .empty).place inner [], trail⟩ :=
  (visit_eq_ok_iff resolved).mpr ⟨checked, namesChecked, Entry.at?_place _ _ _⟩

theorem isPresent_of_visit {last : Visit} (visited : files.visit path = .ok last) :
    files.isPresent path = .ok true := by
  rw [isPresent, entry?, visited]
  rfl

theorem isDirectory_eq_true (isDirectory : files.isDirectory path = .ok true) :
    ∃ entries trail, files.visit path = .ok ⟨.directory entries, trail⟩ := by
  rw [Files.isDirectory, entry?] at isDirectory
  split at isDirectory
  · rename_i last visited
    obtain ⟨entry, trail⟩ := last
    cases entry with
    | directory entries => exact ⟨entries, trail, visited⟩
    | file content => cases isDirectory
  · cases isDirectory
  · cases isDirectory

theorem isDirectory_of_visit {entries : List (String × Entry)} {trail : List (String × Entry)}
    (visited : files.visit path = .ok ⟨.directory entries, trail⟩) :
    files.isDirectory path = .ok true := by
  rw [isDirectory, entry?, visited]
  rfl

end Files

namespace Path

variable {path : Path}

theorem parts_child (path : Path) (name : String) : (path.child name).parts = path.parts ++ [name] :=
  rfl

@[simp]
theorem parent_child (path : Path) (name : String) : (path.child name).parent = path := by
  rw [parent, parts_child, List.dropLast_concat]

/-- A path with a last name is the place of that name in its parent. -/
theorem eq_child {name : String} (last : path.parts.getLast? = some name) :
    path = path.parent.child name := by
  obtain ⟨before, parts⟩ := List.getLast?_eq_some_iff.mp last
  cases path
  subst parts
  simp [child, parent]

theorem resolved_parent (resolved : backward ∉ path.parts) : backward ∉ path.parent.parts :=
  fun member => resolved (List.dropLast_subset _ member)

end Path

/-! ### Making directories -/

namespace Files

variable {files : Files} {path : Path}

/-- That a text is no path is not that nothing is there. -/
theorem octetCount_ne_missing (text : String) : Path.octetCount text ≠ .error .missingFile := by
  intro missing
  unfold Path.octetCount at missing
  dsimp only at missing
  split at missing
  · rw [pure_bind] at missing
    split at missing <;> cases missing
  · cases missing

theorem checkName_ne_missing (name : String) : Path.checkName name ≠ .error .missingFile := by
  intro missing
  rcases bind_eq_error.mp missing with uncounted | ⟨count, -, tooLong⟩
  · exact octetCount_ne_missing name uncounted
  · split at tooLong <;> cases tooLong

theorem check_ne_missing (path : Path) : path.check ≠ .error .missingFile := by
  intro missing
  rcases bind_eq_error.mp missing with uncounted | ⟨count, -, tooLong⟩
  · exact octetCount_ne_missing path.text uncounted
  · split at tooLong <;> cases tooLong

/-- Nothing has a name exactly where it can be looked up in a directory and is not there. -/
theorem follow_eq_missing {visit : Visit} {name : String} (forward : name ≠ Path.backward)
    (missing : visit.follow name = .error .missingFile) :
    ∃ entries, visit.entry = .directory entries ∧ Path.checkName name = .ok () ∧
      Ordered.find? entries name = none := by
  unfold Visit.follow at missing
  split at missing
  · cases missing
  · rename_i entries inside
    rw [if_neg forward] at missing
    rcases bind_eq_error.mp missing with unchecked | ⟨⟨⟩, checked, missing⟩
    · exact absurd unchecked (checkName_ne_missing name)
    · split at missing
      · cases missing
      · rename_i absent
        exact ⟨entries, inside, checked, absent⟩

/-- A change of one name in a directory is a change at the path of the name. -/
theorem put_eq_place (resolved : Path.backward ∉ path.parts) {entries : List (String × Entry)}
    {trail : List (String × Entry)} (visited : files.visit path = .ok ⟨.directory entries, trail⟩)
    (name : String) {inner : Entry}
    (replaces : ((Ordered.find? entries name).getD .empty).place inner [] = inner) :
    (⟨(Visit.mk (.directory entries) trail).put name inner⟩ : Files) =
      files.place (path.child name) inner := by
  have inside : (Entry.directory entries).put name inner =
      (Entry.directory entries).place inner [name] := by
    show Entry.directory (Ordered.put entries name inner) = Entry.directory (Ordered.put entries
      name (((Ordered.find? entries name).getD .empty).place inner []))
    rw [replaces]
  rw [Visit.put, inside, replace_visit resolved visited, place, Path.parts_child]

/-- A directory is made by placing it where nothing was, at a path that can be looked up. -/
theorem makeDirectory_places (resolved : Path.backward ∉ path.parts) {changed : Files}
    (made : files.makeDirectory path = .ok changed) :
    (path.check = .ok () ∧ ∀ name ∈ path.parts, Path.checkName name = .ok ()) ∧
      files.root.at? path.parts = none ∧ changed = files.place path .empty := by
  obtain ⟨⟨⟩, checked, made⟩ := bind_eq_ok.mp made
  split at made
  · cases made
  · rename_i name last
    obtain ⟨outer, visited, made⟩ := bind_eq_ok.mp made
    split at made
    · cases made
    · rename_i missing
      have forward : name ≠ Path.backward := by
        rintro rfl
        exact resolved (List.mem_of_getLast? last)
      have parentResolved := Path.resolved_parent resolved
      obtain ⟨entry, trail⟩ := outer
      obtain ⟨entries, rfl, nameChecked, absent⟩ := follow_eq_missing forward missing
      obtain ⟨-, namesChecked, reached⟩ := (visit_eq_ok_iff parentResolved).mp ⟨trail, visited⟩
      have whole : path = path.parent.child name := Path.eq_child last
      refine ⟨⟨checked, ?_⟩, ?_, ?_⟩
      · rw [whole, Path.parts_child]
        intro other member
        rcases List.mem_append.mp member with before | here
        · exact namesChecked other before
        · obtain rfl := List.mem_singleton.mp here
          exact nameChecked
      · rw [whole, Path.parts_child, Entry.at?_append, reached, Option.bind_some, Entry.at?,
          absent]
      · obtain rfl := Except.ok.inj made
        rw [put_eq_place parentResolved visited name (by rw [absent]; rfl), ← whole]
    · cases made

/-- A directory is made where nothing was. It is there then, and it is empty. -/
theorem makeDirectory_eq_ok (resolved : Path.backward ∉ path.parts) {changed : Files}
    (made : files.makeDirectory path = .ok changed) :
    files.root.at? path.parts = none ∧
      ∃ trail, changed.visit path = .ok ⟨.directory [], trail⟩ := by
  obtain ⟨⟨checked, namesChecked⟩, untouched, rfl⟩ := makeDirectory_places resolved made
  have placed := visit_place files resolved checked namesChecked .empty
  rw [untouched] at placed
  exact ⟨untouched, placed⟩

theorem unlessDirectory_eq_ok {fault : Fault}
    (there : files.unlessDirectory path fault = .ok ()) :
    ∃ entries trail, files.visit path = .ok ⟨.directory entries, trail⟩ := by
  obtain ⟨isThere, asked, there⟩ := bind_eq_ok.mp there
  cases isThere with
  | true => exact isDirectory_eq_true asked
  | false => cases there

/-- A name in an empty directory leads nowhere. -/
theorem not_visit_of_empty (resolved : Path.backward ∉ path.parts) {name : String}
    (last : path.parts.getLast? = some name) {trail : List (String × Entry)}
    (empty : files.visit path.parent = .ok ⟨.directory [], trail⟩) {visit : Visit}
    (visited : files.visit path = .ok visit) : False := by
  obtain ⟨entry, back⟩ := visit
  obtain ⟨-, -, reached⟩ := (visit_eq_ok_iff resolved).mp ⟨back, visited⟩
  obtain ⟨-, -, parentReached⟩ :=
    (visit_eq_ok_iff (Path.resolved_parent resolved)).mp ⟨trail, empty⟩
  rw [Path.eq_child last, Path.parts_child, Entry.at?_append, parentReached] at reached
  cases reached

/-- Where a directory is made if there is none, there is one then. Either nothing has changed, or
it is empty. -/
theorem visit_of_ensureWithin {bound : Nat} (resolved : Path.backward ∉ path.parts)
    {prepared : Files} (made : files.ensureWithin bound path = (prepared, .ok ())) :
    ∃ entries trail, prepared.visit path = .ok ⟨.directory entries, trail⟩ ∧
      (entries = [] ∨ prepared = files) := by
  induction bound generalizing path prepared with
  | zero => cases made
  | succ bound inductionHypothesis =>
    rw [ensureWithin] at made
    split at made
    · rename_i changed madeHere
      obtain ⟨rfl, -⟩ := Prod.mk.inj made
      obtain ⟨-, trail, visited⟩ := makeDirectory_eq_ok resolved madeHere
      exact ⟨[], trail, visited, Or.inl rfl⟩
    · split at made
      rename_i between outcome parentMade
      split at made
      · cases made
      · obtain ⟨entries, trail, parentVisited, unchanged⟩ :=
          inductionHypothesis (Path.resolved_parent resolved) parentMade
        split at made
        · rename_i changed madeHere
          obtain ⟨rfl, -⟩ := Prod.mk.inj made
          obtain ⟨-, trail, visited⟩ := makeDirectory_eq_ok resolved madeHere
          exact ⟨[], trail, visited, Or.inl rfl⟩
        · rename_i fault failed
          obtain ⟨rfl, there⟩ := Prod.mk.inj made
          obtain ⟨inside, back, visited⟩ := unlessDirectory_eq_ok there
          refine ⟨inside, back, visited, ?_⟩
          rcases unchanged with rfl | same
          · cases last : path.parts.getLast? with
            | some name => exact (not_visit_of_empty resolved last parentVisited visited).elim
            | none =>
              have here : path.parent = path := by
                cases path
                rw [List.getLast?_eq_none_iff] at last
                subst last
                rfl
              rw [here, visited] at parentVisited
              cases parentVisited
              exact Or.inl rfl
          · exact Or.inr same
    · rename_i fault notMissing failed
      obtain ⟨rfl, there⟩ := Prod.mk.inj made
      obtain ⟨entries, trail, visited⟩ := unlessDirectory_eq_ok there
      exact ⟨entries, trail, visited, Or.inr rfl⟩

/-- What is below a path stays when a directory is made there: nothing was, and nothing is. -/
theorem at?_of_makeDirectory (resolved : Path.backward ∉ path.parts) {changed : Files}
    (made : files.makeDirectory path = .ok changed) (name : String) (rest : List String) :
    changed.root.at? (path.parts ++ name :: rest) =
      files.root.at? (path.parts ++ name :: rest) := by
  obtain ⟨absent, trail, visited⟩ := makeDirectory_eq_ok resolved made
  obtain ⟨-, -, reached⟩ := (visit_eq_ok_iff resolved).mp ⟨trail, visited⟩
  rw [Entry.at?_append, Entry.at?_append, absent, reached]
  rfl

/-- What is below a path stays when a directory is made there and those it is in, and also when
not all of them can be made. -/
theorem at?_of_ensureWithin (bound : Nat) (resolved : Path.backward ∉ path.parts)
    (name : String) (rest : List String) :
    (files.ensureWithin bound path).1.root.at? (path.parts ++ name :: rest) =
      files.root.at? (path.parts ++ name :: rest) := by
  induction bound generalizing path name rest with
  | zero => rfl
  | succ bound inductionHypothesis =>
    have parentStays : (files.ensureWithin bound path.parent).1.root.at?
        (path.parts ++ name :: rest) = files.root.at? (path.parts ++ name :: rest) := by
      have parentResolved := Path.resolved_parent resolved
      cases last : path.parts.getLast? with
      | some child =>
        have parts : path.parts ++ name :: rest = path.parent.parts ++ child :: name :: rest := by
          rw [congrArg Path.parts (Path.eq_child last), Path.parts_child, List.append_assoc]
          rfl
        rw [parts]
        exact inductionHypothesis parentResolved child (name :: rest)
      | none =>
        have parts : path.parts = path.parent.parts := by
          rw [Path.parent, List.getLast?_eq_none_iff.mp last]
          rfl
        rw [parts]
        exact inductionHypothesis parentResolved name rest
    rw [ensureWithin]
    split
    · rename_i changed made
      exact at?_of_makeDirectory resolved made name rest
    · split
      rename_i prepared outcome parentMade
      rw [parentMade] at parentStays
      split
      · exact parentStays
      · split
        · rename_i changed made
          exact (at?_of_makeDirectory resolved made name rest).trans parentStays
        · exact parentStays
    · rfl

/-- Nothing is made where something is. -/
theorem makeDirectory_of_visit {visit : Visit} (visited : files.visit path = .ok visit) :
    ∃ fault, files.makeDirectory path = .error fault ∧ fault ≠ .missingFile := by
  obtain ⟨⟨⟩, checked, followed⟩ := bind_eq_ok.mp visited
  rw [makeDirectory, checked, ok_bind]
  cases last : path.parts.getLast? with
  | none => exact ⟨.fileInTheWay, rfl, by simp⟩
  | some name =>
    rw [Path.eq_child last, Path.parts_child, List.foldlM_append] at followed
    obtain ⟨outer, before, followed⟩ := bind_eq_ok.mp followed
    obtain ⟨next, here, -⟩ := bind_eq_ok.mp followed
    rw [Files.visit, before]
    cases parentCheck : path.parent.check with
    | error fault =>
      refine ⟨fault, rfl, ?_⟩
      rintro rfl
      exact check_ne_missing path.parent parentCheck
    | ok checkedParent =>
      refine ⟨.fileInTheWay, ?_, by simp⟩
      dsimp only
      rw [ok_bind, ok_bind, here]
      rfl

/-- There is room for one directory at least. -/
theorem ensureDirectory_eq [Depths] (files : Files) (path : Path) :
    files.ensureDirectory path = ensureWithin (Depths.making - 1 + 1) files path := by
  rw [ensureDirectory, Nat.sub_add_cancel Depths.making_room]

/-- A directory that is there need not be made. -/
theorem ensureDirectory_of_visit [Depths] {entries trail : List (String × Entry)}
    (visited : files.visit path = .ok ⟨.directory entries, trail⟩) :
    files.ensureDirectory path = (files, .ok ()) := by
  obtain ⟨fault, failed, notMissing⟩ := makeDirectory_of_visit visited
  have there : files.unlessDirectory path fault = .ok () := by
    rw [unlessDirectory, isDirectory_of_visit visited]
    rfl
  rw [ensureDirectory_eq, ensureWithin, failed]
  split
  · rename_i same
    cases same
  · rename_i same
    exact (notMissing (Except.error.inj same)).elim
  · rename_i other isOther same
    obtain rfl := Except.error.inj same
    rw [there]

/-! ### Writing and reading -/

/-- A file that is there can be written anew. -/
theorem writeOctets_of_visit (resolved : Path.backward ∉ path.parts) {old : ByteArray}
    {trail : List (String × Entry)} (visited : files.visit path = .ok ⟨.file old, trail⟩)
    (content : ByteArray) :
    files.writeOctets path content = .ok (files.place path (.file content)) := by
  have replaced := replace_visit resolved visited (.file content) []
  rw [List.append_nil, Entry.place_file_nil] at replaced
  rw [writeOctets, visited]
  exact congrArg Except.ok (congrArg Files.mk replaced)

/-- What is written is placed at its path, which can be looked up. -/
theorem writeOctets_eq_ok (resolved : Path.backward ∉ path.parts) {content : ByteArray}
    {changed : Files} (wrote : files.writeOctets path content = .ok changed) :
    (path.check = .ok () ∧ ∀ name ∈ path.parts, Path.checkName name = .ok ()) ∧
      changed = files.place path (.file content) := by
  unfold writeOctets at wrote
  split at wrote
  · cases wrote
  · rename_i visit notDirectory visited
    obtain ⟨entry, trail⟩ := visit
    obtain ⟨checked, namesChecked, -⟩ := (visit_eq_ok_iff resolved).mp ⟨trail, visited⟩
    have replaced := replace_visit resolved visited (.file content) []
    rw [List.append_nil, Entry.place_file_nil] at replaced
    exact ⟨⟨checked, namesChecked⟩, (Except.ok.inj wrote).symm.trans (congrArg Files.mk replaced)⟩
  · rename_i name missing last
    obtain ⟨outer, visited, made⟩ := bind_eq_ok.mp wrote
    have whole : path = path.parent.child name := Path.eq_child last
    have forward : name ≠ Path.backward := by
      rintro rfl
      exact resolved (List.mem_of_getLast? last)
    have parentResolved := Path.resolved_parent resolved
    rcases bind_eq_error.mp missing with unchecked | ⟨⟨⟩, checked, nowhere⟩
    · exact (check_ne_missing path unchecked).elim
    · obtain ⟨⟨⟩, -, followed⟩ := bind_eq_ok.mp visited
      rw [whole, Path.parts_child, List.foldlM_append, followed, ok_bind, List.foldlM_cons] at nowhere
      obtain ⟨entries, inside, nameChecked, absent⟩ :=
        follow_eq_missing forward ((bind_pure _).symm.trans nowhere)
      obtain ⟨entry, trail⟩ := outer
      obtain rfl : entry = .directory entries := inside
      obtain ⟨-, namesChecked, -⟩ := (visit_eq_ok_iff parentResolved).mp ⟨trail, visited⟩
      refine ⟨⟨checked, fun other member => ?_⟩, ?_⟩
      · rw [whole, Path.parts_child, List.mem_append, List.mem_singleton] at member
        rcases member with before | rfl
        · exact namesChecked other before
        · exact nameChecked
      · obtain rfl := Except.ok.inj made
        rw [put_eq_place parentResolved visited name (by rw [absent]; rfl), ← whole]
  · cases wrote

/-- What has been written can be written again, in its place. -/
theorem writeOctets_again (resolved : Path.backward ∉ path.parts) {content : ByteArray}
    {changed : Files} (wrote : files.writeOctets path content = .ok changed)
    (later : ByteArray) :
    changed.writeOctets path later = .ok (files.place path (.file later)) := by
  obtain ⟨⟨checked, namesChecked⟩, rfl⟩ := writeOctets_eq_ok resolved wrote
  obtain ⟨trail, visited⟩ := visit_place files resolved checked namesChecked (.file content)
  rw [Entry.place_file_nil] at visited
  rw [writeOctets_of_visit resolved visited, place, place, Entry.place_place_file, place]

/-- A file can be written in a directory where there is no directory of its name, and this places
it there. -/
theorem writeOctets_child (resolved : Path.backward ∉ path.parts) {name : String}
    (forward : name ≠ Path.backward) (checked : (path.child name).check = .ok ())
    (nameChecked : Path.checkName name = .ok ()) {entries : List (String × Entry)}
    {trail : List (String × Entry)} (visited : files.visit path = .ok ⟨.directory entries, trail⟩)
    (free : ∀ inner, Ordered.find? entries name ≠ some (.directory inner)) (content : ByteArray) :
    files.writeOctets (path.child name) content =
      .ok (files.place (path.child name) (.file content)) := by
  obtain ⟨⟨⟩, -, followed⟩ := bind_eq_ok.mp visited
  have childResolved : Path.backward ∉ (path.child name).parts := by
    rw [Path.parts_child, List.mem_append, List.mem_singleton]
    exact not_or.mpr ⟨resolved, Ne.symm forward⟩
  have step : files.visit (path.child name) =
      Visit.follow ⟨.directory entries, trail⟩ name := by
    rw [visit, checked, ok_bind, Path.parts_child, List.foldlM_append, followed, ok_bind,
      List.foldlM_cons]
    exact bind_pure _
  cases found : Ordered.find? entries name with
  | none =>
    have missing : Visit.follow ⟨.directory entries, trail⟩ name = .error .missingFile :=
      Visit.follow_of_find?_none forward rfl nameChecked found
    rw [writeOctets, step, missing, Path.parts_child, List.getLast?_concat]
    dsimp only
    rw [Path.parent_child, visited, ok_bind]
    exact congrArg Except.ok (put_eq_place resolved visited name (by rw [found]; rfl))
  | some inner =>
    cases inner with
    | directory inside => exact (free inside found).elim
    | file old =>
      have there : Visit.follow ⟨.directory entries, trail⟩ name =
          .ok ⟨.file old, (name, .directory entries) :: trail⟩ :=
        Visit.follow_of_find? forward rfl nameChecked found
      exact writeOctets_of_visit childResolved (step.trans there) content

/-- A file that is placed in a directory is there under its name. -/
theorem visit_of_placeChild (resolved : Path.backward ∉ path.parts)
    {entries : List (String × Entry)} {trail : List (String × Entry)}
    (visited : files.visit path = .ok ⟨.directory entries, trail⟩) (name : String)
    (content : ByteArray) :
    ∃ trail', (files.place (path.child name) (.file content)).visit path =
      .ok ⟨.directory (Ordered.put entries name (.file content)), trail'⟩ := by
  obtain ⟨checked, namesChecked, reached⟩ := (visit_eq_ok_iff resolved).mp ⟨trail, visited⟩
  have inside : (Entry.directory entries).place (.file content) [name] =
      .directory (Ordered.put entries name (.file content)) := by
    rw [Entry.place, Entry.place_file_nil]
  have kept : (Entry.directory entries).place
      (.directory (Ordered.put entries name (.file content))) [] =
      .directory (Ordered.put entries name (.file content)) := by
    cases entries with
    | nil => rfl
    | cons first rest =>
      rw [Ordered.put]
      split
      · rfl
      · rfl
  have same : files.place (path.child name) (.file content) =
      files.place path (.directory (Ordered.put entries name (.file content))) := by
    have whole := replace_visit resolved visited (.file content) [name]
    have part := replace_visit resolved visited
      (.directory (Ordered.put entries name (.file content))) []
    dsimp only at whole part
    rw [inside] at whole
    rw [kept, List.append_nil] at part
    exact congrArg Files.mk (whole.symm.trans part)
  obtain ⟨trail', found⟩ := visit_place files resolved checked namesChecked
    (.directory (Ordered.put entries name (.file content)))
  rw [reached, Option.getD_some, kept] at found
  rw [same]
  exact ⟨trail', found⟩

/-- A text that can be encoded is read as it was written, but for the ends of its lines. -/
theorem readText_place (resolved : Path.backward ∉ path.parts) (checked : path.check = .ok ())
    (namesChecked : ∀ name ∈ path.parts, Path.checkName name = .ok ()) (text : String) :
    (files.place path (.file text.toUTF8)).readText path = .ok (Text.unifyEnds text) := by
  obtain ⟨trail, visited⟩ := visit_place files resolved checked namesChecked
    (.file text.toUTF8)
  rw [Entry.place_file_nil] at visited
  have decoded : String.fromUTF8? text.toUTF8 = some text := dif_pos text.isValidUTF8
  have octets : (files.place path (.file text.toUTF8)).readOctets path = .ok text.toUTF8 := by
    rw [readOctets, visited]
    rfl
  rw [readText, octets, ok_bind, decoded]
  rfl

end Files

end Taskbook
