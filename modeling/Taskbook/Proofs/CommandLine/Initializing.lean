/-
Making a project where it is found again.

A new project is made where the nearest one is, or else at the root of the repository, or else right
there. In each case it is the nearest one afterwards, and so it is the one that is found from then
on, here and in the directories below. Making it again finds all of it there and changes nothing.
-/

import Taskbook.CommandLine.Transcript
import Taskbook.Proofs.Directories
import Taskbook.Proofs.Paths
import Taskbook.Proofs.Project.Discovering
import Taskbook.Proofs.Text

namespace Taskbook

/-! ### Files that were not there -/

namespace Files

variable {files changed : Files} {path : Path}

/-- Nothing is at the end of a path that can be looked up and leads nowhere. -/
theorem at?_of_absent (resolved : Path.backward ∉ path.parts) (checked : path.check = .ok ())
    (named : ∀ name ∈ path.parts, Path.checkName name = .ok ())
    (absent : files.isPresent path = .ok false) : files.at? path = none := by
  cases there : files.at? path with
  | none => rfl
  | some entry =>
    obtain ⟨trail, visited⟩ := (visit_eq_ok_iff resolved).mpr ⟨checked, named, there⟩
    cases (isPresent_of_visit visited).symm.trans absent

/-- What is there stays where a change leaves its place. -/
theorem isPresent_of_at?_eq (resolved : Path.backward ∉ path.parts)
    (present : files.isPresent path = .ok true) (same : changed.at? path = files.at? path) :
    changed.isPresent path = .ok true := by
  cases visited : files.visit path with
  | error fault =>
    rw [isPresent, entry?, visited] at present
    cases fault <;> cases present
  | ok last =>
    obtain ⟨checked, named, there⟩ := (visit_eq_ok_iff resolved).mp ⟨last.trail, visited⟩
    obtain ⟨trail, visitedAgain⟩ :=
      (visit_eq_ok_iff resolved).mpr ⟨checked, named, same.trans there⟩
    exact isPresent_of_visit visitedAgain

/-- A file that is written where nothing was is there then, and everything else is as before. -/
theorem writeText_of_absent {name text : String} {reports : List Report} {left : Session}
    (has : files.HasDirectory path) (forward : name ≠ Path.backward)
    (absent : files.isPresent (path.child name) = .ok false)
    (ran : Operation.writeText (path.child name) text ⟨files, reports⟩ = (.ok (), left)) :
    left.reports = reports ∧ left.files.isPresent (path.child name) = .ok true ∧
      (∀ other, left.files.holdsDirectory other = files.holdsDirectory other) ∧
      ∀ other ≠ name, left.files.at? (path.child other) = files.at? (path.child other) := by
  have resolved : Path.backward ∉ (path.child name).parts := by
    rw [Path.parts_child, List.mem_append, List.mem_singleton]
    exact not_or.mpr ⟨has.resolved, Ne.symm forward⟩
  obtain ⟨⟨checked, named⟩, content, rfl⟩ := place_of_writeText resolved ran
  have nothing := at?_of_absent resolved checked named absent
  obtain ⟨trail, visited⟩ := visit_place files resolved checked named (.file content)
  refine ⟨rfl, isPresent_of_visit visited, holdsDirectory_place_file has ?_ content,
    fun other differ => Entry.at?_place_of_ne _ _ _ differ⟩
  rw [holdsDirectory, nothing]
  rfl

end Files

namespace CommandLine

open Operation

variable [Depths] {project : Project} {base here : Path} {files : Files} {session left : Session}

/-! ### Making a project -/

/-- A project with its directory, a configuration and a manifest, whose place can be told. -/
structure IsMade (project : Project) (files : Files) : Prop where
  directory : files.isDirectory project.directory = .ok true
  configured : files.isPresent project.configPath = .ok true
  recorded : files.isPresent project.manifestPath = .ok true
  told : Text.isEncodable project.directory.text = true
  configTold : Text.isEncodable project.configPath.text = true

/-- The line that tells where a project was made. -/
def madeLine (project : Project) : Report :=
  .line ("Initialized project dir: " ++ project.directory.text)

/-- A project that is there is made without changing anything. -/
theorem makeProject_of_isMade (isMade : IsMade project files) (reports : List Report) :
    ∃ more, makeProject project ⟨files, reports⟩ = (.ok (), ⟨files, reports ++ more⟩) ∧
      madeLine project ∈ more := by
  obtain ⟨entries, trail, visited⟩ := Files.isDirectory_eq_true isMade.directory
  have ensured : project.ensureDirectory ⟨files, reports⟩ = (.ok (), ⟨files, reports⟩) :=
    attempt_eq_ok.mpr ⟨files, Files.ensureDirectory_of_visit visited, rfl⟩
  have told : tell ("Initialized project dir: " ++ project.directory.text) ⟨files, reports⟩ =
      (.ok (), ⟨files, reports ++ [madeLine project]⟩) :=
    tell_eq_ok.mpr ⟨(Text.isEncodable_append_of_kept rfl _).trans isMade.told, rfl⟩
  have configured (before : List Report) : project.writeUsualConfig (.bool true)
      ⟨files, before⟩ = (.ok false, ⟨files, before⟩) := by
    rw [Project.writeUsualConfig, bind_of_ok files_apply]
    dsimp only
    rw [isMade.configured]
    rfl
  have configTold (before : List Report) :
      tell ("Using existing config: " ++ project.configPath.text) ⟨files, before⟩ =
        (.ok (), ⟨files, before ++ [.line ("Using existing config: " ++
          project.configPath.text)]⟩) :=
    tell_eq_ok.mpr ⟨(Text.isEncodable_append_of_kept rfl _).trans isMade.configTold, rfl⟩
  refine ⟨[madeLine project, .line ("Using existing config: " ++ project.configPath.text)], ?_,
    List.mem_cons_self⟩
  rw [makeProject, bind_of_ok ensured, bind_of_ok told, bind_of_ok (configured _),
    if_neg Bool.false_ne_true, bind_of_ok (configTold _), bind_of_ok files_apply,
    isMade.recorded, List.append_assoc]
  rfl

/-- A configuration is there after it has been written where there was none. -/
theorem writeUsualConfig_eq_ok {configured : Bool}
    (has : session.files.HasDirectory project.directory)
    (ran : project.writeUsualConfig (.bool true) session = (.ok configured, left)) :
    left.reports = session.reports ∧ left.files.isPresent project.configPath = .ok true ∧
      ∀ other, left.files.holdsDirectory other = session.files.holdsDirectory other := by
  rw [Project.writeUsualConfig, bind_of_ok files_apply] at ran
  obtain ⟨present, middle, asked, ran⟩ := chain_eq_ok.mp ran
  rw [liftFault_apply, Prod.mk.injEq, orFault_eq_ok] at asked
  obtain ⟨asked, rfl⟩ := asked
  cases present with
  | true =>
    obtain ⟨-, rfl⟩ := Prod.mk.inj ran
    exact ⟨rfl, asked, fun _ => rfl⟩
  | false =>
    obtain ⟨text, middle, written, ran⟩ := chain_eq_ok.mp ran
    rw [liftFault_apply] at written
    obtain ⟨-, rfl⟩ := Prod.mk.inj written
    obtain ⟨⟨⟩, last, wrote, ran⟩ := chain_eq_ok.mp ran
    obtain ⟨-, rfl⟩ := Prod.mk.inj ran
    obtain ⟨sameReports, present, sameDirectories, -⟩ :=
      Files.writeText_of_absent has (by decide) asked wrote
    exact ⟨sameReports, present, sameDirectories⟩

/-- A manifest is there after it has been written where there was none. -/
theorem save_eq_ok {registry : Registry}
    (ran : project.save registry session = (.ok (), left))
    (has : session.files.HasDirectory project.directory)
    (there : session.files.isDirectory project.directory = .ok true)
    (absent : session.files.isPresent project.manifestPath = .ok false) :
    (∃ more, left.reports = session.reports ++ more) ∧
      left.files.isPresent project.manifestPath = .ok true ∧
      (∀ other, left.files.holdsDirectory other = session.files.holdsDirectory other) ∧
      left.files.at? project.configPath = session.files.at? project.configPath := by
  obtain ⟨⟨⟩, ensured, ensures, ran⟩ := chain_eq_ok.mp ran
  obtain ⟨prepared, made, rfl⟩ := attempt_eq_ok.mp ensures
  obtain ⟨entries, trail, visited⟩ := Files.isDirectory_eq_true there
  obtain rfl := (Prod.mk.inj ((Files.ensureDirectory_of_visit visited).symm.trans made)).1
  obtain ⟨text, middle, written, ran⟩ := chain_eq_ok.mp ran
  rw [liftFault_apply] at written
  obtain ⟨-, rfl⟩ := Prod.mk.inj written
  obtain ⟨⟨⟩, last, wrote, ran⟩ := chain_eq_ok.mp ran
  rw [report_apply] at ran
  obtain ⟨-, rfl⟩ := Prod.mk.inj ran
  obtain ⟨sameReports, present, sameDirectories, siblings⟩ :=
    Files.writeText_of_absent has (by decide) absent wrote
  exact ⟨⟨_, congrArg (· ++ _) sameReports⟩, present, sameDirectories,
    siblings "config.yaml" (by decide)⟩

/-- Making a project in a place that is there makes all of it, and no other directory. -/
theorem makeProject_eq_ok (has : session.files.HasDirectory base)
    (ran : makeProject (Project.within base) session = (.ok (), left)) :
    IsMade (Project.within base) left.files ∧ madeLine (Project.within base) ∈ left.reports ∧
      ∀ other ≠ (Project.within base).directory,
        left.files.holdsDirectory other = session.files.holdsDirectory other := by
  obtain ⟨⟨⟩, ensured, ensures, ran⟩ := chain_eq_ok.mp ran
  obtain ⟨prepared, made, rfl⟩ := attempt_eq_ok.mp ensures
  obtain ⟨there, elsewhere⟩ :=
    Files.ensureDirectory_child has Project.directoryName_forward Project.directoryName_checked made
  have resolved := (has.child Project.directoryName_forward Project.directoryName_checked).1
  have hasProject := Files.HasDirectory.of_isDirectory resolved there
  obtain ⟨⟨⟩, announced, tells, ran⟩ := chain_eq_ok.mp ran
  obtain ⟨told, rfl⟩ := tell_eq_ok.mp tells
  obtain ⟨configured, middle, configures, ran⟩ := chain_eq_ok.mp ran
  obtain ⟨configReports, configPresent, configElsewhere⟩ :=
    writeUsualConfig_eq_ok hasProject configures
  obtain ⟨⟨⟩, announcedConfig, tellsConfig, ran⟩ := chain_eq_ok.mp ran
  obtain ⟨configTold, rfl⟩ := tell_eq_ok.mp tellsConfig
  rw [bind_of_ok files_apply] at ran
  obtain ⟨present, asked, asks, ran⟩ := chain_eq_ok.mp ran
  rw [liftFault_apply, Prod.mk.injEq, orFault_eq_ok] at asks
  obtain ⟨presentIs, rfl⟩ := asks
  have directoryTold := (Text.isEncodable_append_of_kept rfl _).symm.trans told
  have configPathTold : Text.isEncodable (Project.within base).configPath.text = true := by
    cases configured with
    | true => exact (Text.isEncodable_append_of_kept rfl _).symm.trans configTold
    | false => exact (Text.isEncodable_append_of_kept rfl _).symm.trans configTold
  have stillThere : middle.files.isDirectory (Project.within base).directory = .ok true :=
    (Files.isDirectory_congr resolved hasProject.named (configElsewhere _)).trans there
  have announcedThen : madeLine (Project.within base) ∈ middle.reports := by
    rw [configReports]
    exact List.mem_append_right _ List.mem_cons_self
  cases present with
  | true =>
    obtain ⟨-, rfl⟩ := Prod.mk.inj ran
    exact ⟨⟨stillThere, configPresent, presentIs, directoryTold, configPathTold⟩,
      List.mem_append_left _ announcedThen,
      fun other differ => (configElsewhere other).trans (elsewhere other differ)⟩
  | false =>
    obtain ⟨registry, loaded, loads, ran⟩ := chain_eq_ok.mp ran
    rw [liftLogged_apply, Prod.mk.injEq] at loads
    obtain ⟨-, rfl⟩ := loads
    obtain ⟨⟨⟩, saved, saves, ran⟩ := chain_eq_ok.mp ran
    obtain ⟨⟨more, savedReports⟩, manifestPresent, saveElsewhere, sameConfig⟩ :=
      save_eq_ok saves (Files.HasDirectory.of_isDirectory resolved stillThere) stillThere presentIs
    obtain ⟨-, rfl⟩ := tell_eq_ok.mp ran
    have configResolved : Path.backward ∉ (Project.within base).configPath.parts := by
      rw [Project.configPath, Path.parts_child, List.mem_append, List.mem_singleton]
      exact not_or.mpr ⟨resolved, by decide⟩
    refine ⟨⟨?_, Files.isPresent_of_at?_eq configResolved configPresent sameConfig,
      manifestPresent, directoryTold, configPathTold⟩, ?_, fun other differ => ?_⟩
    · exact (Files.isDirectory_congr resolved hasProject.named (saveElsewhere _)).trans stillThere
    · rw [savedReports]
      simp [announcedThen]
    · exact ((saveElsewhere other).trans (configElsewhere other)).trans (elsewhere other differ)

/-! ### Finding where to make it -/

omit [Depths] in
/-- Telling which project was found only adds reports. -/
theorem notifyFound_apply (project : Project) (others : Bool) (session : Session) :
    ∃ more, notifyFound project others session =
      (.ok (), ⟨session.files, session.reports ++ more⟩) := by
  cases others with
  | false => exact ⟨_, rfl⟩
  | true => exact ⟨_, congrArg (Prod.mk _) (congrArg (Session.mk _) (List.append_assoc ..))⟩

omit [Depths] in
/-- The project to make is that of a place upward, and none is nearer. -/
theorem projectToMake_eq_ok (ran : projectToMake here none session = (.ok project, left)) :
    left.files = session.files ∧ ∃ base ∈ Project.upward here, project = Project.within base ∧
      (∀ place ∈ Project.upward here,
        session.files.isDirectory (Project.within place).directory =
          .ok (Project.isHeld session.files place)) ∧
      ((Project.upward here).find? (Project.isHeld session.files) = some base ∨
        (Project.upward here).find? (Project.isHeld session.files) = none) := by
  rw [projectToMake, bind_of_ok files_apply] at ran
  obtain ⟨⟨found, others⟩, looked, looks, ran⟩ := chain_eq_ok.mp ran
  rw [liftFault_apply, Prod.mk.injEq, orFault_eq_ok] at looks
  obtain ⟨nearest, rfl⟩ := looks
  have lookups := Project.lookups_of_nearest nearest
  rw [Project.nearest_of_lookups lookups] at nearest
  obtain ⟨foundIs, othersAre⟩ := Prod.mk.inj (Except.ok.inj nearest)
  cases held : (Project.upward here).find? (Project.isHeld session.files) with
  | some base =>
    rw [held] at foundIs
    obtain rfl := foundIs
    obtain ⟨⟨⟩, noticed, notices, ran⟩ := chain_eq_ok.mp ran
    obtain ⟨same, rfl⟩ := Prod.mk.inj ran
    obtain rfl := Except.ok.inj same
    obtain ⟨more, noticing⟩ := notifyFound_apply (Project.within base) others session
    obtain ⟨-, rfl⟩ := Prod.mk.inj (noticing.symm.trans notices)
    exact ⟨rfl, base, List.mem_of_find?_eq_some held, rfl, lookups,
      Or.inl rfl⟩
  | none =>
    rw [held] at foundIs
    obtain rfl := foundIs
    obtain ⟨fresh, middle, makes, ran⟩ := chain_eq_ok.mp ran
    rw [liftFault_apply, Prod.mk.injEq, orFault_eq_ok] at makes
    obtain ⟨made, rfl⟩ := makes
    obtain ⟨base, member, rfl⟩ := Project.fresh_eq_ok made
    obtain ⟨same, rfl⟩ := Prod.mk.inj ran
    obtain rfl := Except.ok.inj same
    exact ⟨rfl, base, member, rfl, lookups, Or.inr rfl⟩

omit [Depths] in
/-- The project that is the nearest one already is the one to make. -/
theorem projectToMake_of_nearest {others : Bool}
    (nearest : Project.nearest files here = .ok (some project, others)) (reports : List Report) :
    ∃ more, projectToMake here none ⟨files, reports⟩ =
      (.ok project, ⟨files, reports ++ more⟩) := by
  obtain ⟨more, noticed⟩ := notifyFound_apply project others ⟨files, reports⟩
  refine ⟨more, ?_⟩
  rw [projectToMake, bind_of_ok files_apply]
  dsimp only
  rw [nearest]
  exact bind_of_ok noticed _

/-! ### Initializing -/

variable {terminal : Terminal} {arguments : List String} {verbose : Bool} {made : Transcript}

/-- A request that is carried out to its end leaves what it leaves. -/
theorem runRequest_of_ok {directory : Option String} {request : Request} {ending : Ending}
    (performed : perform terminal here directory request session = (.ok ending, left)) :
    runRequest terminal here directory request session = (ending, left) := by
  have ran : (perform terminal here directory request).run session = (.ok ending, left) :=
    performed
  rw [runRequest]
  simp only [bind, StateT.bind, ran]
  rfl

/-- A request is done where nothing fails. -/
theorem perform_of_done {directory : Option String} {request : Request}
    (done : (runRequest terminal here directory request session).1 = .done) :
    ∃ left, perform terminal here directory request session = (.ok .done, left) := by
  cases performed : perform terminal here directory request session with
  | mk outcome left =>
    cases outcome with
    | ok ending =>
      rw [runRequest_of_ok performed] at done
      exact ⟨left, congrArg (Prod.mk · left) (congrArg Except.ok done)⟩
    | error error =>
      have ran : (perform terminal here directory request).run session = (.error error, left) :=
        performed
      rw [runRequest] at done
      simp only [bind, StateT.bind, ran] at done
      cases worded : error.notice with
      | error fault =>
        rw [worded] at done
        cases done
      | ok notice =>
        rw [worded] at done
        cases done

/-- A project is made by a command line that asks for it and is done. -/
theorem makes_of_done (asked : order? arguments = some (.request verbose none .init))
    (ran : run terminal here arguments files = made) (done : made.ending = .done) :
    ∃ project middle, projectToMake here none ⟨files, []⟩ = (.ok project, middle) ∧
      makeProject project middle = (.ok (), ⟨made.files, made.reports⟩) := by
  subst ran
  rw [run, asked] at done
  have ended : (runRequest terminal here none .init ⟨files, []⟩).1 = .done := done
  obtain ⟨left, performed⟩ := perform_of_done ended
  obtain ⟨project, middle, found, rest⟩ := chain_eq_ok.mp performed
  obtain ⟨⟨⟩, after, makes, same⟩ := chain_eq_ok.mp rest
  obtain ⟨-, rfl⟩ := Prod.mk.inj same
  refine ⟨project, middle, found, makes.trans ?_⟩
  rw [run, asked]
  dsimp only
  rw [runRequest_of_ok performed]

/-- A command line that asks for a project is done where one can be found and made. -/
theorem run_of_makes (asked : order? arguments = some (.request verbose none .init))
    {middle : Session} (found : projectToMake here none ⟨files, []⟩ = (.ok project, middle))
    (makes : makeProject project middle = (.ok (), left)) :
    (run terminal here arguments files).ending = .done ∧
      (run terminal here arguments files).reports = left.reports ∧
      (run terminal here arguments files).files = left.files := by
  have performed : perform terminal here none .init ⟨files, []⟩ = (.ok .done, left) :=
    chain_eq_ok.mpr ⟨project, middle, found, chain_eq_ok.mpr ⟨(), left, makes, rfl⟩⟩
  rw [run, asked]
  dsimp only
  rw [runRequest_of_ok performed]
  exact ⟨rfl, rfl, rfl⟩

/-- A project that is there is made again without changing a file. -/
theorem run_of_isMade (asked : order? arguments = some (.request verbose none .init))
    (isMade : IsMade project files) {others : Bool}
    (nearest : Project.nearest files here = .ok (some project, others)) :
    (run terminal here arguments files).ending = .done ∧
      madeLine project ∈ (run terminal here arguments files).reports ∧
      (run terminal here arguments files).files = files := by
  obtain ⟨notices, found⟩ := projectToMake_of_nearest nearest []
  obtain ⟨more, makes, told⟩ := makeProject_of_isMade isMade ([] ++ notices)
  obtain ⟨ended, reports, sameFiles⟩ := run_of_makes asked found makes
  refine ⟨ended, ?_, sameFiles⟩
  rw [reports]
  exact List.mem_append_right _ told

/-- The state that initializing reaches: a project is made, and it is the nearest one. -/
theorem isMade_of_done (asked : order? arguments = some (.request verbose none .init))
    (start : files.HasDirectory here) (ran : run terminal here arguments files = made)
    (done : made.ending = .done) :
    ∃ project, IsMade project made.files ∧ madeLine project ∈ made.reports ∧
      Project.nearest made.files here = .ok (some project,
        decide (1 < (Project.upward here).countP (Project.isHeld made.files))) := by
  obtain ⟨project, middle, found, makes⟩ := makes_of_done asked ran done
  obtain ⟨sameFiles, base, member, rfl, lookups, first⟩ := projectToMake_eq_ok found
  have upward {place : Path} (inside : place ∈ Project.upward here) :
      files.HasDirectory place := by
    obtain ⟨below, whole⟩ := Project.mem_upward.mp inside
    rw [show here = ⟨place.parts ++ below⟩ from congrArg Path.mk whole.symm] at start
    exact start.of_append
  obtain ⟨isMade, told, elsewhere⟩ := makeProject_eq_ok (sameFiles ▸ upward member) makes
  refine ⟨_, isMade, told,
    Project.nearest_of_made member lookups first isMade.directory fun place inside differ => ?_⟩
  obtain ⟨resolved, named⟩ :=
    (upward inside).child Project.directoryName_forward Project.directoryName_checked
  refine Files.isDirectory_congr resolved named ((elsewhere _ fun same => differ ?_).trans ?_)
  · cases place
    cases base
    exact congrArg Path.mk (List.append_cancel_right (congrArg Path.parts same))
  · rw [sameFiles]

/-- A project that is initialized from a directory is the nearest one from then on: from there, and
from every directory below that has no project nearer to it, if the path to look for one can be
looked up there. Whether there are others is told as well. Initializing it again, in whatever way,
is done, finds the same project and changes no file. -/
theorem init_isSettled (asked : order? arguments = some (.request verbose none .init))
    (start : files.HasDirectory here) (ran : run terminal here arguments files = made)
    (done : made.ending = .done) :
    ∃ project others, madeLine project ∈ made.reports ∧
      Project.nearest made.files here = .ok (some project, others) ∧
      (others = true ↔ 1 < (Project.upward here).countP (Project.isHeld made.files)) ∧
      (∀ below, made.files.HasDirectory ⟨here.parts ++ below⟩ →
        (∀ count < below.length,
          Project.isHeld made.files ⟨here.parts ++ below.take (count + 1)⟩ = false) →
        ((Project.within ⟨here.parts ++ below⟩).directory.check = .ok () →
          Project.nearest made.files ⟨here.parts ++ below⟩ = .ok (some project, others)) ∧
        ((Project.within ⟨here.parts ++ below⟩).directory.check = .error .nameTooLong →
          Project.nearest made.files ⟨here.parts ++ below⟩ = .error .nameTooLong)) ∧
      ∀ (otherTerminal : Terminal) (otherArguments : List String) (otherVerbose : Bool),
        order? otherArguments = some (.request otherVerbose none .init) →
        (run otherTerminal here otherArguments made.files).ending = .done ∧
          madeLine project ∈ (run otherTerminal here otherArguments made.files).reports ∧
          (run otherTerminal here otherArguments made.files).files = made.files := by
  obtain ⟨project, isMade, told, nearest⟩ := isMade_of_done asked start ran done
  refine ⟨project, _, told, nearest, decide_eq_true_iff, fun below has notBetween => ?_,
    fun otherTerminal otherArguments otherVerbose askedAgain =>
      run_of_isMade askedAgain isMade nearest⟩
  exact ⟨fun checked => Project.nearest_of_below has notBetween checked nearest,
    Project.nearest_of_tooLong has⟩

end CommandLine

namespace CommandLine

/-- A terminal where nobody can be asked. -/
def sampleTerminal : Terminal :=
  ⟨false, false, .absent "", .ended⟩

/-- A directory in a repository. -/
def sampleDirectory : Path :=
  ⟨["work", "source"]⟩

/-- The tree of a repository. -/
def sampleTree : Files :=
  (Files.empty.place ⟨["work", Project.repositoryName]⟩ .empty).place sampleDirectory .empty

/-- The project is made at the root of the repository, and found and kept there. -/
theorem sampleTree_isSettled :
    (run sampleTerminal sampleDirectory ["init"] sampleTree).ending = .done ∧
      ∃ project others,
        Project.nearest (run sampleTerminal sampleDirectory ["init"] sampleTree).files
          sampleDirectory = .ok (some project, others) ∧
        (run sampleTerminal sampleDirectory ["-v", "init"]
          (run sampleTerminal sampleDirectory ["init"] sampleTree).files).files =
            (run sampleTerminal sampleDirectory ["init"] sampleTree).files := by
  have start : sampleTree.HasDirectory sampleDirectory :=
    ⟨by decide, by decide +kernel, by decide +kernel⟩
  have done : (run sampleTerminal sampleDirectory ["init"] sampleTree).ending = .done := by
    decide +kernel
  have asked : order? ["init"] = some (.request false none .init) := by rfl
  have askedAgain : order? ["-v", "init"] = some (.request true none .init) := by rfl
  obtain ⟨project, others, -, nearest, -, -, again⟩ := init_isSettled asked start rfl done
  exact ⟨done, project, others, nearest, (again sampleTerminal _ true askedAgain).2.2⟩

/-- Names of directories inside each other, so many that there is no room for one more. -/
def deepNames : List String :=
  List.replicate 19 (String.ofList (List.replicate 214 'd'))

/-- A tree with a project at its root, and with deep directories. -/
def deepTree : Files :=
  ((Files.empty.place (Project.within .root).configPath (.file .empty)).place
    (Project.within .root).manifestPath (.file .empty)).place ⟨deepNames⟩ .empty

/-- The path of a place in directories so deep cannot be looked up. -/
theorem check_deep : (Project.within ⟨deepNames⟩).directory.check = .error .nameTooLong := by
  have text : (Project.within ⟨deepNames⟩).directory.text.toList =
      (List.replicate 19 ('/' :: List.replicate 214 'd')).flatten ++
        '/' :: Project.directoryName.toList := by
    refine (Path.text_child _ _).trans ?_
    rw [List.flatMap_def, deepNames, List.map_replicate, String.toList_ofList]
  have among : ∀ character ∈ (Project.within ⟨deepNames⟩).directory.text.toList,
      character = '/' ∨ character = 'd' ∨ character ∈ Project.directoryName.toList := by
    rw [text]
    intro character member
    rcases List.mem_append.mp member with inNames | inLast
    · obtain ⟨part, isPart, inPart⟩ := List.mem_flatten.mp inNames
      obtain rfl := List.eq_of_mem_replicate isPart
      rcases List.mem_cons.mp inPart with slash | inName
      · exact Or.inl slash
      · exact Or.inr (Or.inl (List.eq_of_mem_replicate inName))
    · rcases List.mem_cons.mp inLast with slash | inName
      · exact Or.inl slash
      · exact Or.inr (Or.inr inName)
  have lastKept : ∀ character ∈ Project.directoryName.toList,
      Text.isKept character = true ∧ character ≠ Char.ofNat 0 := by
    have all : Project.directoryName.toList.all (fun character => Text.isKept character &&
        character != Char.ofNat 0) = true := rfl
    intro character member
    have both := List.all_eq_true.mp all character member
    rwa [Bool.and_eq_true, bne_iff_ne] at both
  have visible : ∀ character ∈ (Project.within ⟨deepNames⟩).directory.text.toList,
      Text.isKept character = true ∧ character ≠ Char.ofNat 0 := by
    intro character member
    rcases among character member with rfl | rfl | inName
    · decide
    · decide
    · exact lastKept character inName
  refine Path.check_of_long (fun character member => (visible character member).1)
    (fun null => (visible _ null).2 rfl) ?_
  rw [text, List.length_append, List.length_flatten, List.map_replicate, List.sum_replicate,
    List.length_cons, List.length_replicate]
  decide

/-- In a tree where a project is made, the directories below need not all find it: there can be one
so deep that nothing is looked up in it. -/
theorem not_nearest_of_deep :
    (run sampleTerminal .root ["init"] deepTree).ending = .done ∧
      (run sampleTerminal .root ["init"] deepTree).files = deepTree ∧
      Project.nearest deepTree .root = .ok (some (Project.within .root), false) ∧
      deepTree.HasDirectory ⟨deepNames⟩ ∧
      (∀ count < deepNames.length,
        Project.isHeld deepTree ⟨deepNames.take (count + 1)⟩ = false) ∧
      Project.nearest deepTree ⟨deepNames⟩ = .error .nameTooLong := by
  have asked : order? ["init"] = some (.request false none .init) := by rfl
  have nearest : Project.nearest deepTree .root = .ok (some (Project.within .root), false) := by
    decide +kernel
  have isMade : IsMade (Project.within .root) deepTree :=
    ⟨by decide +kernel, by decide +kernel, by decide +kernel, by decide +kernel,
      by decide +kernel⟩
  obtain ⟨ended, -, same⟩ := @run_of_isMade _ _ _ _ sampleTerminal _ _ asked isMade _ nearest
  have has : deepTree.HasDirectory ⟨deepNames⟩ :=
    ⟨by decide +kernel, by decide +kernel, by decide +kernel⟩
  have nothing : ∀ count < deepNames.length, deepTree.holdsDirectory
      (Project.within ⟨deepNames.take (count + 1)⟩).directory = false := by
    decide +kernel
  refine ⟨ended, same, nearest, has, fun count inside => ?_,
    Project.nearest_of_tooLong has check_deep⟩
  rw [show deepNames = deepNames.take (count + 1) ++ deepNames.drop (count + 1) from
    (List.take_append_drop ..).symm] at has
  exact Project.isHeld_eq_false has.of_append (nothing count inside)

end CommandLine

end Taskbook
