/-
Which manifests of a project cannot be answered.

Whatever octets a manifest consists of, loading it gives a registry or an error that a caller is
told about, except where the octets are no text, where no value can be made of the data, and where
the first thing that is wrong with the data cannot be named. On the command line every request about
a project that is refused like this ends with a line that says why.
-/

import Taskbook.CommandLine.Run
import Taskbook.Proofs.Manifest.Reporting
import Taskbook.Proofs.Project.Contents
import Taskbook.Proofs.Project.Editing
import Taskbook.Proofs.Project.Failing

namespace Taskbook

/-! ### Loading -/

/-- The content of a manifest cannot be made data of, or the first thing that is wrong with the data
cannot be reported. -/
inductive Manifest.IsUnreportableContent [Depths] (content : Option ByteArray) : Prop
  | unread {fault : Fault} (failed : Yaml.said content = .error (.fault fault))
  | data {manifest : Value} (said : Yaml.said content = .ok manifest)
      (unreportable : Registry.IsUnreportable manifest)

/-- Two tasks in the content of a manifest have keys of the same text. -/
def Manifest.HasClashes [Depths] (content : Option ByteArray) : Prop :=
  ∃ manifest, Yaml.said content = .ok manifest ∧ Registry.HasClashingKeys manifest

namespace Manifest

variable [Depths] {content : Option ByteArray} {manifest : Value}

theorem isUnreportableContent_of_said (said : Yaml.said content = .ok manifest) :
    IsUnreportableContent content ↔ Registry.IsUnreportable manifest := by
  constructor
  · rintro (⟨failed⟩ | ⟨otherSaid, unreportable⟩)
    · cases said.symm.trans failed
    · obtain rfl := Except.ok.inj (said.symm.trans otherSaid)
      exact unreportable
  · exact .data said

theorem hasClashes_of_said (said : Yaml.said content = .ok manifest) :
    HasClashes content ↔ Registry.HasClashingKeys manifest := by
  simp [HasClashes, said]

theorem not_isUnreportableContent_of_malformed (said : Yaml.said content = .error .malformed) :
    ¬ IsUnreportableContent content := by
  rintro (⟨failed⟩ | ⟨otherSaid, -⟩)
  · cases said.symm.trans failed
  · cases said.symm.trans otherSaid

end Manifest

namespace Registry

variable {manifest : Value}

theorem not_isUnreportable_of_empty (empty : manifest.entries?.getD [] = []) :
    ¬ IsUnreportable manifest ∧ ¬ HasClashingKeys manifest := by
  have nothing {fields : List (Value × Value)} (opened : manifest.entries? = some fields) :
      fields = [] := by
    rwa [opened, Option.getD_some] at empty
  refine ⟨?_, ?_⟩
  · rintro (⟨opened, given, unreportable⟩ | ⟨opened, -, -, listed, -⟩)
    · obtain rfl := nothing opened
      obtain rfl := Option.some.inj given
      exact not_stopsAt_nil unreportable
    · obtain rfl := nothing opened
      have same := Option.some.inj listed
      exact List.append_ne_nil_of_right_ne_nil _ (List.cons_ne_nil _ _) same.symm
  · rintro ⟨fields, entries, opened, listed, clash⟩
    obtain rfl := nothing opened
    obtain rfl := Option.some.inj listed
    exact clash .nil

/-- A manifest that does not count as given is as good as an empty one. -/
theorem isUnreportable_orElse :
    (IsUnreportable (manifest.orElse (.ofEntries [])) ↔ IsUnreportable manifest) ∧
      (HasClashingKeys (manifest.orElse (.ofEntries [])) ↔ HasClashingKeys manifest) := by
  have kept := Value.entries?_orElse manifest
  rw [Value.orElse] at kept ⊢
  split
  · exact ⟨Iff.rfl, Iff.rfl⟩
  · rename_i absent
    rw [if_neg absent] at kept
    obtain ⟨noted, apart⟩ := not_isUnreportable_of_empty kept.symm
    obtain ⟨alsoNoted, alsoApart⟩ :=
      @not_isUnreportable_of_empty (.ofEntries []) rfl
    exact ⟨iff_of_false alsoNoted noted, iff_of_false alsoApart apart⟩

end Registry

namespace Project

variable [Depths] {project : Project} {files : Files} {content : Option ByteArray}

/-- A manifest is answered unless its content is one that cannot be reported. -/
theorem isAnswered_load (has : files.HasContent project.manifestPath content) :
    IsAnswered (Manifest.HasClashes content) (project.load files).result ↔
      ¬ Manifest.IsUnreportableContent content := by
  rw [load, Logged.result_bind, Logged.result_lift]
  cases content with
  | none =>
    have empty : project.readManifest files = .ok Manifest.empty := by
      rw [readManifest, has.isPresent]
      rfl
    rw [empty, Manifest.isUnreportableContent_of_said rfl]
    exact iff_of_true (Or.inl ⟨⟨[], []⟩, rfl⟩) (Registry.not_isUnreportable_of_empty rfl).1
  | some octets =>
    rw [readManifest_of_content has]
    cases said : Yaml.said (some octets) with
    | error error =>
      cases error with
      | malformed =>
        exact iff_of_true (Or.inr ⟨_, ⟨.invalid, _⟩, rfl, rfl, Or.inl rfl⟩)
          (Manifest.not_isUnreportableContent_of_malformed said)
      | fault fault =>
        refine iff_of_false ?_ (not_not_intro (.unread said))
        rintro (⟨registry, given⟩ | ⟨error, notice, failed, noticed, -⟩)
        · cases given
        · obtain rfl := Except.error.inj failed
          cases noticed
    | ok data =>
      obtain ⟨same, alike⟩ := @Registry.isUnreportable_orElse data
      rw [Manifest.isUnreportableContent_of_said said, Manifest.hasClashes_of_said said, ← same,
        ← alike]
      dsimp only
      split
      · exact Registry.isAnswered_ofManifest
      · rename_i closed
        have noMapping : (data.orElse (.ofEntries [])).entries? = none := by
          simpa [Value.isMap] using closed
        exact iff_of_true (Or.inr ⟨_, ⟨.invalid, _⟩, rfl, rfl, Or.inl rfl⟩)
          (Registry.not_isUnreportable_of_empty (by rw [noMapping]; rfl)).1

end Project

/-! ### Requests on the command line -/

namespace Operation

variable {α β : Type} {session : Session}

/-- An operation fails with an error that has a message. -/
def IsRefused (operation : Operation α) (session : Session) : Prop :=
  ∃ error message left, operation session = (.error error, left) ∧ error.message = .ok message

theorem IsRefused.bind {first : Operation α} (refused : IsRefused first session)
    (next : α → Operation β) : IsRefused (first >>= next) session := by
  obtain ⟨error, message, left, failed, worded⟩ := refused
  exact ⟨error, message, left, bind_of_error failed next, worded⟩

theorem isRefused_of_bind_ok {first : Operation α} {value : α} {left : Session}
    (ran : first session = (.ok value, left)) {next : α → Operation β}
    (refused : IsRefused (next value) left) : IsRefused (first >>= next) session := by
  obtain ⟨error, message, last, failed, worded⟩ := refused
  exact ⟨error, message, last, (bind_of_ok ran next).trans failed, worded⟩

/-- A computation that fails as it should is refused, wherever it takes place. -/
theorem isRefused_lift {outcome : Except Error α} {error : Error} {message : String}
    (failed : outcome = .error error) (worded : error.message = .ok message) :
    IsRefused (liftM outcome : Operation α) session := by
  subst failed
  exact ⟨error, message, session, rfl, worded⟩

theorem isRefused_liftLogged {outcome : Logged α} {error : Error} {message : String}
    (failed : outcome.result = .error error) (worded : error.message = .ok message) :
    IsRefused (liftM outcome : Operation α) session := by
  refine ⟨error, message, ⟨session.files, session.reports ++ outcome.records.map .record⟩, ?_,
    worded⟩
  rw [liftLogged_apply, failed]

end Operation

namespace CommandLine

open Operation

variable {project : Project} {session : Session} {error : Error} {message : String}

/-- Variables that are given as texts are taken, or refused with a message. -/
theorem not_isUnreported_envOfPairs (pairs : List String) : ¬ IsUnreported (envOfPairs pairs) := by
  rw [envOfPairs, isUnreported_bind, isUnreported_mapM]
  rintro (⟨before, text, after, -, -, unreported⟩ | ⟨entries, -, unreported⟩)
  · rw [pair] at unreported
    split at unreported
    · exact not_isUnreported_of_message rfl unreported
    · exact not_isUnreported_ok _ unreported
  · rw [Env.ofValue_of_entries? rfl, Env.isUnreported_ofEntries] at unreported
    obtain ⟨before, entry, after, same, -, unnamed | ⟨-, unwritten⟩⟩ := unreported
    all_goals
      have member : entry ∈ Env.entries (Ordered.ofEntries entries) := by
        rw [same]
        exact List.mem_append_right _ List.mem_cons_self
      obtain ⟨⟨key, text⟩, -, rfl⟩ := List.mem_map.mp member
    · exact unnamed (Value.hasLiteral_str key)
    · exact unwritten (Value.isWritable_str text)

/-- What goes on with the variables that are given is refused if it is with any, or else they
are. -/
theorem isRefused_givenEnv (pairs : List String) {α : Type} {rest : Value → Operation α}
    (refused : ∀ env, IsRefused (rest env) session) :
    IsRefused (givenEnv pairs >>= rest) session := by
  rw [givenEnv]
  cases given : envOfPairs pairs with
  | error error =>
    have reported := not_isUnreported_envOfPairs pairs
    rw [given, isUnreported_error] at reported
    cases worded : error.message with
    | error fault => exact (reported ⟨fault, worded⟩).elim
    | ok message => exact ((isRefused_lift rfl worded).bind _).bind rest
  | ok env => exact isRefused_of_bind_ok rfl (refused env.toValue)

/-- A command that is given as a text is taken, or refused with a message. -/
theorem not_isUnreported_check_addCommand (name label env : Value) (command : String)
    (first : Bool) :
    ¬ IsUnreported (Edit.check (.addCommand name (.str command) first label env)) := by
  rw [Edit.check]
  split
  · exact not_isUnreported_of_message rfl
  · exact not_isUnreported_ok ()

/-- A task that is given by its name is spawned, or refused with a message. -/
theorem not_isUnreported_check_addSubtask (name : String) (target label env : Value) :
    ¬ IsUnreported (Edit.check (.addSubtask (.str name) target label env)) := by
  rw [Edit.check]
  split
  · exact not_isUnreported_of_message rfl
  · exact not_isUnreported_ok ()

section

variable [Depths] (failed : (project.load session.files).result = .error error)
  (worded : error.message = .ok message)

include failed worded

/-- What starts with loading the tasks is refused. -/
theorem isRefused_loading {α β : Type} (next : Registry → Logged α) (rest : α → Operation β) :
    IsRefused ((liftM (project.load session.files >>= next) : Operation α) >>= rest) session := by
  refine (isRefused_liftLogged ?_ worded).bind rest
  rw [Logged.result_bind, failed, error_bind]

theorem isRefused_edit {change : Edit} (checked : ¬ IsUnreported change.check) :
    IsRefused (project.edit change) session := by
  rw [Project.edit]
  cases check : change.check with
  | error other =>
    rw [check, isUnreported_error] at checked
    cases otherWorded : other.message with
    | error fault => exact (checked ⟨fault, otherWorded⟩).elim
    | ok otherMessage => exact (isRefused_lift rfl otherWorded).bind _
  | ok =>
    refine isRefused_of_bind_ok rfl (isRefused_of_bind_ok files_apply ?_)
    exact (isRefused_liftLogged failed worded).bind _

theorem isRefused_editAndTell {change : Edit} (checked : ¬ IsUnreported change.check)
    (line : Task → String → String) :
    IsRefused (editAndTell project change line) session :=
  (isRefused_edit failed worded checked).bind _

theorem isRefused_withTask (terminal : Terminal) (name : Option String) (title : String)
    (silent : Bool) {work : Value → Operation Unit}
    (refused : ∀ name, IsRefused (work (.str name)) session) :
    IsRefused (withTask terminal project name title silent work) session := by
  rw [withTask]
  split
  · exact (refused _).bind _
  · refine isRefused_of_bind_ok files_apply ?_
    exact isRefused_loading failed worded _ _

end

/-- Looking for a project changes no file. -/
theorem preserves_existingProject (here : Path) (directory : Option String) :
    Preserves id (existingProject here directory) := by
  refine preserves_files.bind fun files => ?_
  cases directory with
  | some text => exact (preserves_liftFault _).bind fun _ => preserves_pure _
  | none =>
    refine (preserves_liftFault _).bind fun nearest => ?_
    obtain ⟨found, others⟩ := nearest
    cases found with
    | none => exact preserves_lift (.error .projectMissing)
    | some project =>
      refine Preserves.bind ?_ fun _ => preserves_pure _
      refine (preserves_report _).bind fun _ => ?_
      cases others
      · exact preserves_pure _
      · exact preserves_report _

/-- A request about a project whose manifest is refused is refused. -/
theorem isRefused_perform [Depths] (terminal : Terminal) {here : Path} {directory : Option String}
    {request : Request} (existing : request ≠ .init) {project : Project} {session left : Session}
    (found : existingProject here directory session = (.ok (some project), left))
    {error : Error} {message : String} (failed : (project.load session.files).result = .error error)
    (worded : error.message = .ok message) :
    IsRefused (perform terminal here directory request) session := by
  have same : left.files = session.files := by
    have kept := preserves_existingProject here directory session
    rwa [found] at kept
  rw [← same] at failed
  have withFound {work : Project → Operation Ending} (refused : IsRefused (work project) left) :
      IsRefused (withProject here directory work) session :=
    isRefused_of_bind_ok found refused
  cases request with
  | init => exact (existing rfl).elim
  | add name command description category condition pairs =>
    refine withFound (isRefused_givenEnv pairs fun env => ?_)
    refine (isRefused_editAndTell failed worded ?_ _).bind _
    exact not_isUnreported_ok ()
  | exec name command first label pairs =>
    exact withFound (isRefused_givenEnv pairs fun env => (isRefused_editAndTell failed worded
      (not_isUnreported_check_addCommand _ _ _ _ _) _).bind _)
  | spawn name target label pairs =>
    exact withFound (isRefused_givenEnv pairs fun env => (isRefused_editAndTell failed worded
      (not_isUnreported_check_addSubtask _ _ _ _) _).bind _)
  | reset name command silent =>
    refine withFound (isRefused_withTask failed worded terminal name _ silent fun name => ?_)
    refine isRefused_editAndTell failed worded ?_ _
    exact not_isUnreported_ok ()
  | env key text task =>
    refine withFound ?_
    cases task with
    | none =>
      refine (isRefused_edit failed worded ?_).bind _
      exact not_isUnreported_ok ()
    | some name =>
      refine (isRefused_editAndTell failed worded ?_ _).bind _
      exact not_isUnreported_ok ()
  | list category json =>
    refine withFound (isRefused_of_bind_ok files_apply ?_)
    exact isRefused_loading failed worded _ _
  | view name json command silent =>
    refine withFound (isRefused_withTask failed worded terminal name _ silent fun name => ?_)
    refine isRefused_of_bind_ok files_apply ?_
    exact isRefused_loading failed worded _ _
  | render name silent =>
    refine withFound (isRefused_withTask failed worded terminal name _ silent fun name => ?_)
    refine IsRefused.bind (isRefused_of_bind_ok files_apply ?_) _
    exact (isRefused_liftLogged failed worded).bind _
  | remove name forced silent =>
    refine withFound (isRefused_withTask failed worded terminal name _ silent fun name => ?_)
    refine (isRefused_edit failed worded ?_).bind _
    exact not_isUnreported_ok ()

/-- A request about a project whose manifest is refused ends with a line that says why something is
refused. -/
theorem runRequest_of_refused [Depths] (terminal : Terminal) {here : Path}
    {directory : Option String} {request : Request} (existing : request ≠ .init)
    {project : Project} {session left : Session}
    (found : existingProject here directory session = (.ok (some project), left))
    {error : Error} {message : String} (failed : (project.load session.files).result = .error error)
    (worded : error.message = .ok message) :
    ∃ line after, runRequest terminal here directory request session = (.failed, after) ∧
      after.reports.getLast? = some (.notice ("Error: " ++ line)) := by
  obtain ⟨other, line, after, refused, otherWorded⟩ :=
    isRefused_perform terminal existing found failed worded
  refine ⟨line, ⟨after.files, after.reports ++ [.notice ("Error: " ++ line)]⟩, ?_, ?_⟩
  · have ran : (perform terminal here directory request).run session = (.error other, after) :=
      refused
    have noticed : other.notice = .ok ⟨other.kind, line⟩ := notice_eq_ok.mpr ⟨otherWorded, rfl⟩
    rw [runRequest]
    simp only [bind, StateT.bind, ran, noticed]
    rfl
  · exact List.getLast?_concat

end CommandLine

/-! ### All contents of a manifest -/

namespace Project

variable [Depths]

/-- A manifest in memory is answered unless the first thing that is wrong with it cannot be
reported. So is one in a file unless nothing can be read from it, and then every request about the
project ends with a line that says what is wrong, or the manifest has been loaded. -/
theorem manifest_isAnswered_iff (manifest : Value) (project : Project) (files : Files)
    (content : Option ByteArray) :
    (IsAnswered (Registry.HasClashingKeys manifest) (Registry.ofManifest manifest).result ↔
      ¬ Registry.IsUnreportable manifest) ∧
    (files.HasContent project.manifestPath content →
      (IsAnswered (Manifest.HasClashes content) (project.load files).result ↔
        ¬ Manifest.IsUnreportableContent content) ∧
      (¬ Manifest.IsUnreportableContent content →
        (∃ registry, (project.load files).result = .ok registry) ∨
        ∀ (terminal : CommandLine.Terminal) (here : Path) (directory : Option String)
          (reports : List Report) (left : Session),
          CommandLine.existingProject here directory ⟨files, reports⟩ =
            (.ok (some project), left) →
          ∀ request, request ≠ .init → ∃ line after,
            CommandLine.runRequest terminal here directory request ⟨files, reports⟩ =
              (.failed, after) ∧
            CommandLine.Ending.failed.code = 1 ∧
            after.reports.getLast? = some (.notice ("Error: " ++ line)))) := by
  refine ⟨Registry.isAnswered_ofManifest, fun has => ?_⟩
  have answered := isAnswered_load has
  refine ⟨answered, fun reportable => ?_⟩
  rcases answered.mpr reportable with loaded | ⟨error, notice, failed, noticed, -⟩
  · exact Or.inl loaded
  · refine Or.inr fun terminal here directory reports left found request existing => ?_
    obtain ⟨line, after, ran, last⟩ := CommandLine.runRequest_of_refused terminal existing found
      failed (notice_eq_ok.mp noticed).1
    exact ⟨line, after, ran, rfl, last⟩

end Project

namespace Project

/-- The content of a manifest that is a list. -/
def listing : ByteArray :=
  "- a\n".toUTF8

/-- A project whose manifest is a list. -/
def listed : Files :=
  Files.empty.place sample.manifestPath (.file listing)

theorem not_isUnreportableContent_listing :
    ¬ Manifest.IsUnreportableContent (some listing) := by
  have said : (Yaml.said (some listing)).toOption.map Value.isMap = some false := by
    decide +kernel
  rintro (⟨failed⟩ | ⟨given, unreportable⟩)
  · rw [failed] at said
    cases said
  · rw [given] at said
    have closed := Option.isSome_eq_false_iff.mp (Option.some.inj said)
    refine (Registry.not_isUnreportable_of_empty ?_).1 unreportable
    rw [Option.isNone_iff_eq_none.mp closed, Option.getD_none]

/-- Whatever is asked of the project is refused, and the last line says so. -/
theorem listed_isAnswered :
    listed.HasContent sample.manifestPath (some listing) ∧
    ∀ terminal : CommandLine.Terminal, ∃ line after,
      CommandLine.runRequest terminal ⟨["work"]⟩ none (.list none false) ⟨listed, []⟩ =
        (.failed, after) ∧
      after.reports.getLast? = some (.notice ("Error: " ++ line)) := by
  have has : listed.HasContent sample.manifestPath (some listing) := ⟨_, rfl⟩
  have found : CommandLine.existingProject ⟨["work"]⟩ none ⟨listed, []⟩ =
      (.ok (some sample), _) := rfl
  have refused : (sample.load listed).result.isOk = false := by
    decide +kernel
  refine ⟨has, fun terminal => ?_⟩
  obtain ⟨registry, given⟩ | answered :=
    ((manifest_isAnswered_iff .null sample listed (some listing)).2 has).2
      not_isUnreportableContent_listing
  · rw [given] at refused
    cases refused
  · obtain ⟨line, after, ran, -, last⟩ := answered terminal ⟨["work"]⟩ none [] _ found
      (.list none false) (by simp)
    exact ⟨line, after, ran, last⟩

/-- Octets that are no text, and keys of different types that are not known, are not reported. -/
theorem not_isAnswered_of_octet :
    (¬ ∀ (project : Project) (files : Files) (content : Option ByteArray),
      files.HasContent project.manifestPath content →
        IsAnswered True (project.load files).result) ∧
    ¬ ∀ manifest, IsAnswered True (Registry.ofManifest manifest).result := by
  have unanswered {α : Type} {outcome : Except Error α} {fault : Fault}
      (failed : outcome = .error (.fault fault)) : ¬ IsAnswered True outcome := by
    subst failed
    rintro (⟨value, given⟩ | ⟨error, notice, failed, noticed, -⟩)
    · cases given
    · obtain rfl := Except.error.inj failed
      cases noticed
  constructor
  · intro answers
    have undecodable : (load ⟨⟨["work"]⟩⟩ spoiled).result = .error (.fault .undecodable) := rfl
    exact unanswered undecodable (answers ⟨⟨["work"]⟩⟩ spoiled (some ⟨#[0xFF]⟩) ⟨_, rfl⟩)
  · intro answers
    let manifest : Value := .ofEntries [(.str "tasks", .ofEntries [(.str "a",
      .ofEntries [(.int 1, .null), (.str "x", .null)])])]
    have unsorted : (Registry.ofManifest manifest).result = .error (.fault .wrongType) := rfl
    exact unanswered unsorted (answers manifest)

end Project

end Taskbook
