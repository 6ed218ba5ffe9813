/-
What an operation on a project leaves as it was.

A question changes no file. A change of the tasks makes the directory of the project, so files can
be different after a change that has failed. But the manifest is opened only when nothing can fail
any more: the tasks have been loaded and changed, the manifest has a text, and a file keeps the text
of any manifest. So after a failure the manifest is what it was, or there is still none. No
operation writes the configuration.

The operations are followed step by step. What is looked at in the files stays through a chain of
operations if it stays through each of them.
-/

import Taskbook.Edit
import Taskbook.Project.Viewing
import Taskbook.Proofs.Project.Keeping

namespace Taskbook

namespace Operation

variable {α β γ : Type} {view : Files → γ}

/-! ### What stays -/

/-- Whether something about the files stays, whatever comes of an operation. -/
def Preserves (view : Files → γ) (operation : Operation α) : Prop :=
  ∀ session, view (operation session).2.files = view session.files

/-- Whether something about the files stays if an operation fails. -/
def PreservesFailing (view : Files → γ) (operation : Operation α) : Prop :=
  ∀ session error, (operation session).1 = .error error →
    view (operation session).2.files = view session.files

/-- Whether an operation never fails. -/
def Succeeds (operation : Operation α) : Prop :=
  ∀ session, ∃ value, (operation session).1 = .ok value

/-- Whether an operation can have a result. -/
def CanGive (operation : Operation α) (value : α) : Prop :=
  ∃ session, (operation session).1 = .ok value

theorem bind_apply (first : Operation α) (next : α → Operation β) (session : Session) :
    (∃ error, (first session).1 = .error error ∧
      (first >>= next) session = (.error error, (first session).2)) ∨
    ∃ value, (first session).1 = .ok value ∧
      (first >>= next) session = next value (first session).2 := by
  cases ran : first session with
  | mk result left =>
    cases result with
    | error error => exact Or.inl ⟨error, rfl, bind_of_error ran next⟩
    | ok value => exact Or.inr ⟨value, rfl, bind_of_ok ran next⟩

theorem Preserves.bind {first : Operation α} {next : α → Operation β}
    (stays : Preserves view first) (goesOn : ∀ value, Preserves view (next value)) :
    Preserves view (first >>= next) := by
  intro session
  rcases bind_apply first next session with ⟨error, -, ran⟩ | ⟨value, -, ran⟩
  · rw [ran]
    exact stays session
  · rw [ran]
    exact (goesOn value _).trans (stays session)

/-- What stays through the first operation stays if the others fail, for the results that the first
one can have. -/
theorem Preserves.bindFailing {first : Operation α} {next : α → Operation β}
    (stays : Preserves view first)
    (goesOn : ∀ value, CanGive first value → PreservesFailing view (next value)) :
    PreservesFailing view (first >>= next) := by
  intro session error failed
  rcases bind_apply first next session with ⟨other, -, ran⟩ | ⟨value, given, ran⟩
  · rw [ran]
    exact stays session
  · rw [ran] at failed ⊢
    exact (goesOn value ⟨session, given⟩ _ error failed).trans (stays session)

/-- Nothing fails after the first operation, if it has not failed itself. -/
theorem PreservesFailing.bind {first : Operation α} {next : α → Operation β}
    (stays : PreservesFailing view first) (succeeds : ∀ value, Succeeds (next value)) :
    PreservesFailing view (first >>= next) := by
  intro session error failed
  rcases bind_apply first next session with ⟨other, firstFailed, ran⟩ | ⟨value, -, ran⟩
  · rw [ran]
    exact stays session other firstFailed
  · rw [ran] at failed
    obtain ⟨result, given⟩ := succeeds value (first session).2
    rw [given] at failed
    cases failed

theorem preserves_of_files {operation : Operation α}
    (same : ∀ session, (operation session).2.files = session.files) : Preserves view operation :=
  fun session => congrArg view (same session)

theorem preserves_pure (value : α) : Preserves view (pure value : Operation α) :=
  preserves_of_files fun _ => rfl

theorem preserves_files : Preserves view files :=
  preserves_of_files fun _ => rfl

theorem preserves_report (reports : List Report) : Preserves view (report reports) :=
  preserves_of_files fun _ => rfl

theorem preserves_lift (result : Except Error α) :
    Preserves view (liftM result : Operation α) :=
  preserves_of_files fun _ => rfl

theorem preserves_liftFault (result : Except Fault α) :
    Preserves view (liftM result : Operation α) :=
  preserves_of_files fun _ => rfl

theorem preserves_liftLogged (outcome : Logged α) :
    Preserves view (liftM outcome : Operation α) :=
  preserves_of_files fun _ => rfl

theorem preserves_liftWarned (warned : Warned α) :
    Preserves view (liftM warned : Operation α) := by
  obtain ⟨warnings, result⟩ := warned
  have reported : Preserves view (warnings.forM fun wording =>
      (liftM wording : Operation String) >>= fun message => report [.warning message]) := by
    induction warnings with
    | nil => exact preserves_pure ()
    | cons wording rest inductionHypothesis =>
      exact ((preserves_liftFault wording).bind fun message => preserves_report _).bind
        fun _ => inductionHypothesis
  exact reported.bind fun _ => preserves_liftFault result

theorem preserves_attempt {step : Files → Files × Except Fault Unit}
    (stays : ∀ files, view (step files).1 = view files) : Preserves view (attempt step) := by
  intro session
  rw [attempt_apply]
  exact stays session.files

theorem preserves_change {step : Files → Except Fault Files}
    (stays : ∀ files changed, step files = .ok changed → view changed = view files) :
    Preserves view (change step) := by
  intro session
  cases made : step session.files with
  | error fault => rw [change_apply_error made]
  | ok changed =>
    rw [change_apply made]
    exact stays session.files changed made

end Operation

/-! ### Paths -/

namespace Files

/-- What is at a path that leads forward, if anything is: a file with its octets, or a directory
with all that is in it. -/
def at? (files : Files) (path : Path) : Option Entry :=
  files.root.at? path.parts

variable {files changed : Files} {path : Path}

theorem at?_ensureDirectory [Depths] (resolved : Path.backward ∉ path.parts) (name : String) :
    (files.ensureDirectory path).1.at? (path.child name) = files.at? (path.child name) :=
  at?_of_ensureWithin Depths.making resolved name []

theorem at?_writeOctets (resolved : Path.backward ∉ path.parts) {name other : String}
    (forward : name ≠ Path.backward) (differ : other ≠ name) {content : ByteArray}
    (wrote : files.writeOctets (path.child name) content = .ok changed) :
    changed.at? (path.child other) = files.at? (path.child other) := by
  have childResolved : Path.backward ∉ (path.child name).parts := by
    rw [Path.parts_child, List.mem_append, List.mem_singleton]
    exact not_or.mpr ⟨resolved, Ne.symm forward⟩
  obtain ⟨-, rfl⟩ := writeOctets_eq_ok childResolved wrote
  exact Entry.at?_place_of_ne _ _ _ differ

theorem writeText_eq_ok {text : String} (wrote : files.writeText path text = .ok changed) :
    ∃ content, files.writeOctets path content = .ok changed := by
  rw [writeText] at wrote
  split at wrote
  · exact ⟨_, wrote⟩
  · cases wrote

end Files

namespace Project

open Operation

variable [Depths] {project : Project}

/-! ### Changes -/

theorem preserves_ensureDirectory (resolved : Path.backward ∉ project.directory.parts)
    (name : String) : Preserves (·.at? (project.directory.child name)) project.ensureDirectory :=
  preserves_attempt fun _ => Files.at?_ensureDirectory resolved name

/-- Saving leaves the configuration. -/
theorem preserves_save (resolved : Path.backward ∉ project.directory.parts)
    (registry : Registry) : Preserves (·.at? project.configPath) (project.save registry) := by
  have forward : "tasks.yaml" ≠ Path.backward := by decide
  have differ : "config.yaml" ≠ "tasks.yaml" := by decide
  refine (preserves_ensureDirectory resolved "config.yaml").bind fun _ =>
    (preserves_liftFault _).bind fun text => Preserves.bind ?_ fun _ => preserves_report _
  refine (preserves_change fun files changed wrote => ?_).bind fun _ =>
    preserves_change fun files changed wrote => ?_
  · exact Files.at?_writeOctets resolved forward differ wrote
  · obtain ⟨content, wrote⟩ := Files.writeText_eq_ok wrote
    exact Files.at?_writeOctets resolved forward differ wrote

omit [Depths] in
/-- A text that files keep is written unless the file cannot be opened, and then nothing is. -/
theorem preservesFailing_writeText {path : Path} (forward : Path.backward ∉ path.parts)
    {text : String} (kept : ∀ character ∈ text.toList, Text.isKept character = true)
    {γ : Type} {view : Files → γ} : PreservesFailing view (writeText path text) := by
  intro session error failed
  cases opens : session.files.writeOctets path ByteArray.empty with
  | error fault =>
    rw [writeText, bind_of_error (change_apply_error opens)]
  | ok opened =>
    rw [writeText_apply opens (writeText_again forward opens kept)] at failed
    cases failed

/-- Saving that fails leaves the manifest. -/
theorem preservesFailing_save (resolved : Path.backward ∉ project.directory.parts)
    (registry : Registry) :
    PreservesFailing (·.at? project.manifestPath) (project.save registry) := by
  have forward : Path.backward ∉ project.manifestPath.parts := by
    rw [manifestPath, Path.parts_child, List.mem_append, List.mem_singleton]
    exact not_or.mpr ⟨resolved, by decide⟩
  refine (preserves_ensureDirectory resolved "tasks.yaml").bindFailing fun _ _ =>
    (preserves_liftFault _).bindFailing fun text given => PreservesFailing.bind ?_ fun _ session =>
      ⟨(), rfl⟩
  obtain ⟨session, written⟩ := given
  rw [liftFault_apply] at written
  exact preservesFailing_writeText forward (isKept_of_text (orFault_eq_ok.mp written))

theorem preserves_edit (resolved : Path.backward ∉ project.directory.parts) (change : Edit) :
    Preserves (·.at? project.configPath) (project.edit change) :=
  (preserves_lift _).bind fun _ => preserves_files.bind fun _ =>
    (preserves_liftLogged _).bind fun _ => (preserves_liftLogged _).bind fun made =>
      (preserves_save resolved made.1).bind fun _ => (preserves_liftFault _).bind fun _ =>
        (preserves_report _).bind fun _ => preserves_pure _

/-- A change that fails leaves the manifest: it fails before the manifest is opened. -/
theorem preservesFailing_edit (resolved : Path.backward ∉ project.directory.parts)
    (change : Edit) : PreservesFailing (·.at? project.manifestPath) (project.edit change) := by
  refine (preserves_lift _).bindFailing fun _ _ => preserves_files.bindFailing fun files _ =>
    (preserves_liftLogged _).bindFailing fun registry _ =>
      (preserves_liftLogged _).bindFailing fun made given =>
        (preservesFailing_save resolved made.1).bind fun _ session => ?_
  obtain ⟨before, applied⟩ := given
  rw [liftLogged_apply] at applied
  obtain ⟨records, worded⟩ := (Edit.makes_of_apply applied).records
  rw [worded]
  exact ⟨made.2, rfl⟩

/-! ### Everything that can be asked -/

/-- What can be done with the tasks of a project. -/
inductive Request where
  | edit (change : Edit)
  | list (category : Value)
  | view (name : Value)
  | spawnedBy (task : Task)
  | sharedVariables
  | baseVariables
  | render (name : Value)

/-- Whether a request is a question. -/
def Request.isQuestion : Request → Bool
  | edit _ => false
  | _ => true

/-- Carries out a request, whatever the answer. -/
def perform (project : Project) : Request → Operation Unit
  | .edit change => do
    let _ ← project.edit change
  | .list category => do
    let _ ← project.list category (← Operation.files)
  | .view name => do
    let _ ← project.view name (← Operation.files)
  | .spawnedBy task => do
    let _ ← project.spawnedBy task (← Operation.files)
  | .sharedVariables => do
    let _ ← project.load (← Operation.files)
  | .baseVariables => do
    let _ ← project.baseEnv (← Operation.files)
  | .render name => do
    let _ ← project.render name

/-- A question leaves all files. -/
theorem preserves_question {request : Request} (asks : request.isQuestion = true) :
    Preserves id (project.perform request) := by
  cases request with
  | edit change => cases asks
  | baseVariables =>
    exact preserves_files.bind fun _ => (preserves_liftWarned _).bind fun _ => preserves_pure _
  | render name =>
    refine Preserves.bind ?_ fun _ => preserves_pure _
    exact preserves_files.bind fun _ => (preserves_liftLogged _).bind fun _ =>
      (preserves_liftWarned _).bind fun _ => preserves_liftLogged _
  | _ => exact preserves_files.bind fun _ => (preserves_liftLogged _).bind fun _ => preserves_pure _

/-- No request changes the configuration of a project, a request that fails leaves the manifest,
and a question leaves all files. -/
theorem perform_preserves (project : Project)
    (resolved : Path.backward ∉ project.directory.parts) (request : Request)
    (session : Session) :
    (project.perform request session).2.files.at? project.configPath =
      session.files.at? project.configPath ∧
    (∀ error, (project.perform request session).1 = .error error →
      (project.perform request session).2.files.at? project.manifestPath =
        session.files.at? project.manifestPath) ∧
    (request.isQuestion = true → (project.perform request session).2.files = session.files) := by
  cases asks : request.isQuestion with
  | true =>
    have same : (project.perform request session).2.files = session.files :=
      preserves_question asks session
    rw [same]
    exact ⟨rfl, fun _ _ => rfl, fun _ => rfl⟩
  | false =>
    cases request with
    | edit change =>
      refine ⟨?_, ?_, fun asked => by cases asked⟩
      · exact ((preserves_edit resolved change).bind fun _ => preserves_pure ()) session
      · exact ((preservesFailing_edit resolved change).bind fun _ _ => ⟨(), rfl⟩) session
    | _ => cases asks

end Project

namespace Project

/-- Files in which the manifest is an octet that is no text. -/
def spoiled : Files :=
  Files.empty.place ⟨["work", "tasks.yaml"]⟩ (.file ⟨#[0xFF]⟩)

/-- A change to a project whose manifest is no text fails and leaves the manifest. -/
theorem spoiled_perform_preserves :
    Path.backward ∉ ["work"] ∧
    ((perform ⟨⟨["work"]⟩⟩ (.edit (.setSharedVariable (.str "A") (.str "b")))) ⟨spoiled, []⟩).1 =
      .error (.fault .undecodable) ∧
    ((perform ⟨⟨["work"]⟩⟩ (.edit (.setSharedVariable (.str "A") (.str "b"))))
      ⟨spoiled, []⟩).2.files.at? ⟨["work", "tasks.yaml"]⟩ = some (.file ⟨#[0xFF]⟩) := by
  have resolved : Path.backward ∉ ["work"] := by decide
  have failed : ((perform ⟨⟨["work"]⟩⟩ (.edit (.setSharedVariable (.str "A") (.str "b"))))
      ⟨spoiled, []⟩).1 = .error (.fault .undecodable) := by
    rfl
  exact ⟨resolved, failed,
    (perform_preserves ⟨⟨["work"]⟩⟩ resolved _ ⟨spoiled, []⟩).2.1 _ failed⟩

end Project

end Taskbook
