/-
Operations on files, run step by step.

An operation that is run from a session gives an outcome and the session that it leaves. A chain
of operations goes on from the session that its first link leaves, and stops where a link fails.
-/

import Taskbook.Operation
import Taskbook.Proofs.Outcome

namespace Taskbook

/-- The result of a computation that gives warnings, if all of them can be worded. -/
def Warned.outcome {α : Type} (warned : Warned α) : Except Fault α := do
  warned.warnings.forM fun wording => do
    let _ ← wording
  warned.result

namespace Warned

variable {α β : Type}

theorem result_bind (first : Warned α) (next : α → Warned β) :
    (first >>= next).result = first.result >>= fun value => (next value).result := by
  show (first.andThen next).result = _
  unfold andThen
  cases first.result with
  | error fault => rfl
  | ok value => rfl

/-- A chain goes on from a result, after the warnings so far. -/
theorem bind_of_ok {first : Warned α} {value : α} (given : first.result = .ok value)
    (next : α → Warned β) :
    (first >>= next) = ⟨first.warnings ++ (next value).warnings, (next value).result⟩ := by
  show first.andThen next = _
  rw [andThen, given]

theorem warnings_bind {first : Warned α} {value : α} (given : first.result = .ok value)
    (next : α → Warned β) :
    (first >>= next).warnings = first.warnings ++ (next value).warnings := by
  rw [bind_of_ok given]

/-- Where all warnings can be worded, the outcome is the result. -/
theorem result_of_outcome {warned : Warned α} {value : α} (outcome : warned.outcome = .ok value) :
    warned.result = .ok value := by
  obtain ⟨-, -, given⟩ := bind_eq_ok.mp outcome
  exact given

/-- What a computation gives where its warnings are told, or where they are not. They have to be
worded only where they are. -/
def given (told : Bool) (warned : Warned α) : Except Fault α :=
  if told then warned.outcome else warned.result

variable {told : Bool}

theorem given_eq_ok {warned : Warned α} {value : α} :
    warned.given told = .ok value ↔
      (told = true → ∀ wording ∈ warned.warnings, ∃ message, wording = .ok message) ∧
        warned.result = .ok value := by
  have worded (warnings : List (Except Fault String)) :
      (∃ done, (warnings.forM fun wording => do let _ ← wording) = .ok done) ↔
        ∀ wording ∈ warnings, ∃ message, wording = .ok message := by
    induction warnings with
    | nil => exact iff_of_true ⟨(), rfl⟩ fun _ member => (List.not_mem_nil member).elim
    | cons first rest inductionHypothesis =>
      rw [List.forall_mem_cons, ← inductionHypothesis, List.forM]
      cases first with
      | error fault => simp
      | ok message => simp
  cases told with
  | false => simp [given]
  | true =>
    rw [given, if_pos rfl, outcome, bind_eq_ok, exists_and_right, worded]
    simp only [true_implies]

/-- A chain gives what its last link does, if each link gives something. -/
theorem given_bind {first : Warned α} {next : α → Warned β} {result : β} :
    (first >>= next).given told = .ok result ↔
      ∃ value, first.given told = .ok value ∧ (next value).given told = .ok result := by
  simp only [given_eq_ok, result_bind, bind_eq_ok]
  constructor
  · rintro ⟨worded, value, firstGiven, nextGiven⟩
    rw [warnings_bind firstGiven] at worded
    exact ⟨value, ⟨fun isTold wording member => worded isTold wording
      (List.mem_append_left _ member), firstGiven⟩, fun isTold wording member =>
        worded isTold wording (List.mem_append_right _ member), nextGiven⟩
  · rintro ⟨value, ⟨worded, firstGiven⟩, nextWorded, nextGiven⟩
    refine ⟨fun isTold wording member => ?_, value, firstGiven, nextGiven⟩
    rw [warnings_bind firstGiven] at member
    rcases List.mem_append.mp member with inFirst | inNext
    · exact worded isTold wording inFirst
    · exact nextWorded isTold wording inNext

/-- What comes after warnings is given if the warnings are. -/
theorem given_bind_of_iff {first : Warned Unit} {next : Unit → Warned β} {result : β}
    {worded : Prop} (gives : ∀ done, first.given told = .ok done ↔ worded) :
    (first >>= next).given told = .ok result ↔ worded ∧ (next ()).given told = .ok result := by
  rw [given_bind]
  constructor
  · rintro ⟨done, firstGiven, nextGiven⟩
    exact ⟨(gives done).mp firstGiven, nextGiven⟩
  · rintro ⟨held, nextGiven⟩
    exact ⟨(), (gives ()).mpr held, nextGiven⟩

theorem given_silent (result : Except Fault α) : (silent result).given told = result := by
  cases told with
  | false => rfl
  | true => rfl

theorem given_warn {wording : Except Fault String} {done : Unit} :
    (warn wording).given told = .ok done ↔ (told = true → ∃ message, wording = .ok message) := by
  rw [given_eq_ok, warn]
  simp

theorem given_pure {value result : α} :
    (pure value : Warned α).given told = .ok result ↔ result = value := by
  rw [show (pure value : Warned α) = .silent (.ok value) from rfl, given_silent, Except.ok.injEq]
  exact eq_comm

/-- A warning that names nothing can always be worded. -/
theorem given_warned {message : String} {value result : α} :
    given told (do
      warn (.ok message)
      return value) = .ok result ↔ result = value := by
  have worded : ∀ done, (warn (.ok message)).given told = .ok done ↔ True :=
    fun done => iff_true_intro (given_warn.mpr fun _ => ⟨message, rfl⟩)
  rw [given_bind_of_iff worded, true_and, given_pure]

end Warned

namespace Operation

variable {α β : Type} {session left : Session}

theorem bind_of_ok {first : Operation α} {value : α} (ran : first session = (.ok value, left))
    (next : α → Operation β) : (first >>= next) session = next value left := by
  show ExceptT.bindCont next (first session).1 (first session).2 = _
  rw [ran]
  rfl

theorem bind_of_error {first : Operation α} {error : Error}
    (ran : first session = (.error error, left)) (next : α → Operation β) :
    (first >>= next) session = (.error error, left) := by
  show ExceptT.bindCont next (first session).1 (first session).2 = _
  rw [ran]
  rfl

/-- A chain of operations that does not fail goes on from what its first link gives. -/
theorem exists_of_bind_ok {first : Operation α} {next : α → Operation β} {result : β}
    (ran : ((first >>= next) session).1 = .ok result) :
    ∃ value left, first session = (.ok value, left) ∧ (next value left).1 = .ok result := by
  cases given : first session with
  | mk outcome left =>
    cases outcome with
    | error error =>
      rw [bind_of_error given] at ran
      cases ran
    | ok value =>
      rw [bind_of_ok given] at ran
      exact ⟨value, left, rfl, ran⟩

/-- A chain of operations succeeds where its first link does and the rest does from what that
leaves. -/
theorem chain_eq_ok {first : Operation α} {next : α → Operation β} {result : β} :
    (first >>= next) session = (.ok result, left) ↔
      ∃ value middle, first session = (.ok value, middle) ∧
        next value middle = (.ok result, left) := by
  constructor
  · intro ran
    obtain ⟨value, middle, given, -⟩ := exists_of_bind_ok (congrArg Prod.fst ran)
    exact ⟨value, middle, given, (bind_of_ok given next).symm.trans ran⟩
  · rintro ⟨value, middle, given, ran⟩
    rw [bind_of_ok given, ran]

theorem files_apply : files session = (.ok session.files, session) :=
  rfl

theorem report_apply (reports : List Report) :
    report reports session = (.ok (), ⟨session.files, session.reports ++ reports⟩) :=
  rfl

theorem lift_apply (result : Except Error α) :
    (liftM result : Operation α) session = (result, session) :=
  rfl

theorem liftFault_apply (result : Except Fault α) :
    (liftM result : Operation α) session = (orFault result, session) :=
  rfl

theorem liftLogged_apply (outcome : Logged α) :
    (liftM outcome : Operation α) session = (outcome.result,
      ⟨session.files, session.reports ++ outcome.records.map .record⟩) :=
  rfl

theorem liftWarned_apply (warned : Warned α) : ∃ left,
    (liftM warned : Operation α) session = (orFault warned.outcome, left) := by
  obtain ⟨warnings, result⟩ := warned
  induction warnings generalizing session with
  | nil => exact ⟨session, rfl⟩
  | cons wording rest inductionHypothesis =>
    cases wording with
    | error fault => exact ⟨session, rfl⟩
    | ok message =>
      exact @inductionHypothesis ⟨session.files, session.reports ++ [.warning message]⟩

theorem attempt_apply (step : Files → Files × Except Fault Unit) :
    attempt step session =
      (orFault (step session.files).2, ⟨(step session.files).1, session.reports⟩) :=
  rfl

theorem attempt_eq_ok {step : Files → Files × Except Fault Unit} :
    attempt step session = (.ok (), left) ↔
      ∃ changed, step session.files = (changed, .ok ()) ∧ left = ⟨changed, session.reports⟩ := by
  rw [attempt_apply, Prod.mk.injEq, orFault_eq_ok]
  constructor
  · rintro ⟨done, rfl⟩
    exact ⟨_, Prod.ext rfl done, rfl⟩
  · rintro ⟨changed, made, rfl⟩
    rw [made]
    exact ⟨rfl, rfl⟩

/-- A line is told if it can be encoded. -/
theorem tell_eq_ok {text : String} :
    tell text session = (.ok (), left) ↔ Text.isEncodable text = true ∧
      left = ⟨session.files, session.reports ++ [.line text]⟩ := by
  rw [tell]
  split
  · rename_i encodable
    rw [report_apply, Prod.mk.injEq, eq_comm (a := left)]
    simp [encodable]
  · rename_i unencodable
    exact iff_of_false nofun fun told => unencodable told.1

theorem change_apply {step : Files → Except Fault Files} {changed : Files}
    (made : step session.files = .ok changed) :
    change step session = (.ok (), ⟨changed, session.reports⟩) := by
  show (bind (liftM (orFault (step session.files)) : Operation Files) fun changed =>
    set { session with files := changed }) session = _
  rw [made]
  rfl

theorem change_apply_error {step : Files → Except Fault Files} {fault : Fault}
    (failed : step session.files = .error fault) :
    change step session = (.error (.fault fault), session) := by
  show (bind (liftM (orFault (step session.files)) : Operation Files) fun changed =>
    set { session with files := changed }) session = _
  rw [failed]
  rfl

theorem writeText_apply {path : Path} {text : String} {opened changed : Files}
    (opens : session.files.writeOctets path ByteArray.empty = .ok opened)
    (wrote : opened.writeText path text = .ok changed) :
    writeText path text session = (.ok (), ⟨changed, session.reports⟩) := by
  have opening : change (fun files => files.writeOctets path ByteArray.empty) session =
      (.ok (), ⟨opened, session.reports⟩) := change_apply opens
  rw [writeText, bind_of_ok opening]
  exact change_apply wrote

end Operation

end Taskbook
