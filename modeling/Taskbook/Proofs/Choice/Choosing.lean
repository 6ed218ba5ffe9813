/-
Choosing one of some tasks.

A picker that gives an answer, or is left, decides alone, and nothing is reported. Where no picker
can be used, the tasks are listed with the numbers from one on, and the answer names the task of a
number exactly if it denotes that number; the empty answer stands for the first task. Nothing is
chosen by any other answer.

A list can only be shown if its title and all labels can be written and encoded. Otherwise choosing
fails, because showing it does. Choosing also fails where the answer cannot be read, which is found
out behind the list and the question.
-/

import Mathlib.Data.List.Forall2
import Taskbook.Choice.Numbered
import Taskbook.Proofs.Number.Reading
import Taskbook.Proofs.Operation
import Taskbook.Proofs.Text
import Taskbook.Proofs.Textual

namespace Taskbook.Choice

open Text

/-! ### The list -/

/-- A label with its number, counted from zero. -/
def numberedLine (numbered : String × Nat) : Report :=
  .line (toString (numbered.2 + 1) ++ ". " ++ numbered.1)

/-- The list that is shown: its title, the labels with the numbers from one on, and what cancels. -/
def listed (title : String) (labels : List String) : List Report :=
  [.line title] ++ labels.zipIdx.map numberedLine ++ [.line "0. cancel"]

/-- Labels that are those of some tasks and can be encoded. -/
def AreLabels (tasks : List Task) (labels : List String) : Prop :=
  List.Forall₂ (fun task text => label task = .ok text ∧ isEncodable text = true) tasks labels

/-- A list of tasks that can be shown. -/
structure CanShow (title : String) (tasks : List Task) (labels : List String) : Prop where
  title : isEncodable title = true
  labels : AreLabels tasks labels

variable {tasks : List Task} {title : String} {session left : Session}

theorem isEncodable_numberedLine (number : Nat) (text : String) :
    isEncodable (toString number ++ ". " ++ text) = isEncodable text := by
  refine isEncodable_append_of_kept ?_ text
  rw [String.toList_append, List.all_append, Bool.and_eq_true]
  exact ⟨List.all_eq_true.2 fun _ member => isKept_of_mem_number member, rfl⟩

/-- A task is shown if its label can be. -/
theorem tellTask_eq_ok (task : Task) (index : Nat) :
    (do
      let label ← label task
      Operation.tell (toString (index + 1) ++ ". " ++ label) : Operation Unit) session =
        (.ok (), left) ↔
      ∃ text, (label task = .ok text ∧ isEncodable text = true) ∧
        left = ⟨session.files, session.reports ++ [numberedLine (text, index)]⟩ := by
  rw [Operation.chain_eq_ok]
  constructor
  · rintro ⟨text, middle, labelled, told⟩
    obtain ⟨made, rfl⟩ := Prod.mk.inj labelled
    obtain ⟨encodable, rfl⟩ := Operation.tell_eq_ok.1 told
    rw [isEncodable_numberedLine] at encodable
    exact ⟨text, ⟨orFault_eq_ok.1 made, encodable⟩, rfl⟩
  · rintro ⟨text, ⟨made, encodable⟩, rfl⟩
    refine ⟨text, session, Prod.ext (orFault_eq_ok.2 made) rfl, Operation.tell_eq_ok.2 ⟨?_, rfl⟩⟩
    rw [isEncodable_numberedLine, encodable]

/-- Tasks are shown one after the other, as far as they can be. -/
theorem forM_tellTask_eq_ok (tasks : List Task) (start : Nat) :
    ((tasks.zipIdx start).forM fun (task, index) => do
      let label ← label task
      Operation.tell (toString (index + 1) ++ ". " ++ label) : Operation Unit) session =
        (.ok (), left) ↔
      ∃ labels, AreLabels tasks labels ∧
        left = ⟨session.files, session.reports ++ (labels.zipIdx start).map numberedLine⟩ := by
  induction tasks generalizing start session with
  | nil =>
    constructor
    · rintro ⟨⟩
      exact ⟨[], .nil, by rw [List.zipIdx_nil, List.map_nil, List.append_nil]⟩
    · rintro ⟨_, ⟨⟩, rfl⟩
      exact congrArg (fun reports => (Except.ok (), Session.mk session.files reports))
        (List.append_nil _).symm
  | cons first rest inductionHypothesis =>
    rw [List.zipIdx_cons, List.forM, Operation.chain_eq_ok]
    constructor
    · rintro ⟨_, middle, firstShown, restShown⟩
      obtain ⟨text, isLabel, rfl⟩ := (tellTask_eq_ok first start).1 firstShown
      obtain ⟨texts, areLabels, rfl⟩ := (inductionHypothesis (start + 1)).1 restShown
      refine ⟨text :: texts, .cons isLabel areLabels, ?_⟩
      rw [List.zipIdx_cons, List.map_cons, List.append_assoc, List.singleton_append]
    · rintro ⟨_, areLabels, rfl⟩
      cases areLabels with
      | cons isLabel areLabels =>
        rename_i text texts
        refine ⟨(), _, (tellTask_eq_ok first start).2 ⟨text, isLabel, rfl⟩,
          (inductionHypothesis (start + 1)).2 ⟨texts, areLabels, ?_⟩⟩
        rw [List.zipIdx_cons, List.map_cons, List.append_assoc, List.singleton_append]

theorem tellList_eq_ok : tellList title tasks session = (.ok (), left) ↔
    ∃ labels, CanShow title tasks labels ∧
      left = ⟨session.files, session.reports ++ listed title labels⟩ := by
  rw [tellList, Operation.chain_eq_ok]
  constructor
  · rintro ⟨_, _, titleTold, told⟩
    obtain ⟨titled, rfl⟩ := Operation.tell_eq_ok.1 titleTold
    obtain ⟨_, _, tasksTold, lastTold⟩ := Operation.chain_eq_ok.1 told
    obtain ⟨labels, areLabels, rfl⟩ := (forM_tellTask_eq_ok tasks 0).1 tasksTold
    obtain ⟨-, rfl⟩ := Operation.tell_eq_ok.1 lastTold
    refine ⟨labels, ⟨titled, areLabels⟩, ?_⟩
    simp only [listed, List.append_assoc]
  · rintro ⟨labels, ⟨titled, areLabels⟩, rfl⟩
    refine ⟨(), _, Operation.tell_eq_ok.2 ⟨titled, rfl⟩, Operation.chain_eq_ok.2
      ⟨(), _, (forM_tellTask_eq_ok tasks 0).2 ⟨labels, areLabels, rfl⟩,
        Operation.tell_eq_ok.2 ⟨by decide +kernel, ?_⟩⟩⟩
    simp only [listed, List.append_assoc]

/-! ### The answer -/

/-- What comes of an answer to the question. A line chooses the task at a place of the list if it
denotes its number, or if the line is empty and the task is the first one; any other line chooses
nothing, and so does the end of the input. What cannot be read is a failure. -/
inductive Settles (tasks : List Task) : Answer → Except Error (Option Value) → Prop where
  | line {text : String} {chosen : Option Value}
      (chooses : ∀ name, chosen = some name ↔ ∃ (place : Nat) (task : Task),
        tasks[place]? = some task ∧
          (Number.Denotes text (place + 1 : Nat) ∨ text = "" ∧ place = 0) ∧ name = task.name) :
      Settles tasks (.line text) (.ok chosen)
  | ended : Settles tasks .ended (.ok none)
  | unread {fault : Fault} : Settles tasks (.unread fault) (.error (.fault fault))

theorem numbered?_eq_some {number : Int} {name : Value} :
    numbered? tasks number = some name ↔ ∃ (place : Nat) (task : Task),
      tasks[place]? = some task ∧ number = (place + 1 : Nat) ∧ name = task.name := by
  rw [numbered?]
  constructor
  · intro chosen
    split at chosen
    next positive =>
      obtain ⟨task, there, rfl⟩ := Option.map_eq_some_iff.1 chosen
      exact ⟨_, task, there, by omega, rfl⟩
    next => cases chosen
  · rintro ⟨place, task, there, rfl, rfl⟩
    have same : ((place + 1 : Nat) : Int).toNat - 1 = place := by omega
    rw [if_pos (by omega), same, there]
    rfl

/-- The empty line denotes no number, and the answer that it stands for denotes one. -/
theorem readInt?_given (line : String) (number : Int) :
    Number.readInt? 10 (if line.isEmpty then usualAnswer else line) = some number ↔
      Number.Denotes line number ∨ line = "" ∧ number = 1 := by
  rw [← Number.readInt?_ten]
  by_cases empty : line = ""
  · subst empty
    have usual : Number.readInt? 10 usualAnswer = some 1 := by decide +kernel
    have nothing : Number.readInt? 10 "" = none := by decide +kernel
    rw [if_pos (by rfl), usual, nothing, Option.some.injEq]
    simp [eq_comm]
  · rw [if_neg (by simpa using empty)]
    simp [empty]

theorem answered?_eq_some {line : String} {name : Value} :
    answered? tasks line = some name ↔ ∃ (place : Nat) (task : Task), tasks[place]? = some task ∧
      (Number.Denotes line (place + 1 : Nat) ∨ line = "" ∧ place = 0) ∧ name = task.name := by
  rw [answered?, Option.bind_eq_some_iff]
  simp only [readInt?_given, numbered?_eq_some]
  constructor
  · rintro ⟨_, read, place, task, there, rfl, rfl⟩
    exact ⟨place, task, there, read.imp_right fun ⟨empty, first⟩ => ⟨empty, by omega⟩, rfl⟩
  · rintro ⟨place, task, there, read, rfl⟩
    exact ⟨_, read.imp_right fun ⟨empty, first⟩ => ⟨empty, by omega⟩, place, task, there, rfl, rfl⟩

/-- What an answer to the question is settled to. -/
def settled (tasks : List Task) : Answer → Except Error (Option Value)
  | .line text => .ok (answered? tasks text)
  | .ended => .ok none
  | .unread fault => .error (.fault fault)

theorem settles_settled (tasks : List Task) (answer : Answer) :
    Settles tasks answer (settled tasks answer) := by
  cases answer with
  | line text => exact .line fun _ => answered?_eq_some
  | ended => exact .ended
  | unread fault => exact .unread

/-! ### The picker -/

/-- A picker that is shown some tasks gives something. -/
def Gives (picker : Picker) (title : String) (tasks : List Task) (picked : Picked) : Prop :=
  tasks ≠ [] ∧ ∃ pick shown, picker = .working pick ∧ request title tasks .null = .ok shown ∧
    pick shown = picked

/-- A picker cannot be used for some tasks, for a reason. -/
inductive IsUnusable (picker : Picker) (title : String) (tasks : List Task) : String → Prop where
  /-- There is none. -/
  | absent {reason : String} (some : tasks ≠ []) (none : picker = .absent reason) :
      IsUnusable picker title tasks reason
  /-- It fails. -/
  | failed {reason : String} (fails : Gives picker title tasks (.failed reason)) :
      IsUnusable picker title tasks ("selector runtime failed: " ++ reason)
  /-- There are labels that cannot be written. -/
  | unwritable {pick : PickerRequest → Picked} {fault : Fault} (some : tasks ≠ [])
      (works : picker = .working pick) (refused : request title tasks .null = .error fault) :
      IsUnusable picker title tasks ("selector runtime failed: " ++ unwritable)

variable {picker : Picker} {answer : Answer} {reason : String}

theorem select_of_gives {picked : Picked} (gives : Gives picker title tasks picked) :
    select picker title tasks .null = outcome picked := by
  obtain ⟨some, pick, shown, rfl, asked, rfl⟩ := gives
  unfold select
  rw [if_neg (by simpa using some), asked]

theorem IsUnusable.select_eq (unusable : IsUnusable picker title tasks reason) :
    select picker title tasks .null = .error ⟨reason⟩ := by
  cases unusable with
  | absent some none =>
    unfold select
    rw [if_neg (by simpa using some), none]
  | failed fails => exact select_of_gives fails
  | unwritable some works refused =>
    unfold select
    rw [if_neg (by simpa using some), works, refused]
    rfl

/-- What is warned of where no picker can be used: the reason, if there is one. -/
def fallbackNotice (reason : String) : List Report :=
  if reason = "" then []
  else [.notice ("Warning: " ++ reason ++ "; falling back to numeric prompts.")]

/-- The question with the line that answers it. -/
def questioned : Answer → List Report
  | .line text => [question, .reply text]
  | _ => [question]

theorem choose_of_select {chosen : Option Value}
    (selected : select picker title tasks .null = .ok chosen) :
    choose picker answer title tasks session = (.ok chosen, session) := by
  rw [choose, selected]
  rfl

/-- Where no picker can be used, the number is asked for behind the warning. -/
theorem choose_of_unusable (unusable : IsUnusable picker title tasks reason) :
    choose picker answer title tasks session =
      chooseNumber answer title tasks
        ⟨session.files, session.reports ++ fallbackNotice reason⟩ := by
  have notified : notifyFallback ⟨reason⟩ session =
      (.ok (), ⟨session.files, session.reports ++ fallbackNotice reason⟩) := by
    rw [notifyFallback, fallbackNotice]
    by_cases empty : reason = ""
    · subst empty
      exact congrArg (fun reports => (Except.ok (), Session.mk session.files reports))
        (List.append_nil _).symm
    · rw [if_neg (by simpa using empty), if_neg empty]
      rfl
  rw [choose, unusable.select_eq]
  exact Operation.bind_of_ok notified _

theorem chooseNumber_of_canShow {labels : List String} (shown : CanShow title tasks labels)
    (answer : Answer) :
    chooseNumber answer title tasks session = (settled tasks answer,
      ⟨session.files, session.reports ++ listed title labels ++ questioned answer⟩) := by
  have told : tellList title tasks session =
      (.ok (), ⟨session.files, session.reports ++ listed title labels⟩) :=
    tellList_eq_ok.2 ⟨labels, shown, rfl⟩
  refine (Operation.bind_of_ok told _).trans ?_
  cases answer with
  | line text =>
    refine congrArg (fun reports => (Except.ok (answered? tasks text),
      Session.mk session.files reports)) ?_
    exact List.append_assoc _ [question] [.reply text]
  | ended => rfl
  | unread fault => rfl

/-- What cannot be shown makes choosing fail. -/
theorem chooseNumber_of_not_canShow (hidden : ¬ ∃ labels, CanShow title tasks labels)
    (answer : Answer) :
    ∃ error left, chooseNumber answer title tasks session = (.error error, left) := by
  cases told : tellList title tasks session with
  | mk outcome left =>
    cases outcome with
    | error error => exact ⟨error, left, Operation.bind_of_error told _⟩
    | ok done =>
      obtain ⟨labels, shown, -⟩ := tellList_eq_ok.1 told
      exact absurd ⟨labels, shown⟩ hidden

/-! ### The choice -/

/-- A picker that gives nothing but texts and null. -/
def GivesTexts (picker : Picker) : Prop :=
  ∀ pick shown value, picker = .working pick → pick shown = .value value → value.IsTextOrNull

/-- A picker decides, or none can be used. -/
theorem gives_or_isUnusable (texts : GivesTexts picker) (title : String) (some : tasks ≠ []) :
    (∃ name, Gives picker title tasks (.value (.str name))) ∨
      (Gives picker title tasks .left ∨ Gives picker title tasks (.value .null)) ∨
        ∃ reason, IsUnusable picker title tasks reason := by
  cases picker with
  | absent reason => exact Or.inr (Or.inr ⟨reason, .absent some rfl⟩)
  | working pick =>
    cases asked : request title tasks .null with
    | error fault => exact Or.inr (Or.inr ⟨_, .unwritable some rfl asked⟩)
    | ok shown =>
      have gives : Gives (.working pick) title tasks (pick shown) :=
        ⟨some, pick, shown, rfl, asked, rfl⟩
      cases picked : pick shown with
      | left => exact Or.inr (Or.inl (Or.inl (picked ▸ gives)))
      | failed reason => exact Or.inr (Or.inr ⟨_, .failed (picked ▸ gives)⟩)
      | value value =>
        rcases texts pick shown value rfl picked with rfl | ⟨name, rfl⟩
        · exact Or.inr (Or.inl (Or.inr (picked ▸ gives)))
        · exact Or.inl ⟨name, picked ▸ gives⟩

/-- What comes of choosing one of some tasks. -/
structure ReturnsShown (picker : Picker) (answer : Answer) (title : String)
    (tasks : List Task) (session : Session) : Prop where
  /-- Where there are no tasks nothing is chosen, shown or asked. -/
  empty : tasks = [] → choose picker answer title tasks session = (.ok none, session) ∧
    requests picker title tasks .null = []
  /-- What is picked is chosen, and nothing is asked. -/
  picked : ∀ name, Gives picker title tasks (.value (.str name)) →
    choose picker answer title tasks session = (.ok (some (.str name)), session)
  /-- Nothing is chosen and nothing is asked if the picker is left, or gives nothing. -/
  left : Gives picker title tasks .left ∨ Gives picker title tasks (.value .null) →
    choose picker answer title tasks session = (.ok none, session)
  /-- Where no picker can be used the tasks are listed, and the answer settles what is chosen. -/
  asked : ∀ reason labels, IsUnusable picker title tasks reason → CanShow title tasks labels →
    ∃ outcome, Settles tasks answer outcome ∧
      choose picker answer title tasks session = (outcome, ⟨session.files, session.reports ++
        fallbackNotice reason ++ listed title labels ++ questioned answer⟩)
  /-- A list that cannot be shown makes choosing fail where no picker can be used. -/
  hidden : ∀ reason, IsUnusable picker title tasks reason →
    (¬ ∃ labels, CanShow title tasks labels) →
      ∃ error left, choose picker answer title tasks session = (.error error, left)
  /-- If the list can be shown and the answer can be read, choosing does not fail. -/
  total : (∃ labels, CanShow title tasks labels) → (∀ fault, answer ≠ .unread fault) →
    ∃ chosen left, choose picker answer title tasks session = (.ok chosen, left)

/-- Where a picker gives only texts, choosing gives what was picked or the task beside the number
that was given. -/
theorem choose_returnsShown (texts : GivesTexts picker) (answer : Answer) (title : String)
    (tasks : List Task) (session : Session) :
    ReturnsShown picker answer title tasks session := by
  have empty (none : tasks = []) :
      choose picker answer title tasks session = (.ok Option.none, session) ∧
        requests picker title tasks .null = [] := by
    subst none
    refine ⟨choose_of_select rfl, ?_⟩
    cases picker <;> rfl
  have picked (name : String) (gives : Gives picker title tasks (.value (.str name))) :
      choose picker answer title tasks session = (.ok (some (.str name)), session) :=
    choose_of_select (select_of_gives gives)
  have left (leaves : Gives picker title tasks .left ∨ Gives picker title tasks (.value .null)) :
      choose picker answer title tasks session = (.ok none, session) :=
    choose_of_select (leaves.elim select_of_gives select_of_gives)
  have asked (reason : String) (labels : List String)
      (unusable : IsUnusable picker title tasks reason) (shown : CanShow title tasks labels) :
      ∃ outcome, Settles tasks answer outcome ∧
        choose picker answer title tasks session = (outcome, ⟨session.files, session.reports ++
          fallbackNotice reason ++ listed title labels ++ questioned answer⟩) := by
    rw [choose_of_unusable unusable]
    exact ⟨_, settles_settled tasks answer, chooseNumber_of_canShow shown answer⟩
  refine ⟨empty, picked, left, asked, ?_, ?_⟩
  · intro reason unusable hidden
    rw [choose_of_unusable unusable]
    exact chooseNumber_of_not_canShow hidden answer
  · rintro ⟨labels, shown⟩ readable
    by_cases none : tasks = []
    · exact ⟨_, _, (empty none).1⟩
    · rcases gives_or_isUnusable texts title none with ⟨name, gives⟩ | leaves | ⟨reason, unusable⟩
      · exact ⟨_, _, picked name gives⟩
      · exact ⟨_, _, left leaves⟩
      · obtain ⟨outcome, settles, chose⟩ := asked reason labels unusable shown
        cases settles with
        | line _ => exact ⟨_, _, chose⟩
        | ended => exact ⟨_, _, chose⟩
        | unread => exact absurd rfl (readable _)

/-- Two tasks of a sample. -/
def sampleTasks : List Task :=
  [⟨.str "lint", .str "fast", some .test, .null, [], []⟩,
    ⟨.str "package", .null, none, .null, [], []⟩]

theorem givesTexts_absent (reason : String) : GivesTexts (.absent reason) := by
  rintro _ _ _ ⟨⟩

/-- Without a terminal the second one is chosen by its number, in the digits of another script. -/
theorem sampleTasks_returnsShown :
    let chose := choose (.absent noTerminal) (.line " +٢") usualTitle sampleTasks ⟨.empty, []⟩
    (chose.1.toOption.map fun name => name.bind Value.given?) = some (some "package") ∧
      chose.2.reports =
        [.notice "Warning: interactive selector requires a TTY; falling back to numeric prompts.",
          .line "Select task", .line "1. lint [test] fast", .line "2. package [-]",
          .line "0. cancel", question, .reply " +٢"] ∧
      ReturnsShown (.absent noTerminal) (.line " +٢") usualTitle sampleTasks ⟨.empty, []⟩ :=
  ⟨by decide +kernel, by decide +kernel, choose_returnsShown (givesTexts_absent _) _ _ _ _⟩

/-- A task whose description cannot be encoded. -/
def hiddenTask : Task :=
  ⟨.str "a", .str (ofLetters [.half ⟨0, by decide⟩]), none, .null, [], []⟩

/-- Choosing fails where a label cannot be shown, and where the answer cannot be decoded. -/
theorem choose_fails :
    (∀ task ∈ hiddenTask :: sampleTasks, task.name.IsText) ∧ GivesTexts (.absent noTerminal) ∧
      (choose (.absent noTerminal) (.line "1") usualTitle [hiddenTask] ⟨.empty, []⟩).1 =
        .error (.fault .unencodable) ∧
      (choose (.absent noTerminal) (.unread .undecodable) usualTitle sampleTasks ⟨.empty, []⟩).1 =
        .error (.fault .undecodable) := by
  refine ⟨?_, givesTexts_absent _, by rfl, by rfl⟩
  simp [hiddenTask, sampleTasks, Value.IsText]

end Taskbook.Choice
