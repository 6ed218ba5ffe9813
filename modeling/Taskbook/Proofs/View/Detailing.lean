/-
The two ways of showing one task.

A task in full is shown as plain text, and as styled texts for a terminal. The first is joined from
its lines. The second is put together piece by piece: the title stands for the first two lines, and
each text after it is the line at its place, without the characters that a terminal would act on.
Where there are no such characters the two show the same.
-/

import Mathlib.Data.List.TakeWhile
import Taskbook.Proofs.Outcome
import Taskbook.Proofs.Text
import Taskbook.Proofs.Textual
import Taskbook.View.TaskDetail

namespace Taskbook.View

open Text

/-! ### Blanks at the end -/

/-- Blanks at the end of a text are looked for behind its last letter that is none. -/
theorem stripEnd_append {text : String}
    (solid : ∃ character ∈ text.toList, isBlank character = false) (before : String) :
    stripEnd (before ++ text) = before ++ stripEnd text := by
  obtain ⟨character, member, notBlank⟩ := solid
  have left : ¬ (text.toList.reverse.dropWhile isBlank).isEmpty = true := by
    rw [List.isEmpty_iff, List.dropWhile_eq_nil_iff]
    intro blank
    exact absurd (blank character (List.mem_reverse.2 member)) (by simp [notBlank])
  rw [stripEnd, stripEnd, dropBlanksEnd, dropBlanksEnd, String.toList_append, List.reverse_append,
    List.dropWhile_append, if_neg left, List.reverse_append, List.reverse_reverse,
    String.ofList_append, String.ofList_toList]

theorem stripEnd_append_blank (text : String) : stripEnd (text ++ " ") = stripEnd text := by
  have characters : (text ++ " ").toList = text.toList ++ [' '] := String.toList_append
  rw [stripEnd, stripEnd, dropBlanksEnd, dropBlanksEnd, characters, List.reverse_concat]
  rfl

/-! ### Characters that a terminal acts on -/

/-- A text without characters that a terminal would act on. -/
def IsInert (text : String) : Prop :=
  text.toList.all (fun character => !isControl character) = true

instance : DecidablePred IsInert :=
  fun _ => inferInstanceAs (Decidable (_ = true))

theorem withoutControls_append (first second : String) :
    withoutControls (first ++ second) = withoutControls first ++ withoutControls second := by
  rw [withoutControls, String.toList_append, List.filter_append, String.ofList_append]
  rfl

/-- A text without such characters is shown as it is. -/
theorem IsInert.withoutControls_eq {text : String} (inert : IsInert text) :
    withoutControls text = text := by
  rw [withoutControls, List.filter_eq_self.2 (List.all_eq_true.1 inert), String.ofList_toList]

theorem IsInert.append {first second : String} (firstInert : IsInert first)
    (secondInert : IsInert second) : IsInert (first ++ second) := by
  rw [IsInert, String.toList_append, List.all_append, firstInert, secondInert]
  rfl

theorem isInert_intercalate {separator : String} (separatorInert : IsInert separator)
    {texts : List String} (inert : ∀ text ∈ texts, IsInert text) :
    IsInert (separator.intercalate texts) := by
  induction texts with
  | nil => rfl
  | cons first rest inductionHypothesis =>
    have firstInert := inert first List.mem_cons_self
    cases rest with
    | nil => exact firstInert
    | cons second others =>
      rw [String.intercalate_cons_cons]
      exact (firstInert.append separatorInert).append
        (inductionHypothesis fun text member => inert text (List.mem_cons_of_mem _ member))

theorem isInert_number (number : Nat) : IsInert (toString number) := by
  refine List.all_eq_true.2 fun character member => ?_
  have least : 48 ≤ character.toNat := (Char.isDigit_iff_toNat.1 (isDigit_of_mem_number member)).1
  simp only [isControl, Bool.not_eq_true', Bool.or_eq_false_iff, decide_eq_false_iff_not]
  omega

theorem isInert_bandText (task : Task) : IsInert (bandText task) := by
  unfold bandText
  rcases task.category with _ | (_ | _ | _ | _ | _) <;> rfl

/-! ### The lines -/

/-- A task whose fields are texts, as far as they are given. -/
structure IsTextual (task : Task) : Prop where
  name : task.name.IsText
  description : task.description.IsTextOrNull
  condition : task.condition.IsTextOrNull
  steps : ∀ step ∈ task.steps, step.IsTextual

/-- What a step spawns and its state, two texts. -/
def spawnedOf (row : String × String) : Spawned :=
  ⟨.str row.1, .str row.2⟩

/-- What a step spawns, with its state unless it is there. -/
def rowText (row : String × String) : String :=
  if row.2 = present then row.1 else row.1 ++ " [" ++ row.2 ++ "]"

/-- All that is spawned, in one line. -/
def rowsText (rows : List (String × String)) : String :=
  if rows.isEmpty then "-" else ", ".intercalate (rows.map rowText)

/-- What a step does, in a line. -/
def actionText : Action → String
  | .spawn target => "spawn: " ++ target.given?.getD ""
  | .run command => "exec: " ++ command.given?.getD ""

/-- The label of a step behind what it does. -/
def labelText (label : Value) : String :=
  (label.given?.map fun text => "  [" ++ text ++ "]").getD ""

/-- The variables of a step behind its label. -/
def variablesText (env : Env) : String :=
  if env.isEmpty then "" else "  env(" ++ envPairs " " env ++ ")"

/-- A step with its number, counted from zero. -/
def stepText (numbered : Step × Nat) : String :=
  "  " ++ toString (numbered.2 + 1) ++ ". " ++
    (actionText numbered.1.action ++ labelText numbered.1.label ++ variablesText numbered.1.env)

/-- The steps of a task. -/
def stepTexts (task : Task) : List String :=
  if task.steps.isEmpty then [noSteps] else task.steps.zipIdx.map stepText

/-- The lines for a command, if there is one. -/
def commandTexts (command : Option String) : List String :=
  match command with
  | some text => ["", "command:", text]
  | none => []

/-- The description of a task behind its band. -/
def bandLine (task : Task) : String :=
  bandText task ++ " " ++ task.description.given?.getD ""

/-- The lines after those for the name and the band. -/
def furtherLines (task : Task) (rows : List (String × String)) (command : Option String) :
    List String :=
  ["condition: " ++ task.condition.given?.getD "-", "env: " ++ envLine task.env,
    "spawns: " ++ rowsText rows, "", "steps:"] ++ stepTexts task ++ commandTexts command

variable {task : Task} {value : Value}

theorem orText_eq (textual : value.IsTextOrNull) (otherwise : String) :
    (if value.isTruthy then value.text else .ok otherwise) =
      .ok (value.given?.getD otherwise) := by
  rcases textual.cases_given with ⟨untrue, none⟩ | ⟨text, rfl, truthy, given⟩
  · rw [if_neg (by simp [untrue]), none]
    rfl
  · rw [if_pos truthy, given]
    rfl

theorem text_eq_of_isText (textual : value.IsText) : value.text = .ok (value.given?.getD "") := by
  obtain ⟨text, rfl⟩ := textual
  by_cases empty : text = ""
  · rw [Value.given?, if_pos empty, empty]
    rfl
  · rw [Value.given?, if_neg empty]
    rfl

theorem isPresent_spawnedOf (row : String × String) :
    (spawnedOf row).isPresent = decide (row.2 = present) := by
  simp only [Spawned.isPresent, spawnedOf, Value.same, Value.sameScalar]

theorem spawnedLine_eq (rows : List (String × String)) :
    spawnedLine (rows.map spawnedOf) = .ok (rowsText rows) := by
  have words : (rows.map spawnedOf).mapM spawnedWord =
      .ok (rows.map fun row => .str (rowText row)) := by
    refine mapM_map_eq_ok fun row _ => ?_
    rw [spawnedWord, isPresent_spawnedOf, rowText]
    by_cases there : row.2 = present
    · simp only [there, decide_true, if_true]
      rfl
    · simp only [there, decide_false, if_false]
      rfl
  have texts : (rows.map fun row => Value.str (rowText row)).mapM Error.textOnly =
      .ok (rows.map rowText) :=
    mapM_map_eq_ok fun _ _ => rfl
  rw [spawnedLine, words, ok_bind, texts, ok_bind, rowsText, List.isEmpty_map]
  split <;> rfl

theorem stepLine_eq {step : Step} (textual : step.IsTextual) :
    stepLine step =
      .ok (actionText step.action ++ labelText step.label ++ variablesText step.env) := by
  have labelled (action : String) : (do
      let label ←
        if step.label.isTruthy then pure ("  [" ++ (← step.label.text) ++ "]") else pure ""
      return action ++ label ++ variablesText step.env) =
        (.ok (action ++ labelText step.label ++ variablesText step.env) : Except Fault String) := by
    rcases textual.label.cases_given with ⟨untrue, none⟩ | ⟨text, written, truthy, given⟩
    · rw [if_neg (by simp [untrue]), labelText, none]
      rfl
    · rw [if_pos truthy, labelText, given, written]
      rfl
  rw [stepLine]
  cases acted : step.action with
  | spawn target =>
    show (target.text >>= _) = _
    rw [text_eq_of_isText (textual.target target acted)]
    exact labelled _
  | run command =>
    show (command.text >>= _) = _
    rw [text_eq_of_isText (textual.command command acted)]
    exact labelled _

theorem stepLines_eq (textual : IsTextual task) :
    (if task.steps.isEmpty then pure [noSteps] else stepLines task) =
      (.ok (stepTexts task) : Except Fault (List String)) := by
  have each : stepLines task = .ok (task.steps.zipIdx.map stepText) := by
    rw [stepLines, ← List.map_id task.steps.zipIdx, List.map_map]
    refine mapM_map_eq_ok fun numbered member => ?_
    obtain ⟨step, place⟩ := numbered
    show (stepLine step >>= _) = _
    rw [stepLine_eq (textual.steps step (List.fst_mem_of_mem_zipIdx member))]
    rfl
  rw [each, stepTexts]
  split <;> rfl

/-- The lines of a task that is all texts. -/
theorem detailLines_eq (textual : IsTextual task) {name : String} (named : task.name = .str name)
    (rows : List (String × String)) (command : Option String) :
    detailLines task (rows.map spawnedOf) command =
      .ok (name :: stripEnd (bandLine task) :: furtherLines task rows command) := by
  have hyphened : orHyphen task.condition = .ok (task.condition.given?.getD "-") :=
    orText_eq textual.condition "-"
  unfold detailLines
  refine (bind_ite (orText_eq textual.description "") _).trans ?_
  simp only [hyphened, ok_bind, spawnedLine_eq]
  refine (bind_ite (stepLines_eq textual) _).trans ?_
  rw [named]
  rfl

/-! ### Styled texts -/

/-- A styled text reads as another where it is that one without the characters that a terminal
would act on. -/
def ReadsAs (styled : Styled) (text : String) : Prop :=
  styled.text = withoutControls text

variable {styled : Styled} {shown : String}

theorem ReadsAs.append (reads : ReadsAs styled shown) (text style : String) :
    ReadsAs (styled.append text style) (shown ++ text) := by
  rw [ReadsAs, withoutControls_append, ← reads, Styled.append]
  split
  next empty =>
    rw [String.isEmpty_iff.1 empty]
    exact String.append_empty.symm
  next => rfl

/-- What is spawned is appended to a line as it stands in one. -/
theorem ReadsAs.exists_appendSpawned (reads : ReadsAs styled shown) (row : String × String) :
    ∃ extended, appendSpawned styled (spawnedOf row) = .ok extended ∧
      ReadsAs extended (shown ++ rowText row) := by
  rw [appendSpawned, isPresent_spawnedOf, rowText]
  by_cases there : row.2 = present
  · simp only [there, decide_true, if_true]
    exact ⟨_, rfl, reads.append _ _⟩
  · simp only [there, decide_false, if_false]
    refine ⟨_, rfl, ?_⟩
    have named := ((reads.append row.1 "bold red").append (" [" ++ row.2 ++ "]") "red")
    simpa only [String.append_assoc] using named

/-- What is spawned further comes behind what there is, with a comma before each. -/
theorem ReadsAs.exists_appendFurther (reads : ReadsAs styled shown)
    (rows : List (String × String)) :
    ∃ extended, appendFurther styled (rows.map spawnedOf) = .ok extended ∧
      ReadsAs extended (", ".intercalate (shown :: rows.map rowText)) := by
  -- What has been shown so far is the first of the texts that are joined, and takes in the next.
  induction rows generalizing styled shown with
  | nil => exact ⟨styled, rfl, reads⟩
  | cons first rest inductionHypothesis =>
    obtain ⟨one, appended, oneReads⟩ := (reads.append ", " "").exists_appendSpawned first
    obtain ⟨all, further, allRead⟩ := inductionHypothesis oneReads
    refine ⟨all, ?_, ?_⟩
    · rw [List.map_cons, appendFurther, appended, ok_bind, further]
    · rw [String.intercalate_cons_append] at allRead
      rwa [List.map_cons, String.intercalate_cons_cons]

theorem exists_styledSpawned (rows : List (String × String)) :
    ∃ line, styledSpawned (rows.map spawnedOf) = .ok line ∧
      ReadsAs line ("spawns: " ++ rowsText rows) := by
  have started : ReadsAs (.plain "spawns: ") "spawns: " := rfl
  cases rows with
  | nil => exact ⟨_, rfl, started.append "-" ""⟩
  | cons first rest =>
    obtain ⟨one, appended, oneReads⟩ := started.exists_appendSpawned first
    obtain ⟨all, further, allRead⟩ := oneReads.exists_appendFurther rest
    refine ⟨all, ?_, ?_⟩
    · rw [List.map_cons, styledSpawned, appended, ok_bind, further]
    · rwa [String.intercalate_cons_append] at allRead

/-- The title is the name and the band with the description, if there is one. -/
theorem exists_styledTitle (textual : IsTextual task) {name : String}
    (named : task.name = .str name) :
    ∃ title, styledTitle task = .ok title ∧
      (ReadsAs title (name ++ " " ++ bandLine task) ∨
        ReadsAs title (name ++ " " ++ bandText task) ∧ bandLine task = bandText task ++ " ") := by
  have first : appendOnly (.plain "") task.name "bold" =
      .ok ((Styled.plain "").append name "bold") := by
    rw [appendOnly, named]
    rfl
  have empty : ReadsAs (.plain "") "" := rfl
  have banded := ((empty.append name "bold").append " " "").append (bandText task)
    (Category.style task.category)
  rw [String.empty_append] at banded
  rw [styledTitle, first, ok_bind]
  -- Without a description the plain line has a blank at its end that the title does not have.
  rcases textual.description.cases_given with ⟨untrue, none⟩ | ⟨text, written, truthy, given⟩
  · refine ⟨_, if_neg (by simp [untrue]), Or.inr ⟨banded, ?_⟩⟩
    rw [bandLine, none]
    exact String.append_empty
  · have described := banded.append (" " ++ text) "dim"
    refine ⟨_, (if_pos truthy).trans (by rw [written]; rfl), Or.inl ?_⟩
    rw [bandLine, given]
    simpa only [String.append_assoc, Option.getD_some] using described

/-- The steps of a task as styled texts. -/
def styledSteps (task : Task) : List Styled :=
  if task.steps.isEmpty then [.ofText noSteps "dim"] else (stepTexts task).map .plain

/-- The styled texts for a command, if there is one. -/
def styledCommand (command : Option String) : List Styled :=
  match command with
  | some text => [.plain "", .ofText "command:" "bold", .ofText text "green"]
  | none => []

/-- The styled texts behind the title, with what is spawned in a line. -/
def furtherItems (task : Task) (line : Styled) (command : Option String) : List Styled :=
  [.plain ("condition: " ++ task.condition.given?.getD "-"), .plain ("env: " ++ envLine task.env),
    line, .plain "", .ofText "steps:" "bold"] ++ styledSteps task ++ styledCommand command

theorem styledDetail_eq (textual : IsTextual task) {spawned : List Spawned} {title line : Styled}
    (titled : styledTitle task = .ok title) (lined : styledSpawned spawned = .ok line)
    (command : Option String) :
    styledDetail task spawned command =
      .ok (.group (title :: furtherItems task line command)) := by
  have hyphened : orHyphen task.condition = .ok (task.condition.given?.getD "-") :=
    orText_eq textual.condition "-"
  have written := stepLines_eq textual
  have plain : (stepTexts task).mapM (fun line => pure (Styled.plain line)) =
      (.ok ((stepTexts task).map .plain) : Except Fault (List Styled)) := List.mapM_pure
  unfold styledDetail
  rw [titled, ok_bind, lined, ok_bind, hyphened, ok_bind, furtherItems, styledSteps]
  split at written
  next none =>
    rw [if_pos none, if_pos none]
    rfl
  next some =>
    rw [if_neg some, if_neg some, written, ok_bind, plain, ok_bind]
    rfl

/-- Each text behind the title is the line at its place without what a terminal would act on. -/
theorem map_text_furtherItems {rows : List (String × String)} {line : Styled}
    (reads : ReadsAs line ("spawns: " ++ rowsText rows)) (task : Task) (command : Option String) :
    (furtherItems task line command).map Styled.text =
      (furtherLines task rows command).map withoutControls := by
  have steps : (styledSteps task).map Styled.text = (stepTexts task).map withoutControls := by
    rw [styledSteps, stepTexts]
    split
    · rfl
    · rw [List.map_map]
      rfl
  have commands : (styledCommand command).map Styled.text =
      (commandTexts command).map withoutControls := by
    cases command <;> rfl
  rw [furtherItems, furtherLines, List.map_append, List.map_append, List.map_append,
    List.map_append, steps, commands, List.map_cons, List.map_cons, List.map_cons, reads]
  rfl

/-! ### Lines without characters that a terminal acts on -/

/-- A value whose text, if it has one, has no such characters. -/
def IsInertValue (value : Value) : Prop :=
  ∀ text, value.given? = some text → IsInert text

/-- Variables without such characters in their names and texts. -/
def IsInertEnv (env : Env) : Prop :=
  ∀ entry ∈ env, IsInert entry.1 ∧ IsInert entry.2

/-- A step without such characters. -/
structure IsInertStep (step : Step) : Prop where
  label : IsInertValue step.label
  command : ∀ command, step.action = .run command → IsInertValue command
  target : ∀ target, step.action = .spawn target → IsInertValue target
  env : IsInertEnv step.env

/-- A task without such characters. -/
structure IsInertTask (task : Task) : Prop where
  name : IsInertValue task.name
  description : IsInertValue task.description
  condition : IsInertValue task.condition
  env : IsInertEnv task.env
  steps : ∀ step ∈ task.steps, IsInertStep step

theorem IsInertValue.getD (inert : IsInertValue value) {otherwise : String}
    (otherwiseInert : IsInert otherwise) : IsInert (value.given?.getD otherwise) := by
  cases given : value.given? with
  | none => exact otherwiseInert
  | some text => exact inert text given

theorem IsInertEnv.envPairs {env : Env} (inert : IsInertEnv env) {separator : String}
    (separatorInert : IsInert separator) : IsInert (envPairs separator env) := by
  refine isInert_intercalate separatorInert fun text member => ?_
  obtain ⟨entry, among, rfl⟩ := List.mem_map.1 member
  obtain ⟨nameInert, textInert⟩ := inert entry among
  exact (nameInert.append (by rfl)).append textInert

theorem isInert_rowsText {rows : List (String × String)}
    (inert : ∀ row ∈ rows, IsInert row.1 ∧ IsInert row.2) : IsInert (rowsText rows) := by
  rw [rowsText]
  split
  · rfl
  · refine isInert_intercalate (by rfl) fun text member => ?_
    obtain ⟨row, among, rfl⟩ := List.mem_map.1 member
    obtain ⟨nameInert, stateInert⟩ := inert row among
    rw [rowText]
    split
    · exact nameInert
    · exact ((nameInert.append (by rfl)).append stateInert).append (by rfl)

theorem IsInertStep.stepText {step : Step} (inert : IsInertStep step) (place : Nat) :
    IsInert (stepText (step, place)) := by
  have action : IsInert (actionText step.action) := by
    cases acted : step.action with
    | spawn target => exact IsInert.append (by rfl) ((inert.target target acted).getD (by rfl))
    | run command => exact IsInert.append (by rfl) ((inert.command command acted).getD (by rfl))
  have label : IsInert (labelText step.label) := by
    rw [labelText]
    cases given : step.label.given? with
    | none => rfl
    | some text => exact (IsInert.append (by rfl) (inert.label text given)).append (by rfl)
  have env : IsInert (variablesText step.env) := by
    rw [variablesText]
    split
    · rfl
    · exact (IsInert.append (by rfl) (inert.env.envPairs (by rfl))).append (by rfl)
  exact ((IsInert.append (by rfl) (isInert_number _)).append (by rfl)).append
    ((action.append label).append env)

theorem IsInertTask.furtherLines (inert : IsInertTask task) {rows : List (String × String)}
    (rowsInert : ∀ row ∈ rows, IsInert row.1 ∧ IsInert row.2) {command : Option String}
    (commandInert : ∀ text, command = some text → IsInert text) :
    ∀ line ∈ furtherLines task rows command, IsInert line := by
  have env : IsInert (envLine task.env) := by
    rw [envLine]
    split
    · rfl
    · exact inert.env.envPairs (by rfl)
  have steps : ∀ line ∈ stepTexts task, IsInert line := by
    intro line member
    rw [stepTexts] at member
    split at member
    · rw [List.mem_singleton.1 member]
      rfl
    · obtain ⟨⟨step, place⟩, among, rfl⟩ := List.mem_map.1 member
      exact (inert.steps step (List.fst_mem_of_mem_zipIdx among)).stepText place
  have commands : ∀ line ∈ commandTexts command, IsInert line := by
    intro line member
    cases given : command with
    | none => simp [commandTexts, given] at member
    | some text =>
      simp only [commandTexts, given, List.mem_cons, List.not_mem_nil, or_false] at member
      rcases member with rfl | rfl | rfl
      · rfl
      · rfl
      · exact commandInert _ given
  intro line member
  simp only [View.furtherLines, List.mem_append, List.mem_cons, List.not_mem_nil,
    or_false] at member
  rcases member with ((rfl | rfl | rfl | rfl | rfl) | step) | command
  · exact IsInert.append (by rfl) (inert.condition.getD (by rfl))
  · exact IsInert.append (by rfl) env
  · exact IsInert.append (by rfl) (isInert_rowsText rowsInert)
  · rfl
  · rfl
  · exact steps line step
  · exact commands line command

theorem IsInertTask.bandLine (inert : IsInertTask task) : IsInert (bandLine task) :=
  ((isInert_bandText task).append (by rfl)).append (inert.description.getD (by rfl))

/-! ### Both ways -/

theorem exists_solid_bandText (task : Task) :
    ∃ character ∈ (bandText task).toList, isBlank character = false :=
  ⟨'[', by simp [bandText], rfl⟩

theorem exists_solid_bandLine (task : Task) :
    ∃ character ∈ (bandLine task).toList, isBlank character = false := by
  obtain ⟨character, member, solid⟩ := exists_solid_bandText task
  refine ⟨character, ?_, solid⟩
  rw [bandLine, String.append_assoc, String.toList_append]
  exact List.mem_append_left _ member

/-- But for blanks at its end, the title is the name and the line of the band. -/
theorem IsInertTask.stripEnd_title (inert : IsInertTask task) (textual : IsTextual task)
    {name : String} (named : task.name = .str name) {title : Styled}
    (titled : styledTitle task = .ok title) :
    stripEnd title.text = name ++ " " ++ stripEnd (View.bandLine task) := by
  have written : (.ok name : Except Fault String) = .ok (task.name.given?.getD "") := by
    rw [← text_eq_of_isText textual.name, named]
    rfl
  have before : IsInert (name ++ " ") := by
    rw [Except.ok.inj written]
    exact (inert.name.getD (by rfl)).append (by rfl)
  obtain ⟨other, also, reads⟩ := exists_styledTitle textual named
  obtain rfl := Except.ok.inj (titled.symm.trans also)
  rcases reads with reads | ⟨reads, behind⟩
  · rw [reads, (before.append inert.bandLine).withoutControls_eq,
      stripEnd_append (exists_solid_bandLine task)]
  · rw [reads, (before.append (isInert_bandText task)).withoutControls_eq, behind,
      stripEnd_append_blank, stripEnd_append (exists_solid_bandText task)]

/-- Where nothing in it would act on a terminal, a task in full reads the same in both ways: the
title is the first two lines with a blank between them, but for blanks at the end, and each text
behind it is the line at its place. -/
theorem styledDetail_reads_plainDetail (textual : IsTextual task) (inert : IsInertTask task)
    (rows : List (String × String)) (rowsInert : ∀ row ∈ rows, IsInert row.1 ∧ IsInert row.2)
    (command : Option String) (commandInert : ∀ text, command = some text → IsInert text) :
    ∃ first second rest title items,
      detailLines task (rows.map spawnedOf) command = .ok (first :: second :: rest) ∧
      plainDetail task (rows.map spawnedOf) command =
        .ok ("\n".intercalate (first :: second :: rest)) ∧
      styledDetail task (rows.map spawnedOf) command = .ok (.group (title :: items)) ∧
      items.map Styled.text = rest ∧
      stripEnd title.text = first ++ " " ++ second ∧
      task.name = .str first ∧ second = stripEnd (bandLine task) ∧
      rest = furtherLines task rows command := by
  obtain ⟨name, named⟩ := textual.name
  obtain ⟨title, titled, reads⟩ := exists_styledTitle textual named
  obtain ⟨line, lined, lineReads⟩ := exists_styledSpawned rows
  have lines := detailLines_eq textual named rows command
  refine ⟨name, stripEnd (bandLine task), furtherLines task rows command, title,
    furtherItems task line command, lines, ?_, styledDetail_eq textual titled lined command, ?_, ?_,
    named, rfl, rfl⟩
  · rw [plainDetail, lines]
    rfl
  · rw [map_text_furtherItems lineReads]
    exact (List.map_congr_left fun line member =>
      (inert.furtherLines rowsInert commandInert line member).withoutControls_eq).trans
        (List.map_id _)
  · exact inert.stripEnd_title textual named titled

/-- A task of a sample: its description ends in a blank, and its second step spawns a task. -/
def sampleTask : Task :=
  ⟨.str "ship", .str "fast ", some .release, .null, [("MODE", "a")],
    [⟨.run (.str "echo hi"), .str "greet", [("B", "1"), ("C", "2")]⟩,
      ⟨.spawn (.str "deploy"), .null, []⟩]⟩

/-- What it spawns: one task that is there, and one that is not. -/
def sampleRows : List (String × String) :=
  [("lint", "ok"), ("deploy", "missing")]

theorem isTextual_sampleTask : IsTextual sampleTask where
  name := ⟨_, rfl⟩
  description := .inr ⟨_, rfl⟩
  condition := .inl rfl
  steps := by
    intro step member
    simp only [sampleTask, List.mem_cons, List.not_mem_nil, or_false] at member
    rcases member with rfl | rfl
    · exact Step.isTextual_run (Value.isTextOrNull_str _) _ _
    · exact Step.isTextual_spawn Value.isTextOrNull_null _ _

theorem isInertValue_str {text : String} (inert : IsInert text) : IsInertValue (.str text) := by
  intro other given
  obtain ⟨same, -⟩ := Value.eq_str_of_given? given
  exact Value.str.inj same ▸ inert

theorem isInertTask_sampleTask : IsInertTask sampleTask where
  name := isInertValue_str (by rfl)
  description := isInertValue_str (by rfl)
  condition := by rintro text ⟨⟩
  env := by
    unfold IsInertEnv sampleTask
    decide
  steps := by
    intro step member
    simp only [sampleTask, List.mem_cons, List.not_mem_nil, or_false] at member
    rcases member with rfl | rfl
    · exact {
        label := isInertValue_str (by rfl)
        command := by
          rintro command ⟨⟩
          exact isInertValue_str (by rfl)
        target := by rintro target ⟨⟩
        env := by
          unfold IsInertEnv
          decide }
    · exact {
        label := by rintro text ⟨⟩
        command := by rintro command ⟨⟩
        target := by
          rintro target ⟨⟩
          exact isInertValue_str (by rfl)
        env := by rintro entry ⟨⟩ }

/-- It reads the same in both ways. -/
theorem sampleTask_reads :
    plainDetail sampleTask (sampleRows.map spawnedOf) (some "( true )") =
        .ok ("ship\n[release] fast\ncondition: -\nenv: MODE=a\nspawns: lint, deploy [missing]\n" ++
          "\nsteps:\n  1. exec: echo hi  [greet]  env(B=1 C=2)\n  2. spawn: deploy\n" ++
          "\ncommand:\n( true )") ∧
      ∃ first second rest title items,
        detailLines sampleTask (sampleRows.map spawnedOf) (some "( true )") =
          .ok (first :: second :: rest) ∧
        plainDetail sampleTask (sampleRows.map spawnedOf) (some "( true )") =
          .ok ("\n".intercalate (first :: second :: rest)) ∧
        styledDetail sampleTask (sampleRows.map spawnedOf) (some "( true )") =
          .ok (.group (title :: items)) ∧
        items.map Styled.text = rest ∧
        stripEnd title.text = first ++ " " ++ second ∧
        sampleTask.name = .str first ∧ second = stripEnd (bandLine sampleTask) ∧
        rest = furtherLines sampleTask sampleRows (some "( true )") := by
  refine ⟨by decide +kernel, styledDetail_reads_plainDetail isTextual_sampleTask
    isInertTask_sampleTask sampleRows (by decide) (some "( true )") ?_⟩
  rintro text ⟨⟩
  rfl

end Taskbook.View
