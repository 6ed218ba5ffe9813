/-
Whose text takes a parenthesis of a rendering.

A rendering puts the texts of the authors of its tasks between parentheses of its own, together with
the assignments of variables and with labels. Labels are quoted, whatever they are. Values are not,
but between double quotes only a double quote and a backslash could end them or hide their end. So
the groups of a rendering are closed where they end, if the texts are complete and none of them ends
in a comment.

A text that ends in a comment is complete, and runs by itself. In a rendering the parenthesis behind
it is part of the comment, and so is the rest of the line. Hence its group is not closed where it
ends: of complete texts, those that end in a comment are the only ones that must not be reached.
-/

import Taskbook.Proofs.Rendering.Contents
import Taskbook.Proofs.Shell.Closing

namespace Taskbook

open Shell

/-- The text that a step runs. -/
def Step.source? (step : Step) : Option String :=
  match step.action with
  | .run (.str text) => some text
  | _ => none

/-- The texts in a task that are written for the shell: its condition, and what its steps run. -/
def Task.sources (task : Task) : List String :=
  task.condition.given?.toList ++ task.steps.filterMap Step.source?

/-- An environment whose variables can be set, with values that can stand between double quotes. -/
def Env.IsQuotable (env : Env) : Prop :=
  ∀ entry ∈ env, isVariableName entry.1 = true ∧ isQuotable entry.2 = true

instance (env : Env) : Decidable env.IsQuotable :=
  inferInstanceAs (Decidable (∀ entry ∈ env, _))

theorem Task.given_mem_sources {task : Task} {text : String}
    (given : task.condition.given? = some text) : text ∈ task.sources :=
  List.mem_append_left _ (by rw [given]; exact List.mem_singleton_self _)

theorem Task.command_mem_sources {task : Task} {step : Step} (member : step ∈ task.steps)
    {text : String} (runs : step.action = .run (.str text)) : text ∈ task.sources :=
  List.mem_append_right _ (List.mem_filterMap.mpr ⟨step, member, by rw [Step.source?, runs]⟩)

/-- A text of a task is its condition, or a step runs it. -/
theorem Task.mem_sources {task : Task} {text : String} (member : text ∈ task.sources) :
    task.condition.given? = some text ∨
      ∃ step ∈ task.steps, step.action = .run (.str text) := by
  rcases List.mem_append.mp member with given | among
  · exact Or.inl (Option.mem_toList.mp given)
  · obtain ⟨step, stepMember, source⟩ := List.mem_filterMap.mp among
    refine Or.inr ⟨step, stepMember, ?_⟩
    unfold Step.source? at source
    split at source
    · rename_i written runs
      obtain rfl := Option.some.inj source
      exact runs
    · cases source

namespace Registry

variable {registry : Registry} {base : Value} {lowest : Env} {root : Task} {command : Command}

/-- A blank text has no comment. -/
theorem endsInComment_of_blank {text : String} (blank : Text.isBlankText text = true) :
    endsInComment text = false := by
  refine endsInComment_of_forall_ne fun character member => ?_
  rintro rfl
  have isBlank := List.all_eq_true.mp blank _ member
  revert isBlank
  decide

/-- What a rendering is made of settles, if the texts that it reaches do. -/
theorem isSettled_of_sources (runsTexts : registry.RunsTexts)
    (conditions : registry.HasTextualConditions) (layered : base.layer = .ok (Env.entries lowest))
    (lowestQuotable : lowest.IsQuotable) (quotable : ∀ env ∈ registry.environments, env.IsQuotable)
    (known : registry.IsKnown root)
    (commanded : (registry.taskCommand base root).result = .ok command)
    (settled : ∀ legs last, Descent registry root legs last → ∀ source ∈ last.sources,
      Settles source) : command.IsSettled where
  leaves := by
    intro leaf inside
    rcases (arises_of_mem_contents commanded _ inside).leaf_cases runsTexts conditions known with
      ⟨label, rfl⟩ | ⟨legs, last, source, descent, ⟨given, rfl⟩ | ⟨step, own, runs, rfl⟩⟩
    · have shows : Passes "echo " := rfl
      exact shows.settles_append ⟨.word, Or.inr rfl, scan?_word label 0⟩
    · exact settled legs last descent source (Task.given_mem_sources given)
    · rw [Leaf.print]
      split
      · exact ⟨.word, Or.inr rfl, rfl⟩
      · exact settled legs last descent source (Task.command_mem_sources own runs)
  exports := fun bindings body inside =>
    passes_printExports ((arises_of_mem_contents commanded _ inside).forall_exports
      (isVariableName · = true) (isQuotable · = true) layered known lowestQuotable quotable)

/-- Texts that have a subshell of their own in a rendering end in no comment, if all groups are
closed where they end. -/
theorem endsInComment_of_isClosed (isClosed : command.IsClosed) {bindings : List (String × String)}
    (exported : Passes (printExports bindings)) {leaf : Leaf}
    (inside : .subshell (.exports bindings (.single (.plain (.leaf leaf)))) ∈ command.contents)
    (complete : isComplete leaf.print = true) : endsInComment leaf.print = false := by
  obtain ⟨part, member, same⟩ := List.mem_map.mp inside
  rcases scan?_of_isComplete complete with ⟨-, uncommented⟩ | ⟨commented, -⟩
  · exact uncommented
  · exact absurd (isClosed.groups part member _ same).2 (not_isClosed_of_comment exported commented)

/-- In a registry whose texts for the shell are complete, and whose variables have values that can
stand between double quotes, a rendering is closed, with all of its groups, exactly if none of the
texts that it reaches ends in a comment. -/
theorem render_isClosed_iff (registry : Registry) (runsTexts : registry.RunsTexts)
    (conditions : registry.HasTextualConditions)
    (complete : ∀ entry ∈ registry.tasks, ∀ source ∈ entry.2.sources, isComplete source = true)
    (quotable : ∀ env ∈ registry.environments, env.IsQuotable) {base : Value} {lowest : Env}
    (layered : base.layer = .ok (Env.entries lowest)) (lowestQuotable : lowest.IsQuotable)
    {name : Value} {text : String} (rendered : (registry.render name base).result = .ok text) :
    ∃ key task command, registry.resolve name = .ok (some (key, task)) ∧
      (registry.taskCommand base task).result = .ok command ∧ command.print = text ∧
      (command.IsClosed ↔ ∀ legs last, Descent registry task legs last →
        ∀ source ∈ last.sources, endsInComment source = false) := by
  obtain ⟨key, task, command, found, commanded, printed⟩ := render_eq_ok rendered
  refine ⟨key, task, command, found, commanded, printed, ?_⟩
  have known : registry.IsKnown task := ⟨_, mem_of_resolve found, rfl⟩
  have reached {legs : List Leg} {last : Task} (descent : Descent registry task legs last) :
      ∀ source ∈ last.sources, isComplete source = true := by
    obtain ⟨entry, member, rfl⟩ := (descent.isKnown known).1
    exact complete entry member
  constructor
  · intro isClosed legs last descent source member
    have sourceComplete := reached descent source member
    rcases Task.mem_sources member with given | ⟨step, stepMember, runs⟩
    · have exported : Passes (printExports []) := rfl
      exact endsInComment_of_isClosed isClosed exported
        (condition_mem_contents commanded descent given) sourceComplete
    · by_cases blank : Text.isBlankText source = true
      · exact endsInComment_of_blank blank
      · obtain ⟨lastKnown, -⟩ := descent.isKnown known
        have exported := passes_printExports
          (quotable _ (lastKnown.step_env_mem_environments stepMember))
        have inside := command_mem_contents commanded descent stepMember runs
        rw [if_neg blank] at inside
        exact endsInComment_of_isClosed isClosed exported inside sourceComplete
  · intro uncommented
    have settled : ∀ legs last, Descent registry task legs last → ∀ source ∈ last.sources,
        Settles source := by
      intro legs last descent source member
      rcases scan?_of_isComplete (reached descent source member) with ⟨settles, -⟩ | ⟨-, commented⟩
      · exact settles
      · rw [uncommented legs last descent source member] at commented
        cases commented
    have isSettled := isSettled_of_sources runsTexts conditions layered lowestQuotable quotable
      known commanded settled
    obtain ⟨fragments, -, framed⟩ := taskCommand_eq_ok commanded
    obtain ⟨body, exported, -, -, rfl⟩ := frame_eq_ok framed
    exact isSettled.isClosed

/-- A task of a sample. Its texts have parentheses that do not count, and a comment that ends before
the text does. -/
def quotedInner : Task :=
  ⟨.str "inner", .null, none, .str "test -f 'a)b'", [("C", "$(date) #")],
    [⟨.run (.str "echo \")\" # note )\nls \\("), .str "it's (", [("E", "own")]⟩]⟩

/-- The task of the sample that spawns it. -/
def quotedOuter : Task :=
  ⟨.str "outer", .null, none, .null, [],
    [⟨.run (.str "  "), .null, []⟩, ⟨.spawn (.str "inner"), .str "Go", [("C", "a;b")]⟩]⟩

/-- The registry of the sample. -/
def quoted : Registry :=
  ⟨[("A", "#")], [("outer", quotedOuter), ("inner", quotedInner)]⟩

/-- The text that the sample is rendered to. -/
def quotedText : String :=
  "( export A=\"#\"; ( true ) && ( echo Go ) && ( ( ( export A=\"#\"; export C=\"a;b\"; " ++
    "! ( test -f 'a)b' ) || ( ( echo 'it'\"'\"'s (' ) && " ++
    "( export E=\"own\"; echo \")\" # note )\nls \\( ) ) ) ) ) )"

/-- The sample is closed as `render_isClosed_iff` has it. -/
theorem quoted_isClosed_iff :
    (quoted.RunsTexts ∧ quoted.HasTextualConditions ∧
      (∀ entry ∈ quoted.tasks, ∀ source ∈ entry.2.sources, isComplete source = true) ∧
      (∀ env ∈ quoted.environments, env.IsQuotable) ∧
      Value.null.layer = .ok (Env.entries []) ∧ Env.IsQuotable [] ∧
      (quoted.render (.str "outer") .null).result = .ok quotedText) ∧
    ∃ key task command, quoted.resolve (.str "outer") = .ok (some (key, task)) ∧
      (quoted.taskCommand .null task).result = .ok command ∧ command.print = quotedText ∧
      (command.IsClosed ↔ ∀ legs last, Descent quoted task legs last →
        ∀ source ∈ last.sources, endsInComment source = false) := by
  have runsTexts : quoted.RunsTexts := by
    simp [RunsTexts, quoted, quotedOuter, quotedInner, Value.IsText]
  have conditions : quoted.HasTextualConditions := by
    simp [HasTextualConditions, quoted, quotedOuter, quotedInner, Value.IsTextOrNull, Value.IsText]
  have complete : ∀ entry ∈ quoted.tasks, ∀ source ∈ entry.2.sources,
      isComplete source = true := by
    decide
  have quotable : ∀ env ∈ quoted.environments, env.IsQuotable := by
    decide
  have noneQuotable : Env.IsQuotable [] := by
    decide
  have inner : Unfolds quoted .null [("C", "a;b")] [.str "outer", .str "inner"]
      quotedInner.steps _ :=
    .run rfl rfl rfl .done
  have outer : Unfolds quoted .null [] [.str "outer"] quotedOuter.steps _ :=
    .run rfl rfl rfl (.spawn rfl rfl rfl rfl inner (frame_of_layer Env.layer_null rfl) .done)
  have rendered : (quoted.render (.str "outer") .null).result = .ok quotedText := by
    rw [render_of_unfolds rfl outer (frame_of_layer Env.layer_null rfl)]
    rfl
  exact ⟨⟨runsTexts, conditions, complete, quotable, rfl, noneQuotable, rendered⟩,
    render_isClosed_iff quoted runsTexts conditions complete quotable rfl noneQuotable rendered⟩

/-- A registry whose one command ends in a comment. -/
def annotated : Registry :=
  ⟨[], [("a", ⟨.str "a", .null, none, .null, [], [⟨.run (.str "echo hi # note"), .null, []⟩]⟩)]⟩

/-- All texts of the registry are complete. What it is rendered to is not, and its first parenthesis
is never closed. -/
theorem not_isComplete_of_comment :
    annotated.RunsTexts ∧ annotated.HasTextualConditions ∧
      (∀ entry ∈ annotated.tasks, ∀ source ∈ entry.2.sources, isComplete source = true) ∧
      (∀ env ∈ annotated.environments, env.IsQuotable) ∧
      (annotated.render (.str "a") .null).result = .ok "( ( echo hi # note ) )" ∧
      isComplete "( ( echo hi # note ) )" = false ∧
      Lexer.initial.behind? " ( echo hi # note ) )".toList = none := by
  have runsTexts : annotated.RunsTexts := by
    simp [RunsTexts, annotated, Value.IsText]
  have conditions : annotated.HasTextualConditions := by
    simp [HasTextualConditions, annotated, Value.IsTextOrNull]
  have unfolds : Unfolds annotated .null [] [.str "a"]
      [⟨.run (.str "echo hi # note"), .null, []⟩] _ :=
    .run rfl rfl rfl .done
  have rendered : (annotated.render (.str "a") .null).result = .ok "( ( echo hi # note ) )" := by
    rw [render_of_unfolds rfl unfolds (frame_of_layer Env.layer_null rfl)]
    exact congrArg Except.ok (by decide +kernel)
  exact ⟨runsTexts, conditions, by decide, by decide, rendered, by decide, by decide⟩

end Registry

end Taskbook
