/-
Which renderings have a blank where a command should be.

What a rendering writes by itself is never blank: a group has its parentheses, a label its command,
and what does nothing has a name. So a place for a command can be blank only if the text that an
author wrote for it is. A blank command is taken for nothing and written so. A condition is written
as it is, if it counts as given, and a text counts as given if it is not empty.

Hence a rendering has a blank place exactly if it reaches a condition that is not empty but blank.
The group of such a condition is then blank as well.
-/

import Taskbook.Proofs.Rendering.Contents

namespace Taskbook

namespace Text

theorem isBlankText_append (first second : String) :
    isBlankText (first ++ second) = (isBlankText first && isBlankText second) := by
  simp [isBlankText]

end Text

namespace Shell

open Text

/-! ### Scripts without blank leaves -/

/-- A command with no blank in the place of a command: none of the commands in its text is blank,
and no script that stands in parentheses. -/
structure Command.IsFilled (command : Command) : Prop where
  places : ∀ part ∈ command.parts,
    part.IsIn command.print ∧ isBlankText part.command.print = false
  groups : ∀ body, .subshell body ∈ command.contents → isBlankText body.print = false

theorem isBlankText_grouped (text : String) : isBlankText (grouped text) = false := by
  have opens : isBlankText "( " = false := by decide
  rw [grouped, isBlankText_append, isBlankText_append, opens]
  rfl

/-- Only a leaf can be blank. -/
theorem Command.isBlankText_print {command : Command}
    (leaves : ∀ leaf, command = .leaf leaf → isBlankText leaf.print = false) :
    isBlankText command.print = false := by
  cases command with
  | leaf leaf => exact leaves leaf rfl
  | idle => decide
  | subshell body => exact isBlankText_grouped body.print

theorem Pipeline.isBlankText_print {pipeline : Pipeline}
    (filled : isBlankText pipeline.command.print = false) :
    isBlankText pipeline.print = false := by
  cases pipeline with
  | plain command => exact filled
  | negated command =>
    have negates : isBlankText "! " = false := by decide
    rw [print, isBlankText_append, negates, Bool.false_and]

/-- A row that joins something is not blank in any case. -/
theorem Row.isBlankText_print {row : Row}
    (filled : ∀ command ∈ row.commands, isBlankText command.print = false) :
    isBlankText row.print = false := by
  cases row with
  | single pipeline => exact Pipeline.isBlankText_print (filled _ (List.mem_singleton_self _))
  | both before last =>
    have joint : isBlankText " && " = false := by decide
    rw [print, isBlankText_append, isBlankText_append, joint, Bool.and_false, Bool.false_and]
  | either before last =>
    have joint : isBlankText " || " = false := by decide
    rw [print, isBlankText_append, isBlankText_append, joint, Bool.and_false, Bool.false_and]

/-- A command whose leaves are not blank has no blank in the place of a command. -/
theorem Command.isFilled_of_leaves {command : Command}
    (leaves : ∀ leaf, .leaf leaf ∈ command.contents → isBlankText leaf.print = false) :
    command.IsFilled := by
  have filled : ∀ inner ∈ command.contents, isBlankText inner.print = false := by
    intro inner inside
    exact isBlankText_print fun leaf same => leaves leaf (same ▸ inside)
  refine ⟨fun part member => ⟨isIn_print command part member,
    filled _ (List.mem_map_of_mem member)⟩, fun body inside => ?_⟩
  obtain ⟨bindings, row⟩ := body
  have row := Row.isBlankText_print fun inner member => filled inner
    (mem_contents_trans inside (mem_contents_of_mem_commands member (mem_contents_self inner)))
  rw [Script.print, isBlankText_append, row, Bool.and_false]

end Shell

namespace Registry

open Shell

/-! ### Renderings without blank conditions -/

/-- In a registry whose conditions are texts and whose steps run texts, a rendering has a blank in
the place of a command, or between parentheses, exactly if it reaches a condition that is not empty
but blank. -/
theorem render_isFilled_iff (registry : Registry) (runsTexts : registry.RunsTexts)
    (conditions : registry.HasTextualConditions) {name base : Value} {text : String}
    (rendered : (registry.render name base).result = .ok text) :
    ∃ key task command, registry.resolve name = .ok (some (key, task)) ∧
      (registry.taskCommand base task).result = .ok command ∧ command.print = text ∧
      (command.IsFilled ↔ ∀ legs last, Descent registry task legs last →
        ∀ condition, last.condition.given? = some condition →
          Text.isBlankText condition = false) := by
  obtain ⟨key, task, command, found, commanded, printed⟩ := render_eq_ok rendered
  refine ⟨key, task, command, found, commanded, printed, ?_⟩
  have known : registry.IsKnown task := ⟨_, mem_of_resolve found, rfl⟩
  constructor
  · intro isFilled legs last descent condition given
    have filled := isFilled.groups _ (condition_mem_contents commanded descent given)
    rwa [Command.alone, Script.print, Text.isBlankText_append] at filled
  · intro filled
    refine Command.isFilled_of_leaves fun leaf inside => ?_
    rcases (arises_of_mem_contents commanded _ inside).leaf_cases runsTexts conditions known with
      ⟨label, rfl⟩ | ⟨legs, last, source, descent, ⟨given, rfl⟩ | ⟨step, own, runs, rfl⟩⟩
    · have shows : Text.isBlankText "echo " = false := by decide
      rw [Leaf.print, Text.isBlankText_append, shows, Bool.false_and]
    · exact filled legs last descent source given
    · rw [Leaf.print]
      split
      · decide
      · rename_i notBlank
        simpa using notBlank

/-- A task of a sample with blank commands, one of them behind variables. -/
def spacedInner : Task :=
  ⟨.str "inner", .null, none, .str "date ", [("C", "")],
    [⟨.run (.str "\t "), .str "Wait", [("E", "own")]⟩, ⟨.run (.str ""), .null, []⟩]⟩

/-- The task of the sample that spawns it. Its condition is empty. -/
def spacedOuter : Task :=
  ⟨.str "outer", .null, none, .str "", [], [⟨.spawn (.str "inner"), .null, [("C", "x")]⟩]⟩

/-- The registry of the sample. -/
def spaced : Registry :=
  ⟨[], [("outer", spacedOuter), ("inner", spacedInner)]⟩

/-- The text that the sample is rendered to. -/
def spacedText : String :=
  "( ( ( ( export C=\"x\"; ! ( date  ) || ( ( echo Wait ) && ( export E=\"own\"; true ) && " ++
    "( true ) ) ) ) ) )"

/-- The sample is filled as `render_isFilled_iff` has it. -/
theorem spaced_isFilled_iff :
    (spaced.RunsTexts ∧ spaced.HasTextualConditions ∧
      (spaced.render (.str "outer") .null).result = .ok spacedText) ∧
    ∃ key task command, spaced.resolve (.str "outer") = .ok (some (key, task)) ∧
      (spaced.taskCommand .null task).result = .ok command ∧ command.print = spacedText ∧
      (command.IsFilled ↔ ∀ legs last, Descent spaced task legs last →
        ∀ condition, last.condition.given? = some condition →
          Text.isBlankText condition = false) := by
  have runsTexts : spaced.RunsTexts := by
    simp [RunsTexts, spaced, spacedOuter, spacedInner, Value.IsText]
  have conditions : spaced.HasTextualConditions := by
    simp [HasTextualConditions, spaced, spacedOuter, spacedInner, Value.IsTextOrNull, Value.IsText]
  have inner : Unfolds spaced .null [("C", "x")] [.str "outer", .str "inner"]
      spacedInner.steps _ :=
    .run rfl rfl rfl (.run rfl rfl rfl .done)
  have outer : Unfolds spaced .null [] [.str "outer"] spacedOuter.steps _ :=
    .spawn rfl rfl rfl rfl inner (frame_of_layer Env.layer_null rfl) .done
  have rendered : (spaced.render (.str "outer") .null).result = .ok spacedText := by
    rw [render_of_unfolds rfl outer (frame_of_layer Env.layer_null rfl)]
    exact congrArg Except.ok (by decide +kernel)
  exact ⟨⟨runsTexts, conditions, rendered⟩,
    render_isFilled_iff spaced runsTexts conditions rendered⟩

/-- A registry whose one condition is blank, but not empty. -/
def gaping : Registry :=
  ⟨[], [("a", ⟨.str "a", .null, none, .str "  ", [], []⟩)]⟩

/-- The condition has a group of its own, with nothing but blanks in it. -/
theorem not_isFilled_of_blank_condition : gaping.RunsTexts ∧ gaping.HasTextualConditions ∧
    (gaping.render (.str "a") .null).result = .ok "( ! (    ) || ( true ) )" ∧
    ∃ task command, gaping.resolve (.str "a") = .ok (some ("a", task)) ∧
      (gaping.taskCommand .null task).result = .ok command ∧
      command.print = "( ! (    ) || ( true ) )" ∧ ¬ command.IsFilled := by
  have runsTexts : gaping.RunsTexts := by
    simp [RunsTexts, gaping]
  have conditions : gaping.HasTextualConditions := by
    simp [HasTextualConditions, gaping, Value.IsTextOrNull, Value.IsText]
  have unfolds : Unfolds gaping .null [] [.str "a"] [] [] := .done
  have rendered : (gaping.render (.str "a") .null).result = .ok "( ! (    ) || ( true ) )" := by
    rw [render_of_unfolds rfl unfolds (frame_of_layer Env.layer_null rfl)]
    exact congrArg Except.ok (by decide +kernel)
  obtain ⟨key, task, command, found, commanded, printed⟩ := render_eq_ok rendered
  obtain ⟨rfl, rfl⟩ := Prod.mk.inj (Option.some.inj (Except.ok.inj found))
  refine ⟨runsTexts, conditions, rendered, _, command, rfl, commanded, printed,
    fun isFilled => ?_⟩
  have blank := isFilled.groups _ (condition_mem_contents commanded .here rfl)
  revert blank
  decide

end Registry

end Taskbook
