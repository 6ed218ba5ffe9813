/-
The commands that a command contains, and where they stand in its text.

A subshell contains the commands of its row, and all that these contain. The text of a command is
made of the texts of what it contains: each stands between what is before it and what is behind it,
down to the texts that the author of a task wrote.

The types of scripts are mutual, but a proof about commands needs an induction hypothesis for the
commands of a row only. `Command.induction` is the induction of this form. What it asks of rows is
proved by recursion on the row alone.
-/

import Taskbook.Proofs.Shell.Enclosure

namespace Taskbook.Shell

/-! ### Induction -/

/-- What holds of a subshell wherever it holds of the commands of its row, and of all other
commands, holds of every command. -/
@[elab_as_elim]
theorem Command.induction {motive : Command → Prop} (leaf : ∀ leaf, motive (.leaf leaf))
    (idle : motive .idle)
    (subshell : ∀ bindings body, (∀ command ∈ Row.commands body, motive command) →
      motive (.subshell (.exports bindings body))) (command : Command) : motive command :=
  ofCommand command
where
  ofCommand : ∀ command : Command, motive command
    | .leaf last => leaf last
    | .idle => idle
    | .subshell (.exports bindings body) => subshell bindings body (ofRow body)
  ofPipeline : ∀ pipeline : Pipeline, motive pipeline.command
    | .plain command => ofCommand command
    | .negated command => ofCommand command
  ofRow : ∀ (row : Row), ∀ command ∈ row.commands, motive command
    | .single pipeline, command, member => by
      obtain rfl := List.mem_singleton.mp member
      exact ofPipeline pipeline
    | .both before last, command, member => by
      rcases List.mem_append.mp member with inBefore | inLast
      · exact ofRow before command inBefore
      · obtain rfl := List.mem_singleton.mp inLast
        exact ofPipeline last
    | .either before last, command, member => by
      rcases List.mem_append.mp member with inBefore | inLast
      · exact ofRow before command inBefore
      · obtain rfl := List.mem_singleton.mp inLast
        exact ofPipeline last

/-! ### Parts and their places -/

/-- A command that stands in a text, with what is before it and behind it. -/
structure Part where
  before : String
  command : Command
  behind : String

/-- A part of a text that is put between two others. -/
def Part.within (before behind : String) (part : Part) : Part :=
  ⟨before ++ part.before, part.command, part.behind ++ behind⟩

/-- The parts of two texts that are joined to one. -/
def joinParts (joint : String) (before last : List Part) (beforeText lastText : String) :
    List Part :=
  before.map (Part.within "" (joint ++ lastText)) ++
    last.map (Part.within (beforeText ++ joint) "")

mutual

/-- The commands in the text of a command, from the outside inwards and from left to right. The
first one is the command itself. -/
def Command.parts : Command → List Part
  | .leaf leaf => [⟨"", .leaf leaf, ""⟩]
  | .idle => [⟨"", .idle, ""⟩]
  | .subshell body => ⟨"", .subshell body, ""⟩ :: body.parts.map (Part.within "( " " )")

/-- The commands in the text of a pipeline. -/
def Pipeline.parts : Pipeline → List Part
  | .plain command => command.parts
  | .negated command => command.parts.map (Part.within "! " "")

/-- The commands in the text of a row. -/
def Row.parts : Row → List Part
  | .single pipeline => pipeline.parts
  | .both before last => joinParts " && " before.parts last.parts before.print last.print
  | .either before last => joinParts " || " before.parts last.parts before.print last.print

/-- The commands in the text of a script. -/
def Script.parts : Script → List Part
  | .exports bindings body => body.parts.map (Part.within (printExports bindings) "")

end

/-- Whether a text is made of a part, what is before it and what is behind it. -/
def Part.IsIn (part : Part) (text : String) : Prop :=
  part.before ++ part.command.print ++ part.behind = text

theorem Part.IsIn.within {part : Part} {text : String} (isIn : part.IsIn text)
    (before behind : String) : (part.within before behind).IsIn (before ++ text ++ behind) := by
  unfold IsIn at isIn ⊢
  rw [← isIn]
  simp only [Part.within, String.append_assoc]

theorem isIn_of_mem_within {parts : List Part} {text before behind : String}
    (all : ∀ part ∈ parts, part.IsIn text) {part : Part}
    (member : part ∈ parts.map (Part.within before behind)) :
    part.IsIn (before ++ text ++ behind) := by
  obtain ⟨inner, innerMember, rfl⟩ := List.mem_map.mp member
  exact (all inner innerMember).within before behind

theorem isIn_of_mem_joinParts {joint beforeText lastText : String} {before last : List Part}
    (inBefore : ∀ part ∈ before, part.IsIn beforeText) (inLast : ∀ part ∈ last, part.IsIn lastText)
    {part : Part} (member : part ∈ joinParts joint before last beforeText lastText) :
    part.IsIn (beforeText ++ joint ++ lastText) := by
  rcases List.mem_append.mp member with ofBefore | ofLast
  · have located := isIn_of_mem_within inBefore ofBefore
    simpa [String.append_assoc] using located
  · have located := isIn_of_mem_within inLast ofLast
    simpa using located

theorem Pipeline.isIn_print {pipeline : Pipeline}
    (each : ∀ part ∈ pipeline.command.parts, part.IsIn pipeline.command.print) :
    ∀ part ∈ pipeline.parts, part.IsIn pipeline.print := by
  intro part member
  cases pipeline with
  | plain command => exact each part member
  | negated command =>
    have located := isIn_of_mem_within each member
    simpa [print, Pipeline.command] using located

/-- The parts of a row stand in its text, if those of its commands stand in theirs. -/
theorem Row.isIn_print : ∀ row : Row,
    (∀ command ∈ row.commands, ∀ part ∈ command.parts, part.IsIn command.print) →
    ∀ part ∈ row.parts, part.IsIn row.print
  | .single _, each, part, member =>
    Pipeline.isIn_print (each _ (List.mem_singleton_self _)) part member
  | .both before _, each, _, member =>
    isIn_of_mem_joinParts
      (before.isIn_print fun command inside => each command (List.mem_append_left _ inside))
      (Pipeline.isIn_print (each _ (List.mem_append_right _ (List.mem_singleton_self _)))) member
  | .either before _, each, _, member =>
    isIn_of_mem_joinParts
      (before.isIn_print fun command inside => each command (List.mem_append_left _ inside))
      (Pipeline.isIn_print (each _ (List.mem_append_right _ (List.mem_singleton_self _)))) member

/-- Each part of a command stands in its text. -/
theorem Command.isIn_print (command : Command) :
    ∀ part ∈ command.parts, part.IsIn command.print := by
  induction command using Command.induction with
  | leaf leaf =>
    intro part member
    obtain rfl := List.mem_singleton.mp member
    simp [Part.IsIn]
  | idle =>
    intro part member
    obtain rfl := List.mem_singleton.mp member
    simp [Part.IsIn]
  | subshell bindings body inductionHypothesis =>
    intro part member
    rcases List.mem_cons.mp member with rfl | inside
    · simp [Part.IsIn]
    · have inScript : ∀ inner ∈ (Script.exports bindings body).parts,
          inner.IsIn (Script.exports bindings body).print := by
        intro inner innerMember
        have located := isIn_of_mem_within (body.isIn_print inductionHypothesis) innerMember
        simpa [Script.print] using located
      exact isIn_of_mem_within inScript inside

/-! ### Contents -/

/-- The commands that a command contains, wherever they stand. The first one is itself. -/
def Command.contents (command : Command) : List Command :=
  command.parts.map Part.command

@[simp]
theorem map_command_within (parts : List Part) (before behind : String) :
    (parts.map (Part.within before behind)).map Part.command = parts.map Part.command := by
  rw [List.map_map]
  rfl

@[simp]
theorem map_command_joinParts (joint : String) (before last : List Part)
    (beforeText lastText : String) :
    (joinParts joint before last beforeText lastText).map Part.command =
      before.map Part.command ++ last.map Part.command := by
  rw [joinParts, List.map_append, map_command_within, map_command_within]

theorem Pipeline.map_command_parts (pipeline : Pipeline) :
    pipeline.parts.map Part.command = pipeline.command.contents := by
  cases pipeline with
  | plain command => rfl
  | negated command => exact map_command_within _ _ _

theorem Row.map_command_parts :
    ∀ row : Row, row.parts.map Part.command = row.commands.flatMap Command.contents
  | .single pipeline => by
    rw [parts, commands, pipeline.map_command_parts, List.flatMap_singleton]
  | .both before last => by
    rw [parts, commands, map_command_joinParts, map_command_parts before, last.map_command_parts,
      List.flatMap_append, List.flatMap_singleton]
  | .either before last => by
    rw [parts, commands, map_command_joinParts, map_command_parts before, last.map_command_parts,
      List.flatMap_append, List.flatMap_singleton]

/-- A subshell contains itself and what the commands of its row contain. -/
theorem Command.contents_subshell (bindings : List (String × String)) (body : Row) :
    (Command.subshell (.exports bindings body)).contents =
      .subshell (.exports bindings body) :: body.commands.flatMap contents := by
  rw [contents, parts, Script.parts, List.map_cons, map_command_within, map_command_within,
    Row.map_command_parts]

theorem Command.mem_contents_self (command : Command) : command ∈ command.contents := by
  cases command with
  | leaf leaf => exact List.mem_singleton_self _
  | idle => exact List.mem_singleton_self _
  | subshell body => exact List.mem_cons_self

/-- What a command of the row of a subshell contains, the subshell contains. -/
theorem Command.mem_contents_of_mem_commands {bindings : List (String × String)} {body : Row}
    {command inner : Command} (member : command ∈ body.commands)
    (inside : inner ∈ command.contents) :
    inner ∈ (Command.subshell (.exports bindings body)).contents := by
  rw [contents_subshell]
  exact List.mem_cons_of_mem _ (List.mem_flatMap_of_mem member inside)

/-- What is contained in something that a command contains, the command contains. -/
theorem Command.mem_contents_trans {command inner innermost : Command}
    (inside : inner ∈ command.contents) (further : innermost ∈ inner.contents) :
    innermost ∈ command.contents := by
  induction command using Command.induction with
  | leaf leaf =>
    obtain rfl := List.mem_singleton.mp inside
    exact further
  | idle =>
    obtain rfl := List.mem_singleton.mp inside
    exact further
  | subshell bindings body inductionHypothesis =>
    rw [contents_subshell] at inside
    rcases List.mem_cons.mp inside with rfl | inside
    · exact further
    · obtain ⟨outer, member, inside⟩ := List.mem_flatMap.mp inside
      exact mem_contents_of_mem_commands member (inductionHypothesis outer member inside)

end Taskbook.Shell
