/-
Which value a command of a task sees for a variable.

A command is reached from the task that is rendered by steps that spawn, one leg after the
other. Each task on the way has a subshell that sets all four layers again, so that a value
may be hidden on one level and come back on the next. What remains is this: the command's
own variables are the highest, then those of the steps on the way, the last one first. Both
are above the variables of the task that the command is in, and these are above the
registry's and the base. The variables of the tasks further up are still there, below
everything else, for what none of these sets.

The induction is on the legs. At each level, what the levels below leave open is what the
overlay, the registry and the base leave open, and so only the variables of the task itself
can be seen through.
-/

import Taskbook.Proofs.Environment
import Taskbook.Proofs.Rendering.Unfolding
import Taskbook.Proofs.Shell.Enclosure

namespace Taskbook.Registry

open Shell

/-! ### The way to a command -/

/-- One leg of the way to a command: a step that spawns, by its number in its task, and the task
that it spawns. -/
structure Leg where
  index : Nat
  step : Step
  task : Task

/-- Legs that lead from one task to another. -/
inductive Descent (registry : Registry) : Task → List Leg → Task → Prop
  | here {task : Task} : Descent registry task [] task
  | down {task last : Task} {leg : Leg} {legs : List Leg} {target : Value} {name : String}
      (there : task.steps[leg.index]? = some leg.step)
      (spawns : leg.step.action = .spawn target)
      (found : registry.resolve target = .ok (some (name, leg.task)))
      (further : Descent registry leg.task legs last) :
      Descent registry task (leg :: legs) last

/-- The place of the script of a step in the command of its task. A condition has the first
place, and then all scripts are in a subshell behind it. -/
def place (task : Task) (index : Nat) : List Nat :=
  (if task.condition.isTruthy then [1] else []) ++ [position task.steps index]

/-- The place of a command, at the end of some legs, in the command of the task they start from.
Where a task is spawned, its command is grouped twice. -/
def placeAlong : Task → List Leg → Nat → List Nat
  | task, [], index => place task index ++ [0]
  | task, leg :: legs, index => place task leg.index ++ 0 :: 0 :: placeAlong leg.task legs index

/-- The variables that the subshell of a task sets. -/
def exported (registry : Registry) (lowest overlay : Env) (task : Task) : Env :=
  Ordered.mergeAll [lowest, registry.env, task.env, overlay]

/-- The variables that the subshells of the tasks along some legs set, from the outermost
inwards. -/
def exportedAlong (registry : Registry) (lowest : Env) : Env → Task → List Leg → Env
  | overlay, task, [] => registry.exported lowest overlay task
  | overlay, task, leg :: legs =>
    registry.exported lowest overlay task ++
      exportedAlong registry lowest (Ordered.merge overlay leg.step.env) leg.task legs

/-- The value of a variable in the last of some environments that has it. -/
def deepest? : List Env → String → Option String
  | [], _ => none
  | env :: rest, name => (deepest? rest name).or (Ordered.last? env name)

variable {registry : Registry} {base : Value} {lowest overlay : Env} {path : List Value}

/-! ### Values along the way -/

/-- One subshell sets the layers in their order. -/
theorem last?_exported (task : Task) (name : String) :
    Ordered.last? (registry.exported lowest overlay task) name =
      (Ordered.last? overlay name).or ((Ordered.last? task.env name).or
        ((Ordered.last? registry.env name).or (Ordered.last? lowest name))) := by
  rw [exported, Ordered.last?_mergeAll]
  simp only [List.flatten_cons, List.flatten_nil, List.append_nil, Ordered.last?_append,
    Option.or_assoc]

/-- Of the layers that are set once more outside, only one that is nowhere inside can be seen. -/
theorem or_of_outside {Text : Type} (spawning overlay own shared lowest above outside : Option Text) :
    (spawning.or (overlay.or (own.or (shared.or (lowest.or above))))).or
        (overlay.or (outside.or (shared.or lowest))) =
      spawning.or (overlay.or (own.or (shared.or (lowest.or (above.or outside))))) := by
  cases spawning with
  | some text => rfl
  | none =>
    cases overlay with
    | some text => rfl
    | none =>
      cases own with
      | some text => rfl
      | none =>
        cases shared with
        | some text => rfl
        | none =>
          cases lowest with
          | some text => rfl
          | none => simp

/-- What all subshells on the way leave a variable at: the overlay above the task at the end,
this above the registry and the base, and those above the tasks on the way. -/
theorem last?_exportedAlong {task last : Task} {legs : List Leg}
    (descent : Descent registry task legs last) (distinct : (Ordered.keys overlay).Nodup)
    (name : String) :
    Ordered.last? (registry.exportedAlong lowest overlay task legs) name =
      (deepest? (legs.map fun leg => leg.step.env) name).or ((Ordered.last? overlay name).or
        ((Ordered.last? last.env name).or ((Ordered.last? registry.env name).or
          ((Ordered.last? lowest name).or
            (deepest? ((task :: legs.map Leg.task).dropLast.map Task.env) name))))) := by
  induction descent generalizing overlay with
  | here =>
    rw [exportedAlong, last?_exported]
    simp [deepest?]
  | @down task last leg legs target key there spawns found further inductionHypothesis =>
    have below := inductionHypothesis (Ordered.nodup_merge distinct leg.step.env)
    have both := or_of_outside
      ((deepest? (legs.map fun leg => leg.step.env) name).or (Ordered.last? leg.step.env name))
      (Ordered.last? overlay name) (Ordered.last? last.env name)
      (Ordered.last? registry.env name) (Ordered.last? lowest name)
      (deepest? ((leg.task :: legs.map Leg.task).dropLast.map Task.env) name)
      (Ordered.last? task.env name)
    rw [exportedAlong, Ordered.last?_append, below, last?_exported, Ordered.last?_merge distinct,
      Ordered.last?_append]
    simp only [List.map_cons, List.dropLast_cons_cons, deepest?, Option.or_assoc] at both ⊢
    exact both

/-! ### The command at the end of the way -/

/-- A row with or without a condition in front of it. -/
theorem gated_eq_ok {condition : Value} {steps body : Row}
    (gate : gated condition steps = .ok body) :
    (condition.isTruthy = true ∧ ∃ text, condition.text = .ok text ∧ body = Row.gate text steps) ∨
      condition.isTruthy = false ∧ body = steps := by
  unfold gated at gate
  split at gate
  · rename_i given
    obtain ⟨text, worded, same⟩ := bind_eq_ok.mp gate
    exact Or.inl ⟨given, text, worded, (Except.ok.inj same).symm⟩
  · rename_i missing
    exact Or.inr ⟨by simpa using missing, (Except.ok.inj gate).symm⟩

/-- Around what is in the script of a step are the variables of its task. -/
theorem frame_enclosed? (layered : base.layer = .ok (Env.entries lowest)) {task : Task}
    {fragments : List Script} {command : Command}
    (framed : registry.frame base overlay task fragments = .ok command) {index : Nat}
    {fragment : Script} (there : fragments[position task.steps index]? = some fragment)
    (rest : List Nat) :
    command.enclosed? (place task index ++ rest) =
      ((Command.subshell fragment).enclosed? rest).map
        (Enclosed.within (registry.exported lowest overlay task)) := by
  rw [frame, bindings_eq_mergeAll layered] at framed
  obtain ⟨body, gate, same⟩ := bind_eq_ok.mp framed
  obtain rfl := Except.ok.inj same
  have inChain : (Row.chain (fragments.map .subshell)).commands[position task.steps index]? =
      some (.subshell fragment) :=
    Row.commands_chain_getElem? (by rw [List.getElem?_map, there, Option.map_some])
  rw [place]
  rcases gated_eq_ok gate with ⟨given, text, -, rfl⟩ | ⟨missing, rfl⟩
  · rw [if_pos given, List.append_assoc, List.singleton_append, List.singleton_append,
      Command.enclosed?_subshell (Row.commands_gate _ _), Command.enclosed?_subshell inChain]
    simp [exported]
  · rw [missing, if_neg Bool.false_ne_true, List.nil_append, List.singleton_append,
      Command.enclosed?_subshell inChain]
    rfl

/-- Where some legs lead to a command, it is at its place, and around it are the variables of
the tasks on the way and its own. -/
theorem enclosed?_placeAlong (layered : base.layer = .ok (Env.entries lowest))
    {task last : Task} {legs : List Leg} (descent : Descent registry task legs last)
    {index : Nat} {step : Step} (there : last.steps[index]? = some step) {source : Value}
    (runs : step.action = .run source) {fragments : List Script} {command : Command}
    (unfolds : Unfolds registry base overlay path task.steps fragments)
    (framed : registry.frame base overlay task fragments = .ok command) :
    ∃ text, commandText source step.env = .ok text ∧
      command.enclosed? (placeAlong task legs index) =
        some ⟨registry.exportedAlong lowest overlay task legs ++ step.env, .command text⟩ := by
  induction descent generalizing overlay path fragments command with
  | here =>
    obtain ⟨fragment, located, stepUnfolds⟩ := unfolds.getElem? there
    cases stepUnfolds with
    | spawn spawns found fresh inside framed =>
      rw [runs] at spawns
      cases spawns
    | @run other text runsHere worded =>
      rw [runs] at runsHere
      obtain rfl := Action.run.inj runsHere
      refine ⟨text, worded, ?_⟩
      rw [placeAlong, frame_enclosed? layered framed located, exportedAlong]
      simp [commandScript, Command.enclosed?, Row.commands, Pipeline.command, Enclosed.within]
  | @down task last leg legs target name legThere spawns found further inductionHypothesis =>
    obtain ⟨fragment, located, stepUnfolds⟩ := unfolds.getElem? legThere
    cases stepUnfolds with
    | run runsHere worded =>
      rw [spawns] at runsHere
      cases runsHere
    | @spawn other key spawned inner below spawnsHere foundHere fresh inside framedBelow =>
      rw [spawns] at spawnsHere
      obtain rfl := Action.spawn.inj spawnsHere
      rw [found] at foundHere
      obtain ⟨rfl, rfl⟩ := Prod.mk.inj (Option.some.inj (Except.ok.inj foundHere))
      obtain ⟨text, worded, enclosed⟩ := inductionHypothesis there inside framedBelow
      refine ⟨text, worded, ?_⟩
      have grouped : Command.subshell below.inSubshell.alone = below.inSubshell.inSubshell := rfl
      rw [placeAlong, frame_enclosed? layered framed located, grouped,
        Command.enclosed?_inSubshell, Command.enclosed?_inSubshell, enclosed, exportedAlong,
        Option.map_some, Enclosed.within, List.append_assoc]

/-! ### The value that a command sees -/

/-- In a rendering over a base of texts, a command that legs lead to is enclosed by the variables
of the tasks on the way and its own, and by no others. A variable has the value of the step if
the step sets it; else of the last leg that sets it; else of the task the step is in, of the
registry, or of the base; else of the last task before that sets it. -/
theorem last?_enclosed (registry : Registry) {base : Value} {lowest : Env}
    (layered : base.layer = .ok (Env.entries lowest)) {name : Value} {text : String}
    (rendered : (registry.render name base).result = .ok text) {key : String} {task : Task}
    (found : registry.resolve name = .ok (some (key, task))) {legs : List Leg} {last : Task}
    (descent : Descent registry task legs last) {index : Nat} {step : Step}
    (there : last.steps[index]? = some step) {source : Value}
    (runs : step.action = .run source) :
    ∃ command enclosed inline,
      (registry.taskCommand base task).result = .ok command ∧ command.print = text ∧
      command.enclosed? (placeAlong task legs index) = some enclosed ∧
      commandText source step.env = .ok inline ∧ enclosed.leaf = .command inline ∧
      enclosed.exported = registry.exportedAlong lowest [] task legs ++ step.env ∧
      ∀ asked : String, Ordered.last? enclosed.exported asked =
        (Ordered.last? step.env asked).or
          ((deepest? (legs.map fun leg => leg.step.env) asked).or
            ((Ordered.last? last.env asked).or
              ((Ordered.last? registry.env asked).or
                ((Ordered.last? lowest asked).or
                  (deepest? ((task :: legs.map Leg.task).dropLast.map Task.env) asked))))) := by
  rw [render_of_resolve found] at rendered
  obtain ⟨command, commanded, printed⟩ := map_eq_ok.mp rendered
  obtain ⟨fragments, unfolds, framed⟩ := taskCommand_eq_ok commanded
  obtain ⟨inline, worded, enclosed⟩ :=
    enclosed?_placeAlong layered descent there runs unfolds framed
  refine ⟨command, _, inline, commanded, printed, enclosed, worded, rfl, rfl, fun asked => ?_⟩
  have start : (Ordered.keys ([] : Env)).Nodup := List.nodup_nil
  rw [Ordered.last?_append, last?_exportedAlong descent start, Ordered.last?_nil,
    Option.none_or]

/-- The command that a task runs at the end of two legs of a sample. -/
def nestedStep : Step :=
  ⟨.run (.str "env"), .str "Show", [("E", "own")]⟩

/-- The task at the end of the two legs. -/
def nestedInner : Task :=
  ⟨.str "inner", .null, none, .null, [("C", "inner")], [nestedStep]⟩

/-- The task between the two legs. -/
def nestedMiddle : Task :=
  ⟨.str "middle", .null, none, .str "test -f x", [("D", "middle")],
    [⟨.spawn (.str "inner"), .null, [("C", "second")]⟩]⟩

/-- The task that the two legs start from. -/
def nestedOuter : Task :=
  ⟨.str "outer", .null, none, .null, [("A", "outer"), ("B", "outer")],
    [⟨.run (.str "date"), .str "Start", [("C", "sibling")]⟩,
      ⟨.spawn (.str "middle"), .str "Go", [("C", "first"), ("D", "first")]⟩]⟩

/-- The registry of the sample. The layers on the way set some variables in common. -/
def nested : Registry :=
  ⟨[("A", "shared")],
    [("outer", nestedOuter), ("middle", nestedMiddle), ("inner", nestedInner)]⟩

/-- The legs to the command of the sample. -/
def nestedLegs : List Leg :=
  [⟨1, ⟨.spawn (.str "middle"), .str "Go", [("C", "first"), ("D", "first")]⟩, nestedMiddle⟩,
    ⟨0, ⟨.spawn (.str "inner"), .null, [("C", "second")]⟩, nestedInner⟩]

/-- The text of the command that the first task of the sample is rendered to. -/
def nestedText : String :=
  "( export F=\"base\"; export A=\"outer\"; export B=\"outer\"; ( echo Start ) && " ++
    "( export C=\"sibling\"; date ) && ( echo Go ) && ( ( ( export F=\"base\"; " ++
    "export A=\"shared\"; export D=\"first\"; export C=\"first\"; " ++
    "! ( test -f x ) || ( ( ( ( export F=\"base\"; export A=\"shared\"; " ++
    "export C=\"second\"; export D=\"first\"; ( echo Show ) && " ++
    "( export E=\"own\"; env ) ) ) ) ) ) ) ) )"

theorem nested_descent : Descent nested nestedOuter nestedLegs nestedInner :=
  .down rfl rfl rfl (.down rfl rfl rfl .here)

theorem nested_render :
    (nested.render (.str "outer") (Env.toValue [("F", "base")])).result = .ok nestedText := by
  have layered : (Env.toValue [("F", "base")]).layer = .ok (Env.entries [("F", "base")]) := rfl
  have inner : Unfolds nested (Env.toValue [("F", "base")]) [("C", "second"), ("D", "first")]
      [.str "outer", .str "middle", .str "inner"] nestedInner.steps _ :=
    .run rfl rfl rfl .done
  have middle : Unfolds nested (Env.toValue [("F", "base")]) [("C", "first"), ("D", "first")]
      [.str "outer", .str "middle"] nestedMiddle.steps _ :=
    .spawn rfl rfl rfl rfl inner (frame_of_layer layered rfl) .done
  have outer : Unfolds nested (Env.toValue [("F", "base")]) [] [.str "outer"]
      nestedOuter.steps _ :=
    .run rfl rfl rfl (.spawn rfl rfl rfl rfl middle (frame_of_layer layered rfl) .done)
  rw [render_of_unfolds rfl outer (frame_of_layer layered rfl)]
  exact congrArg Except.ok (by decide +kernel)

/-- The command of the sample sees its variables as `last?_enclosed` has it. -/
theorem nested_last?_enclosed :
    ((Env.toValue [("F", "base")]).layer = .ok (Env.entries [("F", "base")]) ∧
      (nested.render (.str "outer") (Env.toValue [("F", "base")])).result = .ok nestedText ∧
      nested.resolve (.str "outer") = .ok (some ("outer", nestedOuter)) ∧
      Descent nested nestedOuter nestedLegs nestedInner ∧
      nestedInner.steps[0]? = some nestedStep ∧ nestedStep.action = .run (.str "env")) ∧
    ∃ command enclosed inline,
      (nested.taskCommand (Env.toValue [("F", "base")]) nestedOuter).result = .ok command ∧
      command.print = nestedText ∧
      command.enclosed? (placeAlong nestedOuter nestedLegs 0) = some enclosed ∧
      commandText (.str "env") nestedStep.env = .ok inline ∧
      enclosed.leaf = .command inline ∧
      enclosed.exported =
        nested.exportedAlong [("F", "base")] [] nestedOuter nestedLegs ++ nestedStep.env ∧
      ∀ asked : String, Ordered.last? enclosed.exported asked =
        (Ordered.last? nestedStep.env asked).or
          ((deepest? (nestedLegs.map fun leg => leg.step.env) asked).or
            ((Ordered.last? nestedInner.env asked).or
              ((Ordered.last? nested.env asked).or
                ((Ordered.last? [("F", "base")] asked).or
                  (deepest? ((nestedOuter :: nestedLegs.map Leg.task).dropLast.map Task.env)
                    asked))))) := by
  have layered : (Env.toValue [("F", "base")]).layer = .ok (Env.entries [("F", "base")]) := rfl
  exact ⟨⟨layered, nested_render, rfl, nested_descent, rfl, rfl⟩,
    last?_enclosed nested layered nested_render rfl nested_descent rfl rfl⟩

end Taskbook.Registry
