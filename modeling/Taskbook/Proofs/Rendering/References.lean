/-
Which tasks can be rendered.

A task refers to others by the names that its steps spawn. It can be rendered exactly if
every reference that is reached from it is to a task of the registry, and no task that is
reached from it reaches itself again. The renderer sees only the path that it is on. It
refuses a name that is on the path, and this is a name that reaches itself: every name on
the path leads to the last one. The same task on two paths, or anything that is not reached,
is no reason to refuse. What fails otherwise are texts that cannot be written, and here all
conditions and the base can be.
-/

import Mathlib.Logic.Relation
import Taskbook.Proofs.Ordered
import Taskbook.Proofs.Registry
import Taskbook.Proofs.Rendering.Unfolding
import Taskbook.Proofs.Textual

namespace Taskbook

/-! ### What can be written -/

namespace Value

/-- A value that can be put into a command. -/
def IsWritable (value : Value) : Prop :=
  ∃ text, value.text = .ok text

/-- A base whose entries can all be put into commands. -/
def IsWritableLayer (base : Value) : Prop :=
  ∃ entries, base.layer = .ok entries ∧
    ∀ entry ∈ entries, entry.1.IsWritable ∧ entry.2.IsWritable

theorem isWritable_str (text : String) : (str text).IsWritable :=
  ⟨text, rfl⟩

/-- What is given as a text can be put into a command. -/
theorem IsTextOrNull.isWritable {value : Value} (textual : value.IsTextOrNull)
    (given : value.isTruthy = true) : value.IsWritable := by
  rcases textual with rfl | ⟨text, rfl⟩
  · cases given
  · exact isWritable_str text

/-- A number of too many digits cannot be written. -/
theorem text_int_of_le {number : Nat} (long : Number.firstUnwritten ≤ number) :
    (Value.int number).text = .error .wrongValue := by
  have literal : (Value.int number).text = integerText number := by
    simp only [Value.text, Value.literal, Value.scalarLiteral]
  have unwritten : Number.writeInt? number = none := if_neg (Nat.not_lt.mpr long)
  rw [literal]
  unfold integerText
  rw [unwritten]

end Value

namespace Registry

open Shell Relation

/-! ### References -/

/-- A step of the task that the first name names spawns the second. -/
def Spawns (registry : Registry) (name next : String) : Prop :=
  ∃ task, registry.resolve (.str name) = .ok (some (name, task)) ∧
    ∃ step ∈ task.steps, step.action = .spawn (.str next)

/-- Every reference that is reached from a name is to a task of the registry. -/
def ReferencesResolve (registry : Registry) (name : String) : Prop :=
  ∀ other next, ReflTransGen registry.Spawns name other → registry.Spawns other next →
    next ∈ registry.names

/-- No task that is reached from a name reaches itself again. -/
def IsAcyclic (registry : Registry) (name : String) : Prop :=
  ∀ other, ReflTransGen registry.Spawns name other → ¬ TransGen registry.Spawns other other

/-- Every condition that is reached from a name can be put into a command, where it is given. -/
def ConditionsWritable (registry : Registry) (name : String) : Prop :=
  ∀ other task, ReflTransGen registry.Spawns name other →
    registry.resolve (.str other) = .ok (some (other, task)) →
      task.condition.isTruthy = true → task.condition.IsWritable

variable {registry : Registry} {base : Value} {overlay : Env}

/-- On a path of names are those names. -/
theorem isOnPath_map (name : String) (names : List String) :
    isOnPath name (names.map .str) = decide (name ∈ names) := by
  induction names with
  | nil => rfl
  | cons first rest inductionHypothesis =>
    have step : isOnPath name ((first :: rest).map .str) =
        (decide (first = name) || isOnPath name (rest.map .str)) := rfl
    rw [step, inductionHypothesis]
    by_cases same : first = name
    · simp [same]
    · simp [same, Ne.symm same]

/-! ### A rendering that succeeds -/

/-- What a step spawns in a rendering that succeeds is found off the path and unfolded at the end
of it. -/
theorem Unfolds.spawned {path : List Value} {steps : List Step} {fragments : List Script}
    (unfolds : Unfolds registry base overlay path steps fragments) {step : Step}
    (member : step ∈ steps) {target : Value} (spawns : step.action = .spawn target) :
    ∃ name task above inner, registry.resolve target = .ok (some (name, task)) ∧
      isOnPath name path = false ∧
      Unfolds registry base above (path ++ [.str name]) task.steps inner := by
  obtain ⟨index, there⟩ := List.getElem?_of_mem member
  obtain ⟨fragment, -, stepUnfolds⟩ := unfolds.getElem? there
  cases stepUnfolds with
  | run runs worded =>
    rw [runs] at spawns
    cases spawns
  | spawn spawnsOther found fresh inside framed =>
    rw [spawnsOther] at spawns
    obtain rfl := Action.spawn.inj spawns
    exact ⟨_, _, _, _, found, fresh, inside⟩

/-- The task of a name is unfolded at the end of a path of names, itself among them. -/
def IsUnfolded (registry : Registry) (base : Value) (names : List String) (name : String) :
    Prop :=
  name ∈ names ∧ ∃ task overlay fragments,
    registry.resolve (.str name) = .ok (some (name, task)) ∧
      Unfolds registry base overlay (names.map .str) task.steps fragments

/-- What an unfolded task spawns is unfolded one name further on, and was not on the path. -/
theorem IsUnfolded.next {names : List String} {name next : String}
    (unfolded : registry.IsUnfolded base names name) (spawns : registry.Spawns name next) :
    next ∉ names ∧ registry.IsUnfolded base (names ++ [next]) next := by
  obtain ⟨-, task, overlay, fragments, resolved, unfolds⟩ := unfolded
  obtain ⟨other, otherResolved, step, member, action⟩ := spawns
  rw [resolved] at otherResolved
  obtain ⟨-, rfl⟩ := Prod.mk.inj (Option.some.inj (Except.ok.inj otherResolved))
  obtain ⟨key, spawned, above, inner, found, fresh, inside⟩ := unfolds.spawned member action
  obtain rfl := eq_of_resolve found
  rw [isOnPath_map] at fresh
  refine ⟨by simpa using fresh, by simp, spawned, above, inner, found, ?_⟩
  rw [List.map_append]
  exact inside

/-- What an unfolded task reaches is unfolded further on the same path. -/
theorem IsUnfolded.reached {names : List String} {name other : String}
    (unfolded : registry.IsUnfolded base names name)
    (reaches : ReflTransGen registry.Spawns name other) :
    ∃ further, registry.IsUnfolded base (names ++ further) other := by
  induction reaches with
  | refl => exact ⟨[], by rwa [List.append_nil]⟩
  | @tail middle last _ spawns inductionHypothesis =>
    obtain ⟨further, middleUnfolded⟩ := inductionHypothesis
    refine ⟨further ++ [last], ?_⟩
    rw [← List.append_assoc]
    exact (middleUnfolded.next spawns).2

/-- Everything that an unfolded task refers to is there. -/
theorem IsUnfolded.referencesResolve {names : List String} {name : String}
    (unfolded : registry.IsUnfolded base names name) : registry.ReferencesResolve name := by
  intro other next reaches spawns
  obtain ⟨further, otherUnfolded⟩ := unfolded.reached reaches
  obtain ⟨-, -, task, above, fragments, resolved, -⟩ := otherUnfolded.next spawns
  exact mem_names_of_resolve resolved

/-- Nothing that an unfolded task reaches reaches itself: its name would have been on the path
already. -/
theorem IsUnfolded.isAcyclic {names : List String} {name : String}
    (unfolded : registry.IsUnfolded base names name) : registry.IsAcyclic name := by
  intro other reaches loops
  obtain ⟨further, otherUnfolded⟩ := unfolded.reached reaches
  obtain ⟨last, lastReaches, spawns⟩ := TransGen.tail'_iff.mp loops
  obtain ⟨rest, lastUnfolded⟩ := otherUnfolded.reached lastReaches
  have fresh := (lastUnfolded.next spawns).1
  exact fresh (List.mem_append_left _ otherUnfolded.1)

/-! ### A rendering that fails -/

theorem labelScript_isOk {label : Value} (textual : label.IsTextOrNull) :
    ∃ scripts, labelScript label = .ok scripts := by
  unfold labelScript
  rcases textual with rfl | ⟨text, rfl⟩
  · exact ⟨_, rfl⟩
  · split
    · exact ⟨_, rfl⟩
    · exact ⟨_, rfl⟩

theorem commandText_isOk {command : Value} (textual : command.IsText) (env : Env) :
    ∃ text, commandText command env = .ok text := by
  obtain ⟨source, rfl⟩ := textual
  exact ⟨_, commandText_str source env⟩

/-- Layers that can be written give variables. -/
theorem bindings_isOk (layer : base.IsWritableLayer) (layers : List Env) :
    ∃ exported, bindings base layers = .ok exported := by
  obtain ⟨entries, layered, writable⟩ := layer
  have merged : ∀ entry ∈ Ordered.mergeAll (entries :: layers.map Env.entries),
      entry.1.IsWritable ∧ entry.2.IsWritable := by
    refine Ordered.forall_mergeAll fun layer member => ?_
    rcases List.mem_cons.mp member with rfl | member
    · exact writable
    · obtain ⟨env, -, rfl⟩ := List.mem_map.mp member
      intro entry entryMember
      obtain ⟨assigned, -, rfl⟩ := List.mem_map.mp entryMember
      exact ⟨Value.isWritable_str _, Value.isWritable_str _⟩
  rw [bindings, layered, ok_bind]
  refine mapM_isOk fun ⟨name, value⟩ member => ?_
  obtain ⟨⟨key, keyText⟩, text, valueText⟩ := merged (name, value) member
  refine ⟨(key, text), ?_⟩
  dsimp only at keyText valueText ⊢
  rw [keyText, ok_bind, valueText]
  rfl

/-- Conditions and layers that can be written make a command of any scripts. -/
theorem frame_isOk {task : Task}
    (condition : task.condition.isTruthy = true → task.condition.IsWritable)
    (layer : base.IsWritableLayer) (overlay : Env) (fragments : List Script) :
    ∃ command, registry.frame base overlay task fragments = .ok command := by
  obtain ⟨exported, bound⟩ := bindings_isOk layer [registry.env, task.env, overlay]
  have gate : ∃ body, gated task.condition (.chain (fragments.map .subshell)) = .ok body := by
    unfold gated
    split
    · rename_i given
      obtain ⟨text, written⟩ := condition given
      exact ⟨_, by rw [written]; rfl⟩
    · exact ⟨_, rfl⟩
  obtain ⟨body, gate⟩ := gate
  exact ⟨_, by rw [frame, gate, ok_bind, bound, ok_bind]; rfl⟩

/-- Why a rendering is refused: a reference that is reached leads nowhere, or a task that is
reached reaches itself. -/
inductive Refusal (registry : Registry) (root : String) : Error → Prop
  | missing {other target : String} (reaches : ReflTransGen registry.Spawns root other)
      (spawns : registry.Spawns other target) (absent : target ∉ registry.names) :
      Refusal registry root (.subtaskMissing (.str target) (.str other))
  | cycle {other : String} {names : List String}
      (reaches : ReflTransGen registry.Spawns root other)
      (loops : TransGen registry.Spawns other other) :
      Refusal registry root (.cycle (names.map .str))

/-- The names of a path start from a root and lead to a name, itself among them. -/
def LeadsTo (registry : Registry) (root : String) (names : List String) (name : String) : Prop :=
  name ∈ names ∧ ∀ other ∈ names,
    ReflTransGen registry.Spawns root other ∧ ReflTransGen registry.Spawns other name

/-- A path leads on to what its last task spawns. -/
theorem LeadsTo.next {root name next : String} {names : List String}
    (leads : registry.LeadsTo root names name) (spawns : registry.Spawns name next) :
    registry.LeadsTo root (names ++ [next]) next := by
  refine ⟨by simp, fun other member => ?_⟩
  rcases List.mem_append.mp member with before | last
  · obtain ⟨fromRoot, toName⟩ := leads.2 other before
    exact ⟨fromRoot, toName.tail spawns⟩
  · obtain rfl := List.mem_singleton.mp last
    exact ⟨(leads.2 name leads.1).1.tail spawns, .refl⟩

/-- How the script of a step can fail to be made. -/
inductive ActionFails (registry : Registry) (base : Value) (overlay : Env) (path : List Value)
    (owner : Value) (step : Step) : Error → Prop
  | unworded {command : Value} {fault : Fault} (runs : step.action = .run command)
      (refused : commandText command step.env = .error fault) :
      ActionFails registry base overlay path owner step (.fault fault)
  | unasked {target : Value} {fault : Fault} (spawns : step.action = .spawn target)
      (refused : registry.resolve target = .error fault) :
      ActionFails registry base overlay path owner step (.fault fault)
  | missing {target : Value} (spawns : step.action = .spawn target)
      (absent : registry.resolve target = .ok none) :
      ActionFails registry base overlay path owner step (.subtaskMissing target owner)
  | cycle {target : Value} {name : String} {task : Task} (spawns : step.action = .spawn target)
      (found : registry.resolve target = .ok (some (name, task)))
      (onPath : isOnPath name path = true) :
      ActionFails registry base overlay path owner step (.cycle (path ++ [.str name]))
  | inside {target : Value} {name : String} {task : Task} {error : Error}
      (spawns : step.action = .spawn target)
      (found : registry.resolve target = .ok (some (name, task)))
      (fresh : ¬isOnPath name path = true)
      (refused : (stepScripts registry base (overlay.merge step.env) (path ++ [.str name])
        task.name task.steps).result = .error error) :
      ActionFails registry base overlay path owner step error
  | unframed {target : Value} {name : String} {task : Task} {fragments : List Script}
      {fault : Fault} (spawns : step.action = .spawn target)
      (found : registry.resolve target = .ok (some (name, task)))
      (refused : registry.frame base (overlay.merge step.env) task fragments = .error fault) :
      ActionFails registry base overlay path owner step (.fault fault)

theorem actionFails_of_error {overlay : Env} {path : List Value} {owner : Value} {step : Step}
    {error : Error} (failed : actionScript registry base overlay path owner step = .error error) :
    registry.ActionFails base overlay path owner step error := by
  unfold actionScript at failed
  split at failed
  · rename_i command runs
    cases worded : commandText command step.env with
    | error fault =>
      rw [worded] at failed
      obtain rfl := Except.error.inj failed
      exact .unworded runs worded
    | ok text =>
      rw [worded] at failed
      cases failed
  · rename_i target spawns
    split at failed
    · rename_i fault refused
      obtain rfl := Except.error.inj failed
      exact .unasked spawns refused
    · rename_i absent
      obtain rfl := Except.error.inj failed
      exact .missing spawns absent
    · rename_i name task found
      split at failed
      · rename_i onPath
        obtain rfl := Except.error.inj failed
        exact .cycle spawns found onPath
      · rename_i fresh
        rcases bind_eq_error.mp failed with refused | ⟨fragments, -, failed⟩
        · exact .inside spawns found fresh refused
        · cases framed : registry.frame base (overlay.merge step.env) task fragments with
          | error fault =>
            rw [framed] at failed
            obtain rfl := Except.error.inj failed
            exact .unframed spawns found framed
          | ok command =>
            rw [framed] at failed
            cases failed

/-- What is known of a row of steps that the renderer comes to from a root: they belong to the task
that the names of the path lead to. -/
structure IsReached (registry : Registry) (root : String) (names : List String) (name : String)
    (path : List Value) (owner : Value) (steps : List Step) : Prop where
  path : path = names.map .str
  owner : owner = .str name
  leads : registry.LeadsTo root names name
  textual : ∀ step ∈ steps, step.IsTextual
  spawns : ∀ step ∈ steps, ∀ target, step.action = .spawn (.str target) →
    registry.Spawns name target

section

variable {root name key : String} {names : List String} {path : List Value} {owner : Value}
  {step : Step} {rest : List Step} {task : Task}

theorem IsReached.others (reached : registry.IsReached root names name path owner (step :: rest)) :
    registry.IsReached root names name path owner rest where
  path := reached.path
  owner := reached.owner
  leads := reached.leads
  textual other member := reached.textual other (List.mem_cons_of_mem _ member)
  spawns other member := reached.spawns other (List.mem_cons_of_mem _ member)

/-- The steps of a task that the first step spawns are reached over one more name. -/
theorem IsReached.spawned (named : registry.HasOwnNames) (textual : registry.HasTextualSteps)
    (reached : registry.IsReached root names name path owner (step :: rest))
    (spawns : step.action = .spawn (.str key))
    (found : registry.resolve (.str key) = .ok (some (key, task))) :
    registry.IsReached root (names ++ [key]) key (path ++ [.str key]) task.name task.steps where
  path := by
    rw [reached.path, List.map_append]
    rfl
  owner := named _ (mem_of_resolve found)
  leads := reached.leads.next (reached.spawns step List.mem_cons_self key spawns)
  textual := textual _ (mem_of_resolve found)
  spawns inside member _ action := ⟨task, found, inside, member, action⟩

/-- The first step is only refused for a reference or a cycle, where those inside of it are. -/
theorem refusal_of_actionFails (conditions : registry.ConditionsWritable root)
    (layer : base.IsWritableLayer) {overlay : Env} {error : Error}
    (reached : registry.IsReached root names name path owner (step :: rest))
    (within : ∀ key task, step.action = .spawn (.str key) →
      registry.resolve (.str key) = .ok (some (key, task)) → ¬isOnPath key path = true →
      (stepScripts registry base (overlay.merge step.env) (path ++ [.str key]) task.name
        task.steps).result = .error error → registry.Refusal root error)
    (fails : registry.ActionFails base overlay path owner step error) :
    registry.Refusal root error := by
  have textual := reached.textual step List.mem_cons_self
  have spawnsStep := reached.spawns step List.mem_cons_self
  obtain ⟨onItself, fromRoot⟩ := reached.leads
  cases fails with
  | @unworded command fault runs refused =>
    obtain ⟨text, worded⟩ := commandText_isOk (textual.command command runs) step.env
    rw [worded] at refused
    cases refused
  | @unasked target fault spawns refused =>
    obtain ⟨next, rfl⟩ := textual.target target spawns
    cases refused
  | @missing target spawns absent =>
    obtain ⟨next, rfl⟩ := textual.target target spawns
    rw [reached.owner]
    exact .missing (fromRoot name onItself).1 (spawnsStep next spawns) (resolve_eq_none absent)
  | @cycle target key task spawns found onPath =>
    obtain ⟨next, rfl⟩ := textual.target target spawns
    obtain rfl := eq_of_resolve found
    rw [reached.path, isOnPath_map] at onPath
    obtain ⟨toKey, fromKey⟩ := fromRoot key (by simpa using onPath)
    have same : path ++ [.str key] = (names ++ [key]).map .str := by
      rw [reached.path, List.map_append]
      rfl
    rw [same]
    exact .cycle toKey (TransGen.tail' fromKey (spawnsStep key spawns))
  | @inside target key task _ spawns found fresh refused =>
    obtain ⟨next, rfl⟩ := textual.target target spawns
    obtain rfl := eq_of_resolve found
    exact within key task spawns found fresh refused
  | @unframed target key task fragments fault spawns found refused =>
    obtain ⟨next, rfl⟩ := textual.target target spawns
    obtain rfl := eq_of_resolve found
    have reaches := (fromRoot name onItself).1.tail (spawnsStep key spawns)
    obtain ⟨command, framed⟩ :=
      frame_isOk (conditions key task reaches found) layer
        (Ordered.merge overlay step.env) fragments
    rw [framed] at refused
    cases refused

end

/-- Scripts of textual steps are only refused for a reference or a cycle. The induction follows
the renderer; what it keeps is that the path leads from the root to the owner of the steps. -/
theorem refusal_of_error {root : String} (named : registry.HasOwnNames)
    (textual : registry.HasTextualSteps) (conditions : registry.ConditionsWritable root)
    (layer : base.IsWritableLayer) (overlay : Env) (path : List Value) (owner : Value)
    (steps : List Step) {names : List String} {name : String} {error : Error}
    (reached : registry.IsReached root names name path owner steps)
    (failed : (stepScripts registry base overlay path owner steps).result = .error error) :
    registry.Refusal root error := by
  induction overlay, path, owner, steps using stepScripts.induct registry
    generalizing names name error with
  | case1 overlay path owner =>
    rw [stepScripts_nil_result] at failed
    cases failed
  | case2 overlay path owner step rest restHypothesis insideHypothesis =>
    obtain ⟨label, labelled⟩ := labelScript_isOk (reached.textual step List.mem_cons_self).label
    rw [stepScripts_cons_result, labelled, orFault_ok, ok_bind] at failed
    rcases bind_eq_error.mp failed with failed | ⟨fragment, -, failed⟩
    · exact refusal_of_actionFails conditions layer reached
        (fun key task spawns found fresh refused => insideHypothesis (.str key) key task found fresh
          (reached.spawned named textual spawns found) refused)
        (actionFails_of_error failed)
    · rcases bind_eq_error.mp failed with failed | ⟨others, -, failed⟩
      · exact restHypothesis reached.others failed
      · cases failed

/-- What a caller is told about a cycle of names. -/
theorem notice_cycle (names : List String) : (Error.cycle (names.map .str)).notice =
    .ok ⟨.cycle, "Subtask cycle detected: " ++ " -> ".intercalate names⟩ := by
  have worded : (names.map Value.str).mapM Error.textOnly = .ok names := by
    induction names with
    | nil => rfl
    | cons first rest inductionHypothesis =>
      rw [List.map_cons, List.mapM_cons, inductionHypothesis]
      rfl
  rw [Error.notice, Error.message, worded]
  rfl

/-- The message of a refusal can be worded. -/
theorem Refusal.notice {root : String} {error : Error} (refusal : registry.Refusal root error) :
    ∃ message,
      (error.notice = .ok ⟨.missing, message⟩ ∧ ¬ registry.ReferencesResolve root) ∨
      (error.notice = .ok ⟨.cycle, message⟩ ∧ ¬ registry.IsAcyclic root) := by
  cases refusal with
  | missing reaches spawns absent =>
    exact ⟨_, Or.inl ⟨rfl, fun resolves => absent (resolves _ _ reaches spawns)⟩⟩
  | @cycle other names reaches loops =>
    exact ⟨_, Or.inr ⟨notice_cycle names, fun acyclic => acyclic _ reaches loops⟩⟩

/-! ### Both together -/

/-- The command of a task of the registry is there, or it is refused. -/
theorem taskCommand_cases (named : registry.HasOwnNames) (textual : registry.HasTextualSteps)
    {name : String} (conditions : registry.ConditionsWritable name)
    (layer : base.IsWritableLayer) {task : Task}
    (found : registry.resolve (.str name) = .ok (some (name, task))) :
    (∃ command, (registry.taskCommand base task).result = .ok command) ∨
      ∃ error, (registry.taskCommand base task).result = .error error ∧
        registry.Refusal name error := by
  have member := mem_of_resolve found
  have called : task.name = .str name := named _ member
  have leads : registry.LeadsTo name [name] name := by
    refine ⟨List.mem_singleton_self _, fun other otherMember => ?_⟩
    obtain rfl := List.mem_singleton.mp otherMember
    exact ⟨.refl, .refl⟩
  rw [taskCommand_result, called]
  cases inside : (stepScripts registry base [] [.str name] (.str name) task.steps).result with
  | error error =>
    refine Or.inr ⟨error, rfl, ?_⟩
    have reached : registry.IsReached name [name] name [.str name] (.str name) task.steps :=
      ⟨rfl, rfl, leads, textual _ member, fun step stepMember target action =>
        ⟨task, found, step, stepMember, action⟩⟩
    exact refusal_of_error named textual conditions layer _ _ _ _ reached inside
  | ok fragments =>
    obtain ⟨command, framed⟩ :=
      frame_isOk (conditions name task .refl found) layer [] fragments
    exact Or.inl ⟨command, by rw [ok_bind, framed]; rfl⟩

/-- Where the conditions that are reached and the base can be written, a task of the registry is
rendered to a text exactly if all references that are reached from it resolve and nothing that is
reached from it reaches itself. Otherwise the error tells which of the two it is. -/
theorem render_isOk_iff (registry : Registry) (named : registry.HasOwnNames)
    (textual : registry.HasTextualSteps) (base : Value) (layer : base.IsWritableLayer)
    (name : String) (known : name ∈ registry.names)
    (conditions : registry.ConditionsWritable name) :
    ((∃ text, (registry.render (.str name) base).result = .ok text) ↔
      registry.ReferencesResolve name ∧ registry.IsAcyclic name) ∧
    ∀ error, (registry.render (.str name) base).result = .error error →
      ∃ message,
        (error.notice = .ok ⟨.missing, message⟩ ∧ ¬ registry.ReferencesResolve name) ∨
        (error.notice = .ok ⟨.cycle, message⟩ ∧ ¬ registry.IsAcyclic name) := by
  obtain ⟨task, found⟩ := resolve_of_mem_names known
  rw [render_of_resolve found]
  rcases taskCommand_cases named textual conditions layer found with
    ⟨command, commanded⟩ | ⟨error, commanded, refusal⟩
  · rw [commanded]
    refine ⟨⟨fun _ => ?_, fun _ => ⟨command.print, rfl⟩⟩, fun error failed => by cases failed⟩
    obtain ⟨fragments, unfolds, -⟩ := taskCommand_eq_ok commanded
    have unfolded : registry.IsUnfolded base [name] name := by
      refine ⟨List.mem_singleton_self _, task, [], fragments, found, ?_⟩
      rw [named _ (mem_of_resolve found)] at unfolds
      exact unfolds
    exact ⟨unfolded.referencesResolve, unfolded.isAcyclic⟩
  · rw [commanded]
    refine ⟨⟨?_, ?_⟩, ?_⟩
    · rintro ⟨text, rendered⟩
      cases rendered
    · rintro ⟨resolves, acyclic⟩
      obtain ⟨message, ⟨-, dangling⟩ | ⟨-, cyclic⟩⟩ := refusal.notice
      · exact absurd resolves dangling
      · exact absurd acyclic cyclic
    · intro other failed
      obtain rfl := Except.error.inj failed
      exact refusal.notice

/-- A registry in which two tasks share a third one. Apart from them, a task refers to itself and
to a task that is not there. -/
def diamond : Registry :=
  let spawning := fun (target : String) => (⟨.spawn (.str target), .null, []⟩ : Step)
  let task := fun (name : String) (steps : List Step) =>
    (name, (⟨.str name, .null, none, .null, [], steps⟩ : Task))
  ⟨[],
    [task "all" [spawning "check", spawning "test"],
      task "check" [spawning "install"],
      task "test" [spawning "install"],
      task "install" [⟨.run (.str "npm ci"), .null, []⟩],
      task "stray" [spawning "stray", spawning "lost"]]⟩

theorem diamond_hasOwnNames : diamond.HasOwnNames := by
  intro entry member
  simp only [diamond, List.mem_cons, List.not_mem_nil, or_false] at member
  rcases member with rfl | rfl | rfl | rfl | rfl <;> rfl

theorem diamond_hasTextualSteps : diamond.HasTextualSteps := by
  intro entry member step stepMember
  simp only [diamond, List.mem_cons, List.not_mem_nil, or_false] at member
  rcases member with rfl | rfl | rfl | rfl | rfl <;>
    simp only [List.mem_cons, List.not_mem_nil, or_false] at stepMember
  · rcases stepMember with rfl | rfl <;> exact Step.isTextual_spawn Value.isTextOrNull_null _ _
  · obtain rfl := stepMember
    exact Step.isTextual_spawn Value.isTextOrNull_null _ _
  · obtain rfl := stepMember
    exact Step.isTextual_spawn Value.isTextOrNull_null _ _
  · obtain rfl := stepMember
    exact Step.isTextual_run Value.isTextOrNull_null _ _
  · rcases stepMember with rfl | rfl <;> exact Step.isTextual_spawn Value.isTextOrNull_null _ _

/-- No task of the sample has a condition. -/
theorem diamond_conditionsWritable (name : String) : diamond.ConditionsWritable name := by
  intro other task _ found given
  have member := mem_of_resolve found
  simp only [diamond, List.mem_cons, List.not_mem_nil, or_false] at member
  rcases member with same | same | same | same | same <;>
    obtain ⟨-, rfl⟩ := Prod.mk.inj same <;> cases given

/-- The sample satisfies what `render_isOk_iff` asks for, both where it is rendered and where it
is not. -/
theorem diamond_isOk_iff :
    (diamond.HasOwnNames ∧ diamond.HasTextualSteps ∧ Value.null.IsWritableLayer ∧
      "all" ∈ diamond.names ∧ diamond.ConditionsWritable "all") ∧
    ((∃ text, (diamond.render (.str "all") .null).result = .ok text) ↔
      diamond.ReferencesResolve "all" ∧ diamond.IsAcyclic "all") ∧
    ∀ error, (diamond.render (.str "all") .null).result = .error error →
      ∃ message,
        (error.notice = .ok ⟨.missing, message⟩ ∧ ¬ diamond.ReferencesResolve "all") ∨
        (error.notice = .ok ⟨.cycle, message⟩ ∧ ¬ diamond.IsAcyclic "all") := by
  have layer : Value.null.IsWritableLayer := ⟨[], rfl, fun entry member => by cases member⟩
  have known : "all" ∈ diamond.names := by decide
  exact ⟨⟨diamond_hasOwnNames, diamond_hasTextualSteps, layer, known,
      diamond_conditionsWritable "all"⟩,
    render_isOk_iff diamond diamond_hasOwnNames diamond_hasTextualSteps .null layer "all" known
      (diamond_conditionsWritable "all")⟩

/-- A registry whose only task has a number for its condition, the one after the given. -/
def numbered (number : Nat) : Registry :=
  ⟨[], [("huge", ⟨.str "huge", .null, none, .int (number + 1 : Nat), [], []⟩)]⟩

/-- A condition of too many digits cannot be rendered. -/
theorem numbered_render {number : Nat} (long : Number.firstUnwritten ≤ number) :
    ((numbered number).render (.str "huge") .null).result = .error (.fault .wrongValue) := by
  let task : Task := ⟨.str "huge", .null, none, .int (number + 1 : Nat), [], []⟩
  have found : (numbered number).resolve (.str "huge") = .ok (some ("huge", task)) := rfl
  have given : task.condition.isTruthy = true := rfl
  have unwritten : task.condition.text = .error .wrongValue :=
    Value.text_int_of_le (Nat.le_succ_of_le long)
  have framed : (numbered number).frame .null [] task [] = .error .wrongValue := by
    rw [frame, gated, if_pos given, unwritten]
    rfl
  rw [render_of_resolve found, taskCommand_result]
  show (do
    let fragments ← (stepScripts (numbered number) .null [] [task.name] task.name []).result
    orFault ((numbered number).frame .null [] task fragments)).map Command.print = _
  rw [stepScripts_nil_result, ok_bind, framed]
  rfl

/-- Without a word on conditions this fails: one that cannot be written is a reason to refuse
which is neither a reference nor a cycle. -/
theorem not_render_isOk_iff_of_unwritable :
    ¬ ∀ (registry : Registry), registry.HasOwnNames → registry.HasTextualSteps →
      ∀ (base : Value) (name : String), name ∈ registry.names →
        ((∃ text, (registry.render (.str name) base).result = .ok text) ↔
          registry.ReferencesResolve name ∧ registry.IsAcyclic name) ∧
        ∀ error, (registry.render (.str name) base).result = .error error →
          ∃ message, error.notice = .ok ⟨.missing, message⟩ ∨
            error.notice = .ok ⟨.cycle, message⟩ := by
  intro all
  let registry := numbered Number.firstUnwritten
  have named : registry.HasOwnNames := by
    intro entry member
    obtain rfl := List.mem_singleton.mp member
    rfl
  have textual : registry.HasTextualSteps := by
    intro entry member step stepMember
    obtain rfl := List.mem_singleton.mp member
    cases stepMember
  obtain ⟨-, refused⟩ := all registry named textual .null "huge" (List.mem_singleton_self _)
  obtain ⟨message, noticed | noticed⟩ := refused _ (numbered_render (Nat.le_refl _))
  · cases noticed
  · cases noticed

end Registry

end Taskbook
