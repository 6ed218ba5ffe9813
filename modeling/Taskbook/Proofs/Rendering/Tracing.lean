/-
What a rendering leaves in the log, and what it fails with.

A rendering goes through the expansion of its root in order and leaves a record for every task that
it comes to, up to the first fault, which is what it fails with. The induction follows the renderer:
the scripts of some steps follow a trace of them.
-/

import Taskbook.Proofs.Rendering.Expansion
import Taskbook.Proofs.Rendering.Locality

namespace Taskbook.Registry

variable {registry : Registry} {step : Step} {root : String}

/-! ### Renderings -/

/-- What a rendering fails with at a fault: a task that is there is on the way already. -/
def refusal (registry : Registry) (owner : String) (fault : Spot) : Error :=
  if fault.name ∈ registry.names then .cycle ((fault.path ++ [fault.name]).map .str)
  else .subtaskMissing (.str fault.name) (.str owner)

/-- A computation leaves the records of some spots, and fails with a fault if there is one. -/
structure Follows {α : Type} (registry : Registry) (visits : List Spot) (fault? : Option Spot)
    (outcome : Logged α) : Prop where
  records : outcome.records = visits.map Spot.record
  succeeds : fault? = none → ∃ value, outcome.result = .ok value
  fails : ∀ fault, fault? = some fault → ∃ owner, fault.path.getLast? = some owner ∧
    outcome.result = .error (registry.refusal owner fault)

variable {base : Value}

/-- A fault is what a computation fails with that leaves nothing before it. -/
theorem follows_fail {α : Type} {owner : String} {fault : Spot} {error : Error}
    (last : fault.path.getLast? = some owner) (same : error = registry.refusal owner fault) :
    registry.Follows [] (some fault) (Logged.fail error : Logged α) where
  records := rfl
  succeeds := fun isNone => by cases isNone
  fails := fun other isFault => by
    obtain rfl := Option.some.inj isFault
    exact ⟨owner, last, congrArg Except.error same⟩

/-- What follows up to a fault does not go on. -/
theorem Follows.stop {α β : Type} {visits : List Spot} {fault : Spot} {first : Logged α}
    (follows : registry.Follows visits (some fault) first) (next : α → Logged β) :
    registry.Follows visits (some fault) (first >>= next) := by
  obtain ⟨owner, last, failed⟩ := follows.fails fault rfl
  rw [Logged.bind_of_error failed]
  refine ⟨follows.records, fun isNone => (by cases isNone), fun other isFault => ?_⟩
  obtain rfl := Option.some.inj isFault
  exact ⟨owner, last, rfl⟩

/-- What follows without a fault goes on from its value. -/
theorem Follows.goOn {α β : Type} {visits others : List Spot} {fault? : Option Spot}
    {first : Logged α} {next : α → Logged β} (follows : registry.Follows visits none first)
    (further : ∀ value, first.result = .ok value → registry.Follows others fault? (next value)) :
    registry.Follows (visits ++ others) fault? (first >>= next) := by
  obtain ⟨value, given⟩ := follows.succeeds rfl
  rw [Logged.bind_of_ok given]
  have onwards := further value given
  refine ⟨?_, onwards.succeeds, onwards.fails⟩
  rw [List.map_append, ← follows.records, ← onwards.records]

theorem follows_succeed {α : Type} (value : α) :
    registry.Follows [] none (Logged.succeed value) where
  records := rfl
  succeeds := fun _ => ⟨value, rfl⟩
  fails := fun fault isFault => by cases isFault

theorem follows_write (spot : Spot) : registry.Follows [spot] none (Logged.write spot.record) where
  records := rfl
  succeeds := fun _ => ⟨(), rfl⟩
  fails := fun fault isFault => by cases isFault

/-- Where a spot is does not tell from its record. -/
theorem Follows.move {α : Type} {visits : List Spot} {fault? : Option Spot} {outcome : Logged α}
    (follows : registry.Follows visits fault? outcome) {move : Spot → Spot}
    (path : ∀ spot, (move spot).path = spot.path) (name : ∀ spot, (move spot).name = spot.name) :
    registry.Follows (visits.map move) (fault?.map move) outcome where
  records := by
    rw [follows.records, List.map_map]
    refine List.map_congr_left fun spot _ => ?_
    rw [Function.comp_apply, Spot.record, Spot.record, path, name]
  succeeds := fun isNone => follows.succeeds (Option.map_eq_none_iff.mp isNone)
  fails := fun fault isFault => by
    obtain ⟨inner, innerIsFault, rfl⟩ := Option.map_eq_some_iff.mp isFault
    obtain ⟨owner, last, failed⟩ := follows.fails inner innerIsFault
    refine ⟨owner, by rw [path, last], ?_⟩
    rw [failed, refusal, refusal, path, name]

/-- The path to what is spawned, as values. -/
theorem map_str_concat (names : List String) (name : String) :
    names.map Value.str ++ [.str name] = (names ++ [name]).map .str := by
  rw [List.map_append]
  rfl

/-- A command around scripts that follow a trace follows it too: there is nothing else to be
refused. -/
theorem follows_frame {α : Type} {visits : List Spot} {fault? : Option Spot} {task : Task}
    {overlay : Env} (conditions : task.condition.IsTextOrNull) (layer : base.IsWritableLayer)
    {scripts : Logged (List Shell.Script)} (follows : registry.Follows visits fault? scripts)
    (finish : Shell.Command → α) :
    registry.Follows visits fault? (do
      let fragments ← scripts
      let command ← registry.frame base overlay task fragments
      Logged.succeed (finish command)) := by
  cases fault? with
  | some fault => exact follows.stop _
  | none =>
    rw [← List.append_nil visits]
    refine follows.goOn fun fragments _ => ?_
    obtain ⟨command, framed⟩ :
        ∃ command, registry.frame base overlay task fragments = .ok command :=
      frame_isOk conditions.isWritable layer overlay fragments
    rw [framed, Logged.liftFault_ok_bind]
    exact follows_succeed (finish command)

/-- The action of a step follows a trace of the step, if the steps of the task that it spawns
follow theirs. -/
theorem exists_trace_loggedAction (conditions : registry.HasTextualConditions)
    (layer : base.IsWritableLayer) (overlay : Env) {names : List String} {name : String}
    (last : names.getLast? = some name) (textual : step.IsTextual)
    (insideFollows : ∀ target task,
      registry.resolve (.str target) = .ok (some (target, task)) → target ∉ names →
      ∃ visits fault?, registry.IsTrace (names ++ [target]) task.steps visits fault? ∧
        registry.Follows visits fault? (stepScripts registry base (overlay.merge step.env)
          ((names ++ [target]).map .str) task.name task.steps)) :
    ∃ visits fault?, registry.IsTrace names [step] visits fault? ∧
      registry.Follows visits fault?
        (loggedAction registry base overlay (names.map .str) (.str name) step) := by
  rw [loggedAction]
  cases action : step.action with
  | run command =>
    obtain ⟨text, worded⟩ := commandText_isOk (textual.command command action) step.env
    refine ⟨[], none, isTrace_of_not_inside fun spot => not_inside_run action, ?_⟩
    dsimp only
    rw [worded, Logged.liftFault_ok_bind]
    exact follows_succeed _
  | spawn value =>
    obtain ⟨target, rfl⟩ := textual.target value action
    dsimp only
    cases resolved : registry.resolve (.str target) with
    | error fault => cases resolved
    | ok entry? =>
      cases entry? with
      | none =>
        have absent := resolve_eq_none resolved
        refine ⟨_, _, isTrace_fault action (Or.inl absent), follows_fail last ?_⟩
        rw [refusal, if_neg absent]
      | some entry =>
        obtain ⟨key, task⟩ := entry
        obtain rfl := eq_of_resolve resolved
        dsimp only
        rw [isOnPath_map, map_str_concat]
        by_cases onPath : key ∈ names
        · rw [if_pos (decide_eq_true onPath)]
          refine ⟨_, _, isTrace_fault action (Or.inr onPath), follows_fail last ?_⟩
          rw [refusal, if_pos (mem_names_of_resolve resolved)]
        · rw [if_neg (by simpa using onPath)]
          obtain ⟨visits, fault?, trace, follows⟩ := insideFollows key task resolved onPath
          refine ⟨_, _, isTrace_spawn action resolved onPath trace, ?_⟩
          -- The record of the task stands before those of its steps.
          have here : renderingRecord ((names ++ [key]).map .str) key =
              Spot.record ⟨[0], names, key⟩ := by
            simp [renderingRecord, Spot.record]
          rw [here]
          refine (follows_write _).goOn fun _ _ => Follows.move ?_ (fun _ => rfl) fun _ => rfl
          exact follows_frame (conditions _ (mem_of_resolve resolved)) layer follows _

/-- Steps follow their trace. The induction follows the renderer; what it keeps is that the path is
one of names, the last of which is the owner of the steps. -/
theorem exists_trace (named : registry.HasOwnNames) (textual : registry.HasTextualSteps)
    (conditions : registry.HasTextualConditions) (layer : base.IsWritableLayer) (overlay : Env)
    (path : List Value) (owner : Value) (steps : List Step) {names : List String} {name : String}
    (pathNames : path = names.map .str) (ownerName : owner = .str name)
    (last : names.getLast? = some name) (textualHere : ∀ step ∈ steps, step.IsTextual) :
    ∃ visits fault?, registry.IsTrace names steps visits fault? ∧
      registry.Follows visits fault? (stepScripts registry base overlay path owner steps) := by
  induction overlay, path, owner, steps using stepScripts.induct registry
    generalizing names name with
  | case1 overlay path owner =>
    refine ⟨[], none, isTrace_of_not_inside fun spot => not_inside_nil, ?_⟩
    rw [stepScripts_nil]
    exact follows_succeed []
  | case2 overlay path owner step rest restHypothesis insideHypothesis =>
    subst pathNames
    subst ownerName
    have stepTextual := textualHere step List.mem_cons_self
    obtain ⟨visits, fault?, trace, follows⟩ := exists_trace_loggedAction conditions layer
      overlay last stepTextual fun target task found fresh => by
        have member := mem_of_resolve found
        have inside := insideHypothesis (.str target) target task found
          (by rw [isOnPath_map]; simpa using fresh) (map_str_concat names target) (named _ member)
          List.getLast?_concat (textual _ member)
        rwa [map_str_concat] at inside
    obtain ⟨label, labelled⟩ := labelScript_isOk stepTextual.label
    rw [stepScripts_cons, labelled, Logged.liftFault_ok_bind]
    cases fault? with
    | some fault => exact ⟨_, _, trace.stop rest, follows.stop _⟩
    | none =>
      obtain ⟨others, further?, further, furtherFollows⟩ := restHypothesis rfl rfl last
        fun other member => textualHere other (List.mem_cons_of_mem _ member)
      refine ⟨_, _, trace.goOn further, follows.goOn fun fragment _ => ?_⟩
      refine Follows.move ?_ (fun _ => rfl) fun _ => rfl
      cases further? with
      | some fault => exact furtherFollows.stop _
      | none =>
        rw [← List.append_nil others]
        exact furtherFollows.goOn fun scripts _ => follows_succeed _

/-- A task that is found follows the trace of its steps, behind its own record. -/
theorem exists_trace_render (named : registry.HasOwnNames) (textual : registry.HasTextualSteps)
    (conditions : registry.HasTextualConditions) (layer : base.IsWritableLayer) {root : String}
    {task : Task} (found : registry.resolve (.str root) = .ok (some (root, task))) :
    ∃ visits fault?, registry.IsTrace [root] task.steps visits fault? ∧
      registry.Follows (⟨[], [], root⟩ :: visits) fault? (registry.render (.str root) base) := by
  have member := mem_of_resolve found
  have own : task.name = .str root := named _ member
  have asNames : [Value.str root] = [root].map .str := rfl
  obtain ⟨visits, fault?, trace, follows⟩ := exists_trace named textual conditions layer []
    [.str root] (.str root) task.steps asNames rfl rfl (textual _ member)
  refine ⟨visits, fault?, trace, ?_⟩
  have looked : registry.render (.str root) base = registry.renderTask base task := by
    rw [render, find_eq_ok.mpr found]
    rfl
  have commanded : registry.renderTask base task = (do
      Logged.write (Spot.record ⟨[], [], root⟩)
      let fragments ← registry.stepScripts base [] [.str root] (.str root) task.steps
      let command ← registry.frame base [] task fragments
      Logged.succeed command.print) := by
    rw [renderTask, taskCommand, own]
    simp only [bind_assoc]
    rfl
  rw [looked, commanded]
  refine (follows_write _).goOn fun _ _ => ?_
  exact follows_frame (conditions _ member) layer follows _

/-! ### The first fault of a rendering -/

/-- What a caller is told about a fault. -/
theorem IsFault.notice {owner fault : Spot} (isFault : registry.IsFault root owner fault) :
    (fault.name ∉ registry.names → (registry.refusal owner.name fault).notice = .ok ⟨.missing,
      "Unable to resolve subtask " ++ fault.name ++ " (spawned by " ++ owner.name ++ ")"⟩) ∧
    (fault.name ∈ fault.path → registry.IsWay root fault.path ∧
      (fault.path ++ [fault.name]).IsChain registry.Spawns ∧
      (registry.refusal owner.name fault).notice = .ok ⟨.cycle,
        "Subtask cycle detected: " ++ " -> ".intercalate (fault.path ++ [fault.name])⟩) := by
  obtain ⟨expanded, follows, -⟩ := isFault
  have way := expanded.isWay
  have known := expanded.mem_names
  have spawns := follows.spawns
  obtain ⟨-, -, -, -, -, -, -, samePath⟩ := follows
  constructor
  · intro absent
    rw [refusal, if_neg absent]
    rfl
  · intro onPath
    have chain : (fault.path ++ [fault.name]).IsChain registry.Spawns := by
      rw [samePath]
      exact isChain_concat way.spawning List.getLast?_concat spawns
    rw [refusal, if_pos (known fault.name (samePath ▸ onPath))]
    exact ⟨samePath ▸ way, chain, notice_cycle _⟩

/-- A rendering follows the expansion of its root in order, with one record for each task, up to
the first fault. Without a fault it succeeds, and otherwise the error tells which fault was the
first. -/
theorem render_follows_expansion (registry : Registry) (named : registry.HasOwnNames)
    (textual : registry.HasTextualSteps) (conditions : registry.HasTextualConditions)
    (base : Value) (layer : base.IsWritableLayer) (root : String) :
    let rendered := registry.render (.str root) base
    (root ∉ registry.names → rendered.records = [] ∧ ∃ error, rendered.result = .error error ∧
      error.notice = .ok ⟨.missing, "Task not found: " ++ root⟩) ∧
    (root ∈ registry.names → ∃ visits : List Spot,
      rendered.records = visits.map Spot.record ∧
      visits.Pairwise (·.address < ·.address) ∧
      (∀ spot, spot ∈ visits ↔ registry.IsExpanded root spot ∧
        ∀ owner fault, registry.IsFault root owner fault → spot.address < fault.address) ∧
      (((∀ owner fault, ¬ registry.IsFault root owner fault) ∧
          ∃ text, rendered.result = .ok text) ∨
        ∃ owner fault error, registry.IsFirstFault root owner fault ∧
          rendered.result = .error error ∧
          (fault.name ∉ registry.names → error.notice = .ok ⟨.missing,
            "Unable to resolve subtask " ++ fault.name ++ " (spawned by " ++ owner.name ++ ")"⟩) ∧
          (fault.name ∈ fault.path → registry.IsWay root fault.path ∧
            (fault.path ++ [fault.name]).IsChain registry.Spawns ∧
            error.notice = .ok ⟨.cycle,
              "Subtask cycle detected: " ++ " -> ".intercalate (fault.path ++ [fault.name])⟩))) := by
  intro rendered
  constructor
  · intro absent
    have failed : rendered = Logged.fail (.taskMissing (.str root)) := by
      show registry.render (.str root) base = _
      rw [render, find_of_not_mem_names absent]
      rfl
    rw [failed]
    exact ⟨rfl, _, rfl, rfl⟩
  · intro known
    obtain ⟨task, found⟩ := resolve_of_mem_names known
    obtain ⟨visits, fault?, trace, follows⟩ :=
      exists_trace_render named textual conditions layer found
    refine ⟨⟨[], [], root⟩ :: visits, follows.records, ?_, trace.mem_iff found, ?_⟩
    · refine List.pairwise_cons.mpr ⟨fun spot member => ?_, trace.ordered⟩
      obtain ⟨index, address, same⟩ := ((trace.complete spot).mp member).1.address_ne_nil
      simp [same]
    · cases fault? with
      | none => exact Or.inl ⟨trace.not_isFault found, follows.succeeds rfl⟩
      | some fault =>
        obtain ⟨owner, first⟩ := trace.isFirstFault found
        obtain ⟨name, last, failed⟩ := follows.fails fault rfl
        obtain ⟨-, -, -, -, -, -, -, samePath⟩ := first.isFault.2.1
        rw [samePath, List.getLast?_concat] at last
        obtain rfl := Option.some.inj last
        exact Or.inr ⟨owner, fault, _, first, failed, first.isFault.notice⟩

theorem diamond_hasTextualConditions : diamond.HasTextualConditions := by
  intro entry member
  simp only [diamond, List.mem_cons, List.not_mem_nil, or_false] at member
  rcases member with rfl | rfl | rfl | rfl | rfl <;> exact Value.isTextOrNull_null

/-- A task of the sample has two faulty steps. The first one is what it is refused for. -/
theorem diamond_stray_refused :
    (diamond.HasOwnNames ∧ diamond.HasTextualSteps ∧ diamond.HasTextualConditions ∧
      Value.null.IsWritableLayer) ∧
    ∃ error, (diamond.render (.str "stray") .null).result = .error error ∧
      error.notice = .ok ⟨.cycle, "Subtask cycle detected: stray -> stray"⟩ := by
  have layer : Value.null.IsWritableLayer := ⟨[], rfl, fun entry member => by cases member⟩
  refine ⟨⟨diamond_hasOwnNames, diamond_hasTextualSteps, diamond_hasTextualConditions, layer⟩, ?_⟩
  have known : "stray" ∈ diamond.names := by decide
  let loop : Spot := ⟨[0], ["stray"], "stray"⟩
  have isFault : diamond.IsFault "stray" ⟨[], [], "stray"⟩ loop :=
    ⟨.root known, ⟨_, 0, _, rfl, rfl, rfl, rfl, rfl⟩, .inr (List.mem_singleton_self _)⟩
  obtain ⟨-, -, -, -, ⟨sound, -⟩ | ⟨owner, fault, error, first, failed, -, cyclic⟩⟩ :=
    (render_follows_expansion diamond diamond_hasOwnNames diamond_hasTextualSteps
      diamond_hasTextualConditions .null layer "stray").2 known
  · exact (sound _ _ isFault).elim
  · have same : loop = fault := by
      rcases first.first _ _ isFault with same | before
      · exact same
      · obtain ⟨-, ⟨-, index, -, -, -, -, address, -⟩, -⟩ := first.isFault
        rw [address] at before
        cases other : owner.address <;> simp [other, loop, List.cons_lt_cons_iff] at before
    subst same
    obtain ⟨-, -, noticed⟩ := cyclic (List.mem_singleton_self _)
    exact ⟨error, failed, noticed⟩

end Taskbook.Registry
