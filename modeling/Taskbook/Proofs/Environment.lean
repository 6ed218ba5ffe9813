/-
Environments as entries of mappings.

The layers of a rendering are merged as mappings of any values and written as texts then. On
environments, which are texts already, this is merging them as they are.

An environment that has been made from a mapping sets each of its variables once, under a name
that a variable can have. Such an environment is what its own entries describe.
-/

import Taskbook.Proofs.Ordered
import Taskbook.Proofs.Outcome
import Taskbook.Rendering

namespace Taskbook

/-- What goes on from an argument succeeds where it can be asked and the rest does from there. -/
theorem Argument.asked_bind_eq_ok {α : Type} {argument : Argument} {next : Value → Except Error α}
    {result : α} : (orFault argument.asked >>= next) = .ok result ↔
      ∃ given, argument = .value given ∧ next given = .ok result := by
  cases argument with
  | value given =>
    constructor
    · intro made
      exact ⟨given, rfl, made⟩
    · rintro ⟨_, ⟨⟩, made⟩
      exact made
  | refusing fault =>
    refine iff_of_false nofun ?_
    rintro ⟨_, ⟨⟩, _⟩

/-- Texts are equal as keys of mappings exactly if they are equal. -/
theorem Value.str_beq (first second : String) :
    (Value.str first == Value.str second) = (first == second) := by
  show Value.same (.str first) (.str second) = decide (first = second)
  simp only [Value.same, Value.sameScalar]

/-- A text is equal, as a key of mappings, to nothing but itself. -/
theorem Value.isSharp_str (text : String) : Ordered.IsSharp (Value.str text) := by
  intro other
  show Value.same other (.str text) = true ↔ _
  cases other with
  | str written => simp [Value.same, Value.sameScalar]
  | _ => simp [Value.same, Value.sameScalar, Value.compareNumbers?, Value.integer?]

namespace Env

/-- Environments merge as their entries do. -/
theorem entries_mergeAll (layers : List Env) :
    Ordered.mergeAll (layers.map Env.entries) = Env.entries (Ordered.mergeAll layers) :=
  Ordered.map_mergeAll Value.str_beq layers

theorem entryTexts_entries (env : Env) : entryTexts env.entries = .ok env := by
  induction env with
  | nil => rfl
  | cons first rest inductionHypothesis =>
    have step : entryTexts (Env.entries (first :: rest)) =
        (entryTexts (Env.entries rest)).map (first :: ·) := by
      rw [entryTexts, Env.entries, List.map_cons, List.mapM_cons]
      rfl
    rw [step, inductionHypothesis]
    rfl

/-- Where no base is given, no variable is set. -/
theorem layer_null : Value.null.layer = .ok (entries []) := rfl

/-- As a mapping, an environment is the layer of its entries. -/
theorem layer_toValue (env : Env) : env.toValue.layer = .ok env.entries := by
  cases env with
  | nil => rfl
  | cons first rest => rfl

/-! ### What a mapping describes -/

/-- An environment whose variables can be set, each of them once. -/
structure IsValid (env : Env) : Prop where
  named : ∀ entry ∈ env, isVariableName entry.1 = true
  distinct : (Ordered.keys env).Nodup

theorem isValid_nil : IsValid [] where
  named := fun _ member => (List.not_mem_nil member).elim
  distinct := List.nodup_nil

theorem checkName_eq_ok {name : Value} {text : String} (checked : checkName name = .ok text) :
    name = .str text ∧ isVariableName text = true := by
  unfold checkName at checked
  split at checked
  · split at checked
    · rename_i named
      obtain rfl := Except.ok.inj checked
      exact ⟨rfl, named⟩
    · cases checked
  · cases checked

/-- Setting a variable that can be set keeps an environment valid. -/
theorem IsValid.put {env : Env} (valid : env.IsValid) {key : String}
    (named : isVariableName key = true) (text : String) : IsValid (Ordered.put env key text) := by
  refine ⟨fun entry member => ?_, Ordered.nodup_put valid.distinct key text⟩
  rcases Ordered.mem_put member with before | ⟨-, rfl | same⟩
  · exact valid.named entry before
  · exact named
  · rw [eq_of_beq same]
    exact named

theorem IsValid.assign {env changed : Env} (valid : env.IsValid) {name value : Value}
    (assigned : env.assign name value = .ok changed) : changed.IsValid := by
  obtain ⟨key, checked, assigned⟩ := bind_eq_ok.mp assigned
  obtain ⟨text, -, assigned⟩ := bind_eq_ok.mp assigned
  obtain rfl := Except.ok.inj assigned
  exact valid.put (checkName_eq_ok checked).2 text

theorem isValid_of_ofEntries {entries : List (Value × Value)} {env : Env}
    (made : ofEntries entries = .ok env) : env.IsValid := by
  have onTop (items : List (Value × Value)) (start : Env) (startValid : start.IsValid)
      (folded : items.foldlM (fun env entry => Env.assign env entry.1 entry.2) start =
        .ok env) : env.IsValid := by
    induction items generalizing start with
    | nil =>
      obtain rfl := Except.ok.inj folded
      exact startValid
    | cons entry rest inductionHypothesis =>
      rw [List.foldlM_cons] at folded
      obtain ⟨next, assigned, folded⟩ := bind_eq_ok.mp folded
      exact inductionHypothesis next (startValid.assign assigned) folded
  exact onTop entries [] isValid_nil made

theorem isValid_of_ofValue {value : Value} {env : Env} (made : ofValue value = .ok env) :
    env.IsValid := by
  unfold ofValue at made
  split at made
  · split at made
    · exact isValid_of_ofEntries made
    · cases made
  · obtain rfl := Except.ok.inj made
    exact isValid_nil

@[simp]
theorem ofArgument_value (given : Value) : ofArgument (.value given) = ofValue given :=
  rfl

/-- The environment of an argument is that of its value. -/
theorem ofArgument_eq_ok {argument : Argument} {env : Env} :
    ofArgument argument = .ok env ↔ ∃ given, argument = .value given ∧ ofValue given = .ok env :=
  Argument.asked_bind_eq_ok

theorem isValid_of_ofArgument {argument : Argument} {env : Env}
    (made : ofArgument argument = .ok env) : env.IsValid := by
  obtain ⟨given, -, described⟩ := ofArgument_eq_ok.mp made
  exact isValid_of_ofValue described

/-- The entries of a valid environment describe it. -/
theorem IsValid.ofEntries_entries {env : Env} (valid : env.IsValid) :
    ofEntries env.entries = .ok env := by
  have onTop (start rest : Env) (named : ∀ entry ∈ rest, isVariableName entry.1 = true)
      (distinct : (Ordered.keys (start ++ rest)).Nodup) :
      (Env.entries rest).foldlM (fun env entry => Env.assign env entry.1 entry.2) start =
        .ok (start ++ rest) := by
    induction rest generalizing start with
    | nil => rw [List.append_nil]; rfl
    | cons entry others inductionHypothesis =>
      obtain ⟨key, text⟩ := entry
      have fresh : key ∉ Ordered.keys start := Ordered.not_mem_keys_of_nodup distinct
      have whole : start ++ (key, text) :: others = start ++ [(key, text)] ++ others := by
        rw [List.append_assoc, List.singleton_append]
      have assigned : Env.assign start (.str key) (.str text) = .ok (start ++ [(key, text)]) := by
        rw [Env.assign, checkName, if_pos (named (key, text) List.mem_cons_self), ok_bind]
        show Except.ok (Ordered.put start key text) = _
        rw [Ordered.put_of_not_mem fresh]
      rw [whole] at distinct ⊢
      rw [← inductionHypothesis _ (fun other member => named other (List.mem_cons_of_mem _ member))
        distinct]
      show (Env.assign start (.str key) (.str text) >>= fun env =>
        (Env.entries others).foldlM (fun env entry => Env.assign env entry.1 entry.2) env) = _
      rw [assigned, ok_bind]
  exact onTop [] env valid.named valid.distinct

/-- So does the mapping of them, whatever its anchor. -/
theorem IsValid.ofValue_map {env : Env} (valid : env.IsValid) (anchor : Option Nat) :
    ofValue (.map anchor env.entries) = .ok env := by
  cases env with
  | nil => rfl
  | cons entry rest =>
    exact valid.ofEntries_entries

end Env

/-- Over a base that is an environment, what is set are the merged environments. -/
theorem Registry.bindings_eq_mergeAll {base : Value} {lowest : Env}
    (layered : base.layer = .ok lowest.entries) (layers : List Env) :
    Registry.bindings base layers = .ok (Ordered.mergeAll (lowest :: layers)) := by
  rw [Registry.bindings, layered, ok_bind, ← List.map_cons, Env.entries_mergeAll,
    Env.entryTexts_entries]

/-- Over such a base, a task that can be gated is framed by them. -/
theorem Registry.frame_of_layer {registry : Registry} {base : Value} {lowest overlay : Env}
    {task : Task} {fragments : List Shell.Script} {body : Shell.Row}
    (layered : base.layer = .ok lowest.entries)
    (gate : Registry.gated task.condition (.chain (fragments.map .subshell)) = .ok body) :
    registry.frame base overlay task fragments = .ok (.subshell (.exports
      (Ordered.mergeAll [lowest, registry.env, task.env, overlay]) body)) := by
  rw [Registry.frame, gate, ok_bind, Registry.bindings_eq_mergeAll layered, ok_bind]
  rfl

end Taskbook
