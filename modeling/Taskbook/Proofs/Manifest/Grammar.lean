/-
The grammar of manifests.

A manifest is a mapping with variables and tasks, a task a mapping with six fields, a step a mapping
with four. What counts as nothing may stand for an empty mapping or an empty list. Where all keys
are texts, what is read has this form, and it is read task by task and field by field.
-/

import Mathlib.Logic.Relation
import Taskbook.Proofs.Manifest.Reporting

namespace Taskbook

open Relation

/-! ### Values whose keys are texts -/

namespace Value

/-- The parts of a collection, the keys of a mapping among them. -/
def parts (value : Value) : List Value :=
  match value.opened with
  | list _ items => items
  | pair _ first second => [first, second]
  | set _ items => items
  | map _ entries => entries.map Prod.fst ++ entries.map Prod.snd
  | _ => []

/-- A value is another or inside it, however deep. -/
def IsInside (inner outer : Value) : Prop :=
  ReflTransGen (fun whole part => part ∈ whole.parts) outer inner

/-- The keys of some entries are texts, and none of them occurs twice. -/
def AreTextKeyed (entries : List (Value × Value)) : Prop :=
  (∀ entry ∈ entries, ∃ text, entry.1 = .str text) ∧ (entries.map Prod.fst).Nodup

/-- The keys of all mappings in a value are texts. -/
def HasTextKeys (value : Value) : Prop :=
  ∀ inner : Value, inner.IsInside value → ∀ entries, inner.entries? = some entries →
    AreTextKeyed entries

variable {value inner : Value} {entries fields : List (Value × Value)}

theorem HasTextKeys.inside (keyed : value.HasTextKeys) (inside : inner.IsInside value) :
    inner.HasTextKeys :=
  fun further deeper => keyed further (inside.trans deeper)

/-- What holds of a value, and of all that is inside its parts, holds of all that is inside it. -/
theorem forall_inside {holds : Value → Prop} (own : holds value)
    (parts : ∀ part ∈ value.parts, ∀ inner : Value, inner.IsInside part → holds inner) :
    ∀ inner : Value, inner.IsInside value → holds inner := by
  intro inner inside
  rcases inside.cases_head with rfl | ⟨part, member, deeper⟩
  · exact own
  · exact parts part member inner deeper

/-- The keys of a value are texts if its own are, and those of its parts. -/
theorem hasTextKeys_of_parts
    (own : ∀ entries, value.entries? = some entries → AreTextKeyed entries)
    (parts : ∀ part ∈ value.parts, part.HasTextKeys) : value.HasTextKeys :=
  forall_inside own parts

theorem hasTextKeys_of_leaf (none : value.entries? = none) (partless : value.parts = []) :
    value.HasTextKeys := by
  refine hasTextKeys_of_parts (fun entries opened => ?_) fun part member => ?_
  · rw [none] at opened
    cases opened
  · rw [partless] at member
    cases member

theorem hasTextKeys_single (key : String) (keyed : value.HasTextKeys) :
    (ofEntries [(str key, value)]).HasTextKeys := by
  refine hasTextKeys_of_parts (fun entries opened => ?_) fun part member => ?_
  · obtain rfl := Option.some.inj opened
    refine ⟨fun entry member => ?_, List.pairwise_singleton _ _⟩
    obtain rfl := List.mem_singleton.mp member
    exact ⟨key, rfl⟩
  · rcases List.mem_cons.mp member with rfl | inValues
    · exact hasTextKeys_of_leaf rfl rfl
    · obtain rfl := List.mem_singleton.mp inValues
      exact keyed

theorem hasTextKeys_ofItems {items : List Value} (keyed : ∀ item ∈ items, item.HasTextKeys) :
    (ofItems items).HasTextKeys :=
  hasTextKeys_of_parts (fun _ opened => by cases opened) keyed

theorem parts_of_entries? (opened : value.entries? = some entries) :
    value.parts = entries.map Prod.fst ++ entries.map Prod.snd := by
  obtain ⟨anchor, isMap⟩ := exists_map opened
  rw [parts, isMap]

theorem exists_list {items : List Value} (listed : value.items? = some items) :
    ∃ anchor, value.opened = .list anchor items := by
  rw [items?] at listed
  split at listed
  · rename_i anchor _ isList
    obtain rfl := Option.some.inj listed
    exact ⟨anchor, isList⟩
  · cases listed

theorem parts_of_items? {items : List Value} (listed : value.items? = some items) :
    value.parts = items := by
  obtain ⟨anchor, isList⟩ := exists_list listed
  rw [parts, isList]

theorem isInside_of_entry (opened : value.entries? = some entries) {entry : Value × Value}
    (member : entry ∈ entries) : entry.2.IsInside value := by
  refine .single ?_
  rw [parts_of_entries? opened]
  exact List.mem_append_right _ (List.mem_map_of_mem member)

theorem isInside_of_item {items : List Value} (listed : value.items? = some items) {item : Value}
    (member : item ∈ items) : item.IsInside value := by
  refine .single ?_
  rw [parts_of_items? listed]
  exact member

/-- A field is an entry. -/
theorem mem_of_field? {name : String} (found : field? fields name = some value) :
    (str name, value) ∈ fields := by
  induction fields with
  | nil => cases found
  | cons first rest inductionHypothesis =>
    obtain ⟨key, content⟩ := first
    have elsewhere (further : field? rest name = some value) :
        (str name, value) ∈ (key, content) :: rest :=
      List.mem_cons_of_mem _ (inductionHypothesis further)
    cases key with
    | str text =>
      rw [field?] at found
      split at found
      · rename_i same
        obtain rfl := Option.some.inj found
        rw [same]
        exact List.mem_cons_self
      · exact elsewhere found
    | _ => exact elsewhere found

/-- A field is inside its record, or it is null because it is not there. -/
theorem isInside_field {record : Value} (opened : record.entries? = some fields) (name : String) :
    (field fields name).IsInside record ∨ field fields name = null := by
  rw [field]
  cases found : field? fields name with
  | none => exact Or.inr rfl
  | some value => exact Or.inl (isInside_of_entry opened (mem_of_field? found))

/-! ### What stands for nothing -/

/-- A value holds some entries: it is a mapping of them, or counts as nothing and there are none. -/
def Holds (value : Value) (entries : List (Value × Value)) : Prop :=
  value.entries? = some entries ∨ value.isTruthy = false ∧ entries = []

/-- A value lists some items: it is a list of them, or counts as nothing and there are none. -/
def Lists (value : Value) (items : List Value) : Prop :=
  value.items? = some items ∨ value.isTruthy = false ∧ items = []

/-- The parts of a value, or of an empty collection where the value counts as nothing. -/
theorem parts?_orElse_eq_some {α : Type} {parts? : Value → Option (List α)} {empty : Value}
    {items : List α} (none : parts? empty = some [])
    (truthy : ∀ items, parts? value = some items → value.isTruthy = !items.isEmpty) :
    parts? (value.orElse empty) = some items ↔
      parts? value = some items ∨ value.isTruthy = false ∧ items = [] := by
  rw [orElse]
  split
  · rename_i given
    simp [given]
  · rename_i absent
    have nothing : value.isTruthy = false := by simpa using absent
    rw [none, nothing, Option.some.injEq, eq_self, true_and, eq_comm]
    refine (or_iff_right_of_imp fun opened => ?_).symm
    rw [truthy items opened] at nothing
    simpa using nothing

theorem mappingAt?_eq_some {name : String} :
    mappingAt? fields name = some entries ↔ (field fields name).Holds entries :=
  parts?_orElse_eq_some rfl fun _ => isTruthy_of_entries?

theorem isTruthy_of_items? {items : List Value} (listed : value.items? = some items) :
    value.isTruthy = !items.isEmpty := by
  obtain ⟨anchor, isList⟩ := exists_list listed
  rw [isTruthy, isList]

theorem listAt?_eq_some {name : String} {items : List Value} :
    listAt? fields name = some items ↔ (field fields name).Lists items :=
  parts?_orElse_eq_some rfl fun _ => isTruthy_of_items?

end Value

/-! ### The grammar -/

/-- A value declares variables: it holds entries whose keys can name variables. -/
def Env.IsDeclaration (value : Value) : Prop :=
  ∃ entries, value.Holds entries ∧ ∀ entry ∈ entries, Env.IsName entry.1

/-- A value names a band: by its code, or by its name in any case, with blanks around it. -/
def Category.IsNamedBy (band : Category) (given : Value) : Prop :=
  ∃ text, given.text = .ok text ∧
    (Text.strip text = band.code ∨ Text.capitalize (Text.strip text) = band.capitals)

/-- The form of a step. -/
structure Step.IsGrammatical (fields : List (Value × Value)) : Prop where
  only : HasOnly keys fields
  acts : ActsOnce fields
  env : Env.IsDeclaration (Value.field fields "env")

/-- The form of the task of a name. -/
structure Task.IsGrammatical (name : String) (fields : List (Value × Value)) : Prop where
  only : Step.HasOnly Registry.taskKeys fields
  declared : ∀ value, Value.field? fields "name" = some value → value = .str name
  category : Value.field fields "category" = .null ∨
    ∃ band : Category, band.IsNamedBy (Value.field fields "category")
  env : Env.IsDeclaration (Value.field fields "env")
  steps : ∃ records, (Value.field fields "steps").Lists records ∧
    ∀ record ∈ records, ∃ entries, record.entries? = some entries ∧ Step.IsGrammatical entries

/-- The form of a manifest. -/
structure Registry.IsGrammatical (fields : List (Value × Value)) : Prop where
  env : Env.IsDeclaration (Value.field fields "env")
  tasks : ∃ entries, (Value.field fields "tasks").Holds entries ∧
    ∀ entry ∈ entries, ∃ name record, entry.1 = .str name ∧ isTaskName name = true ∧
      entry.2.entries? = some record ∧ Task.IsGrammatical name record

/-- A value is a mapping that has the form of a manifest. -/
def Registry.IsManifest (manifest : Value) : Prop :=
  ∃ fields, manifest.entries? = some fields ∧ IsGrammatical fields

/-! ### What is read -/

/-- An entry sets a variable to the text of its value. -/
def Env.Sets (entry : Value × Value) (assigned : String × String) : Prop :=
  entry.1 = .str assigned.1 ∧ entry.2.text = .ok assigned.2

/-- The variables of an environment are those of a value, one by one. -/
def Env.IsReadFrom (env : Env) (value : Value) : Prop :=
  ∃ entries, value.Holds entries ∧ List.Forall₂ Sets entries env

/-- A step has the fields of a record. -/
structure Step.IsReadFrom (step : Step) (fields : List (Value × Value)) : Prop where
  command : step.command = Value.field fields "exec"
  target : step.target?.getD .null = Value.field fields "exec_task"
  label : step.label = Value.field fields "name"
  env : step.env.IsReadFrom (Value.field fields "env")

/-- A task has a name and the fields of a record. -/
structure Task.IsReadFrom (task : Task) (name : String) (fields : List (Value × Value)) : Prop where
  name : task.name = .str name
  category : ∀ band, task.category = some band ↔ band.IsNamedBy (Value.field fields "category")
  description : task.description = Value.field fields "description"
  env : task.env.IsReadFrom (Value.field fields "env")
  steps : ∃ records, (Value.field fields "steps").Lists records ∧
    List.Forall₂ (fun record step => ∃ entries, record.entries? = some entries ∧
      Step.IsReadFrom step entries) records task.steps
  condition : task.condition = Value.field fields "condition"

/-- A registry has the variables of a manifest, and a task for each of its entries in their order. -/
structure Registry.IsReadFrom (registry : Registry) (fields : List (Value × Value)) : Prop where
  env : registry.env.IsReadFrom (Value.field fields "env")
  tasks : ∃ entries, (Value.field fields "tasks").Holds entries ∧
    List.Forall₂ (fun entry known => entry.1 = .str known.1 ∧ ∃ record,
      entry.2.entries? = some record ∧ Task.IsReadFrom known.2 known.1 record)
        entries registry.tasks

/-! ### Bands -/

namespace Category

variable {given : Value} {category : Option Category} {token : String}

theorem accepts_iff {band : Category} : band.accepts token = true ↔
    token = band.code ∨ Text.capitalize token = band.capitals := by
  rw [accepts, Bool.or_eq_true, decide_eq_true_eq, decide_eq_true_eq]

/-- A token is the code or the name of one band at most. -/
theorem eq_of_accepts {first second : Category} (accepted : first.accepts token = true)
    (also : second.accepts token = true) : first = second := by
  have codes (one other : Category) : one.code = other.code → one = other := by
    cases one <;> cases other <;> decide
  have names (one other : Category) : one.capitals = other.capitals → one = other := by
    cases one <;> cases other <;> decide
  have apart (one other : Category) : Text.capitalize one.code ≠ other.capitals := by
    cases one <;> cases other <;> decide
  rcases accepts_iff.mp accepted with rfl | accepted
  · rcases accepts_iff.mp also with also | also
    · exact codes _ _ also
    · exact (apart _ _ also).elim
  · rcases accepts_iff.mp also with rfl | also
    · exact (apart _ _ accepted).elim
    · exact names _ _ (accepted.symm.trans also)

/-- The band that is found for a token is the one that accepts it. -/
theorem find?_eq_some {band : Category} :
    all.find? (·.accepts token) = some band ↔ band.accepts token = true := by
  constructor
  · intro found
    have accepted := List.find?_some found
    exact accepted
  · intro accepted
    have member : band ∈ all := by cases band <;> decide
    obtain ⟨other, found⟩ : ∃ other, all.find? (·.accepts token) = some other :=
      Option.isSome_iff_exists.mp (List.find?_isSome.mpr ⟨band, member, accepted⟩)
    have also := List.find?_some found
    rw [found, eq_of_accepts also accepted]

theorem not_isNamedBy_null (band : Category) : ¬ band.IsNamedBy .null := by
  rintro ⟨text, written, named⟩
  obtain rfl := Except.ok.inj written
  revert named
  cases band <;> decide

/-- A value is read as the band that it names, or as none if it is null. -/
theorem parse_eq_ok : parse given = .ok category ↔
    (given = .null ∨ ∃ band : Category, band.IsNamedBy given) ∧
      ∀ band, category = some band ↔ band.IsNamedBy given := by
  rw [parse]
  split
  · rename_i isNull
    obtain rfl := Value.eq_null_of_isNull isNull
    simp only [true_or, true_and, not_isNamedBy_null, iff_false, Except.ok.injEq]
    rw [← Option.eq_none_iff_forall_ne_some, eq_comm]
  · rename_i notNull
    have isGiven : given ≠ .null := by
      rintro rfl
      exact notNull rfl
    simp only [IsNamedBy, ← accepts_iff, ← find?_eq_some, isGiven, false_or]
    cases given.text with
    | error fault => exact iff_of_false (fun parsed => by cases parsed) fun held => by simp at held
    | ok text =>
      simp only [Except.ok.injEq, exists_eq_left']
      rw [liftFault_ok_bind]
      cases all.find? (·.accepts (Text.strip text)) with
      | none => exact iff_of_false (fun parsed => by cases parsed) fun held => by simp at held
      | some found =>
        show (Except.ok (some found) : Except Error (Option Category)) = .ok category ↔ _
        simp only [Except.ok.injEq, Option.some.injEq, exists_eq', true_and]
        constructor
        · rintro rfl band
          exact Option.some_inj
        · intro same
          exact ((same found).mpr rfl).symm

/-- A value names one band at most. -/
theorem IsNamedBy.unique {first second : Category} (named : first.IsNamedBy given)
    (also : second.IsNamedBy given) : first = second := by
  obtain ⟨text, written, accepted⟩ := named
  obtain ⟨other, otherWritten, otherAccepted⟩ := also
  obtain rfl := Except.ok.inj (written.symm.trans otherWritten)
  exact eq_of_accepts (accepts_iff.mpr accepted) (accepts_iff.mpr otherAccepted)

theorem parse_isOk : (∃ category, parse given = .ok category) ↔
    given = .null ∨ ∃ band : Category, band.IsNamedBy given := by
  constructor
  · rintro ⟨category, parsed⟩
    exact (parse_eq_ok.mp parsed).1
  · rintro (rfl | ⟨band, named⟩)
    · exact ⟨none, rfl⟩
    · refine ⟨some band, parse_eq_ok.mpr ⟨Or.inr ⟨band, named⟩, fun other => ?_⟩⟩
      rw [Option.some_inj]
      exact ⟨fun same => same ▸ named, fun also => named.unique also⟩

end Category

/-! ### What is read has the form -/

/-- What comes of some items comes of them one by one. -/
theorem forall₂_of_mapM {α β : Type} {change : α → Except Error β} {items : List α}
    {results : List β} {fits : α → β → Prop}
    (each : ∀ item ∈ items, ∀ result, change item = .ok result → fits item result)
    (made : items.mapM change = .ok results) : List.Forall₂ fits items results := by
  induction items generalizing results with
  | nil =>
    obtain rfl := Except.ok.inj made
    exact .nil
  | cons first rest inductionHypothesis =>
    obtain ⟨firstFits, restFit⟩ := List.forall_mem_cons.mp each
    rw [List.mapM_cons] at made
    obtain ⟨result, changed, made⟩ := bind_eq_ok.mp made
    obtain ⟨others, further, same⟩ := bind_eq_ok.mp made
    obtain rfl := Except.ok.inj same
    exact .cons (firstFits result changed) (inductionHypothesis restFit further)

namespace Env

variable {env changed : Env} {entries : List (Value × Value)}

theorem exists_of_assign {entry : Value × Value}
    (assigned : env.assign entry.1 entry.2 = .ok changed) :
    ∃ set, Sets entry set ∧ changed = Ordered.put env set.1 set.2 := by
  obtain ⟨name, checked, assigned⟩ := bind_eq_ok.mp assigned
  obtain ⟨text, written, assigned⟩ := bind_eq_ok.mp assigned
  exact ⟨(name, text), ⟨(checkName_eq_ok checked).1, orFault_eq_ok.mp written⟩,
    (Except.ok.inj assigned).symm⟩

/-- The variables that are read are those of the entries, since no key occurs twice. -/
theorem forall₂_of_ofEntries (distinct : (entries.map Prod.fst).Nodup)
    (made : ofEntries entries = .ok env) : List.Forall₂ Sets entries env := by
  -- No name so far is a key to come, so each variable is new and goes to the end.
  have onTop (others : List (Value × Value)) (start made : Env)
      (apart : (start.keys.map Value.str ++ others.map Prod.fst).Nodup)
      (folded : others.foldlM (fun env entry => Env.assign env entry.1 entry.2) start = .ok made) :
      ∃ rest, made = start ++ rest ∧ List.Forall₂ Sets others rest := by
    induction others generalizing start with
    | nil =>
      obtain rfl := Except.ok.inj folded
      exact ⟨[], (List.append_nil _).symm, .nil⟩
    | cons entry others inductionHypothesis =>
      rw [List.foldlM_cons] at folded
      obtain ⟨next, assigned, folded⟩ := bind_eq_ok.mp folded
      obtain ⟨set, sets, rfl⟩ := exists_of_assign assigned
      have fresh : set.1 ∉ start.keys := by
        intro known
        refine (List.nodup_append.mp apart).2.2 _ (List.mem_map_of_mem known) entry.1 ?_ sets.1.symm
        exact List.mem_cons_self
      rw [Ordered.put_of_not_mem fresh] at folded
      have further : (Ordered.keys (start ++ [set])).map Value.str ++ others.map Prod.fst =
          start.keys.map Value.str ++ (entry :: others).map Prod.fst := by
        simp [Ordered.keys, sets.1]
      obtain ⟨rest, rfl, read⟩ := inductionHypothesis (start ++ [set]) (further ▸ apart) folded
      exact ⟨set :: rest, by rw [List.append_assoc, List.singleton_append], .cons sets read⟩
  obtain ⟨rest, rfl, read⟩ := onTop entries [] env distinct made
  exact read

/-- A mapping that is read declares the variables that are read from it. -/
theorem isReadFrom_of_ofEntries {value : Value} (holds : value.Holds entries)
    (keyed : Value.AreTextKeyed entries) (made : ofEntries entries = .ok env) :
    IsDeclaration value ∧ env.IsReadFrom value := by
  have set := ofEntries_isOk.mp ⟨env, made⟩
  exact ⟨⟨entries, holds, fun entry member => (set entry member).1⟩,
    entries, holds, forall₂_of_ofEntries keyed.2 made⟩

end Env

namespace Value

/-- What holds of all entries inside a record holds of those that a field of it holds, if it holds
of none. -/
theorem holds_of_mappingAt? {holds : List (Value × Value) → Prop} {record : Value}
    {fields entries : List (Value × Value)}
    (all : ∀ inner : Value, inner.IsInside record → ∀ entries, inner.entries? = some entries →
      holds entries)
    (nothing : holds []) (opened : record.entries? = some fields) {name : String}
    (given : mappingAt? fields name = some entries) : holds entries := by
  rcases mappingAt?_eq_some.mp given with held | ⟨-, rfl⟩
  · rcases isInside_field opened name with inside | isNull
    · exact all _ inside entries held
    · rw [isNull] at held
      cases held
  · exact nothing

/-- What a field of a record with text keys holds has text keys. -/
theorem HasTextKeys.areTextKeyed {record : Value} {fields entries : List (Value × Value)}
    (keyed : record.HasTextKeys) (opened : record.entries? = some fields) {name : String}
    (given : mappingAt? fields name = some entries) : AreTextKeyed entries :=
  holds_of_mappingAt? keyed
    ⟨fun _ member => (List.not_mem_nil member).elim, List.nodup_nil⟩ opened given

/-- A value in a field is inside the record. -/
theorem isInside_of_mappingAt? {record : Value} {fields entries : List (Value × Value)}
    (opened : record.entries? = some fields) {name : String}
    (given : mappingAt? fields name = some entries) {entry : Value × Value}
    (member : entry ∈ entries) : entry.2.IsInside record := by
  rcases mappingAt?_eq_some.mp given with held | ⟨-, rfl⟩
  · rcases isInside_field opened name with inside | isNull
    · exact inside.trans (isInside_of_entry held member)
    · rw [isNull] at held
      cases held
  · cases member

theorem isInside_of_listAt? {record item : Value} {fields : List (Value × Value)}
    {items : List Value} (opened : record.entries? = some fields) {name : String}
    (listed : listAt? fields name = some items) (member : item ∈ items) :
    item.IsInside record := by
  rcases listAt?_eq_some.mp listed with held | ⟨-, rfl⟩
  · rcases isInside_field opened name with inside | isNull
    · exact inside.trans (isInside_of_item held member)
    · rw [isNull] at held
      cases held
  · cases member

end Value

namespace Step

variable {record : Value} {step : Step}

/-- A record that is read has the form of a step, and the step has its fields. -/
theorem isReadFrom_of_ofRecord (keyed : record.HasTextKeys) (read : ofRecord record = .ok step) :
    (∃ fields, record.entries? = some fields ∧ IsGrammatical fields) ∧
      ∃ fields, record.entries? = some fields ∧ step.IsReadFrom fields := by
  rw [ofRecord] at read
  split at read
  · rename_i fields opened
    obtain ⟨⟨⟩, checked, read⟩ := bind_eq_ok.mp read
    obtain ⟨value, mapped, made⟩ := bind_eq_ok.mp read
    obtain ⟨rfl, entries, given⟩ := mappingField_eq_ok.mp mapped
    obtain ⟨command, target, label, acts, described⟩ := make_eq_ok.mp made
    have isMap : ((Value.field fields "env").orElse (.ofEntries [])).entries? = some entries := given
    rw [Env.ofValue_of_entries? isMap] at described
    obtain ⟨declares, env⟩ := Env.isReadFrom_of_ofEntries (Value.mappingAt?_eq_some.mp given)
      (keyed.areTextKeyed opened given) described
    refine ⟨⟨fields, opened, checkKeys_eq_ok.mp checked, ?_, declares⟩,
      fields, opened, command, target, label, env⟩
    have consistent : step.IsConsistent := ⟨acts, Env.isValid_of_ofEntries described⟩
    rw [ActsOnce, ← command, ← target]
    exact consistent.command_or_target
  · cases read

end Step

namespace Registry

variable {registry : Registry}

/-- An entry that describes a task has the form of one, and the task has its fields. -/
theorem DescribesEntry.isReadFrom {entry : Value × Value} {known : String × Task}
    (describes : DescribesEntry entry known) (textual : ∃ text, entry.1 = .str text)
    (keyed : entry.2.HasTextKeys) :
    (∃ name record, entry.1 = .str name ∧ isTaskName name = true ∧
        entry.2.entries? = some record ∧ Task.IsGrammatical name record) ∧
      entry.1 = .str known.1 ∧ ∃ record, entry.2.entries? = some record ∧
        known.2.IsReadFrom known.1 record := by
  obtain
    ⟨called, fields, value, records, checked, description, parsed, condition, described, read⟩ :=
    describes.describes
  obtain ⟨settings, isMap, shaped⟩ := isRecord_of_checkRecord checked
  rw [Env.ofValue_of_entries? isMap] at described
  obtain ⟨declares, env⟩ := Env.isReadFrom_of_ofEntries (Value.mappingAt?_eq_some.mp shaped.given)
    (keyed.areTextKeyed shaped.opened shaped.given) described
  obtain ⟨isCategory, category⟩ := Category.parse_eq_ok.mp parsed
  obtain ⟨stepsGrammatical, stepsRead⟩ := (List.forall₂_and_left records known.2.steps).mp
    (forall₂_of_mapM (fun record member step made => Step.isReadFrom_of_ofRecord
      (keyed.inside (Value.isInside_of_listAt? shaped.opened shaped.listed member)) made) read)
  have lists := Value.listAt?_eq_some.mp shaped.listed
  have isText : entry.1 = .str known.1 := by
    obtain ⟨text, isText⟩ := textual
    have key := describes.key
    rw [isText] at key ⊢
    exact congrArg Value.str (Except.ok.inj key)
  exact ⟨⟨known.1, fields, isText, describes.named, shaped.opened, shaped.only, shaped.declared,
      isCategory, declares, records, lists, stepsGrammatical⟩,
    isText, fields, shaped.opened, called, category, description, env,
      ⟨records, lists, stepsRead⟩, condition⟩

/-- A manifest that is read has the form of one, and the registry has its fields. -/
theorem isReadFrom_of_ofManifest {manifest : Value} (keyed : manifest.HasTextKeys)
    (read : (ofManifest manifest).result = .ok registry) :
    ∃ fields, manifest.entries? = some fields ∧ IsGrammatical fields ∧
      registry.IsReadFrom fields := by
  obtain ⟨-, fields, value, entries, opened, mapped, described, listed, describe⟩ :=
    ofManifest_eq_ok.mp read
  obtain ⟨rfl, settings, given⟩ := Step.mappingField_eq_ok.mp mapped
  have isMap : ((Value.field fields "env").orElse (.ofEntries [])).entries? = some settings := given
  rw [Env.ofValue_of_entries? isMap] at described
  obtain ⟨declares, env⟩ := Env.isReadFrom_of_ofEntries (Value.mappingAt?_eq_some.mp given)
    (keyed.areTextKeyed opened given) described
  have tasks : Value.mappingAt? fields "tasks" = some entries := listed
  have holds := Value.mappingAt?_eq_some.mp tasks
  obtain ⟨keys, -⟩ := keyed.areTextKeyed opened tasks
  have known : ∀ entry ∈ entries, (∃ text, entry.1 = .str text) ∧ entry.2.HasTextKeys :=
    fun entry member => ⟨keys entry member,
      keyed.inside (Value.isInside_of_mappingAt? opened tasks member)⟩
  have describe := (List.forall₂_and_left entries registry.tasks).mpr ⟨known, describe⟩
  obtain ⟨tasksGrammatical, tasksRead⟩ := (List.forall₂_and_left entries registry.tasks).mp
    (describe.imp fun entry task held => held.2.isReadFrom held.1.1 held.1.2)
  exact ⟨fields, opened, ⟨declares, entries, holds, tasksGrammatical⟩, env, entries, holds,
    tasksRead⟩

end Registry

end Taskbook
