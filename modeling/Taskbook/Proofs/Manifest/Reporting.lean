/-
Which manifests cannot be answered.

A caller who has a manifest read gets a registry, or an error that tells what is wrong. There is a
third case, since what is wrong may be something that cannot be named: a value that cannot be
written, or keys that have no order to be listed in. It is the first thing that is wrong which
matters, so the cases are given in the order in which a manifest is read.
-/

import Taskbook.Proofs.Manifest.Description
import Taskbook.Proofs.Reporting

namespace Taskbook

/-! ### Variables -/

theorem Value.exists_map {value : Value} {entries : List (Value × Value)}
    (opened : value.entries? = some entries) : ∃ anchor, value.opened = .map anchor entries := by
  rw [Value.entries?] at opened
  split at opened
  · rename_i anchor _ isMap
    obtain rfl := Option.some.inj opened
    exact ⟨anchor, isMap⟩
  · cases opened

/-- A mapping counts as given if there is something in it. -/
theorem Value.isTruthy_of_entries? {value : Value} {entries : List (Value × Value)}
    (opened : value.entries? = some entries) : value.isTruthy = !entries.isEmpty := by
  obtain ⟨anchor, isMap⟩ := Value.exists_map opened
  rw [Value.isTruthy, isMap]

/-- A value that does not count as given has no entries to be lost. -/
theorem Value.entries?_orElse (value : Value) :
    (value.orElse (.ofEntries [])).entries?.getD [] = value.entries?.getD [] := by
  rw [Value.orElse]
  split
  · rfl
  · rename_i absent
    cases opened : value.entries? with
    | none => rfl
    | some entries =>
      rw [Value.isTruthy_of_entries? opened] at absent
      have empty : entries = [] := by simpa using absent
      rw [empty]
      rfl

/-- The entries of a field that must be a mapping if it is given at all. -/
def Value.mappingAt? (fields : List (Value × Value)) (name : String) :
    Option (List (Value × Value)) :=
  ((Value.field fields name).orElse (.ofEntries [])).entries?

/-- The items of a field that must be a list if it is given at all. -/
def Value.listAt? (fields : List (Value × Value)) (name : String) : Option (List Value) :=
  ((Value.field fields name).orElse (.ofItems [])).items?

namespace Env

/-- A value that names a variable. -/
def IsName (value : Value) : Prop :=
  ∃ name, value = .str name ∧ isVariableName name = true

/-- An entry that sets a variable to a text. -/
def IsSetting (entry : Value × Value) : Prop :=
  IsName entry.1 ∧ entry.2.IsWritable

/-- The first entry of a mapping that sets no variable has a key that cannot be named, or a value
that cannot be written. -/
def IsUnreportable (entries : List (Value × Value)) : Prop :=
  StopsAt IsSetting
    (fun entry => ¬ entry.1.HasLiteral ∨ IsName entry.1 ∧ ¬ entry.2.IsWritable) entries

variable {env : Env} {entries : List (Value × Value)}

theorem checkName_isOk {name : Value} : (∃ text, checkName name = .ok text) ↔ IsName name := by
  constructor
  · rintro ⟨text, checked⟩
    exact ⟨text, checkName_eq_ok checked⟩
  · rintro ⟨text, rfl, named⟩
    exact ⟨text, if_pos named⟩

theorem isUnreported_checkName {name : Value} :
    IsUnreported (checkName name) ↔ ¬ name.HasLiteral := by
  have refused : IsUnreported (.error (.variableName name) : Except Error String) ↔
      ¬ name.HasLiteral := Value.isUnreported_of_naming rfl
  unfold checkName
  split
  · rename_i text
    split
    · exact iff_of_false (not_isUnreported_ok text) (not_not_intro (Value.hasLiteral_str text))
    · exact refused
  · exact refused

theorem assign_isOk {name value : Value} :
    (∃ changed, env.assign name value = .ok changed) ↔ IsSetting (name, value) := by
  rw [IsSetting, ← checkName_isOk]
  constructor
  · rintro ⟨changed, assigned⟩
    obtain ⟨key, checked, assigned⟩ := bind_eq_ok.mp assigned
    obtain ⟨text, written, -⟩ := bind_eq_ok.mp assigned
    exact ⟨⟨key, checked⟩, text, orFault_eq_ok.mp written⟩
  · rintro ⟨⟨key, checked⟩, text, written⟩
    refine ⟨env.put key text, ?_⟩
    dsimp only at checked written
    rw [assign, checked, ok_bind, written]
    rfl

theorem isUnreported_assign {name value : Value} :
    IsUnreported (env.assign name value) ↔
      ¬ name.HasLiteral ∨ IsName name ∧ ¬ value.IsWritable := by
  rw [assign, isUnreported_bind, isUnreported_checkName, ← checkName_isOk, ← exists_and_right]
  refine or_congr_right (exists_congr fun key => and_congr_right fun _ => ?_)
  exact (isUnreported_bind_of_isOk fun _ => ⟨_, rfl⟩).trans isUnreported_orFault

/-- The entries of a mapping make an environment if each of them sets a variable. -/
theorem foldlM_assign_isOk (env : Env) :
    (∃ made, entries.foldlM (fun env entry => Env.assign env entry.1 entry.2) env = .ok made) ↔
      ∀ entry ∈ entries, IsSetting entry := by
  induction entries generalizing env with
  | nil => exact iff_of_true ⟨env, rfl⟩ fun entry member => (List.not_mem_nil member).elim
  | cons entry rest inductionHypothesis =>
    rw [List.forall_mem_cons, List.foldlM_cons, ← @assign_isOk env entry.1 entry.2]
    simp only [bind_eq_ok]
    constructor
    · rintro ⟨made, next, assigned, folded⟩
      exact ⟨⟨next, assigned⟩, (inductionHypothesis next).mp ⟨made, folded⟩⟩
    · rintro ⟨⟨next, assigned⟩, others⟩
      obtain ⟨made, folded⟩ := (inductionHypothesis next).mpr others
      exact ⟨made, next, assigned, folded⟩

theorem ofEntries_isOk :
    (∃ made, ofEntries entries = .ok made) ↔ ∀ entry ∈ entries, IsSetting entry :=
  foldlM_assign_isOk []

theorem isUnreported_ofEntries : IsUnreported (ofEntries entries) ↔ IsUnreportable entries := by
  rw [ofEntries, isUnreported_foldlM]
  constructor
  · rintro ⟨before, entry, after, last, rfl, folded, unreported⟩
    exact ⟨before, entry, after, rfl, ofEntries_isOk.mp ⟨last, folded⟩,
      isUnreported_assign.mp unreported⟩
  · rintro ⟨before, entry, after, rfl, set, unreportable⟩
    obtain ⟨last, folded⟩ := ofEntries_isOk.mpr set
    exact ⟨before, entry, after, last, rfl, folded, isUnreported_assign.mpr unreportable⟩

/-- A mapping describes the environment that its entries make. -/
theorem ofValue_of_entries? {value : Value} (opened : value.entries? = some entries) :
    ofValue value = ofEntries entries := by
  rw [ofValue, opened, Value.isTruthy_of_entries? opened]
  cases entries with
  | nil => rfl
  | cons first rest => rfl

theorem failsOnly_ofEntries {conflicts : Prop} (entries : List (Value × Value)) :
    FailsOnly (IsRefusal conflicts) (ofEntries entries) := by
  have named (name : Value) : FailsOnly (IsRefusal conflicts) (checkName name) := by
    unfold checkName
    split
    · split
      · exact failsOnly_ok _
      · exact failsOnly_error (Or.inl rfl)
    · exact failsOnly_error (Or.inl rfl)
  exact failsOnly_foldlM fun _ entry _ env _ _ => (named entry.1).bind fun _ _ =>
    (failsOnly_orFault isRefusal_fault entry.2.text).bind fun _ _ => failsOnly_ok _

theorem failsOnly_ofValue {conflicts : Prop} (value : Value) :
    FailsOnly (IsRefusal conflicts) (ofValue value) := by
  rw [ofValue]
  split
  · split
    · exact failsOnly_ofEntries _
    · exact failsOnly_error (Or.inl rfl)
  · exact failsOnly_ok _

end Env

/-! ### Records -/

namespace Step

variable {fields : List (Value × Value)} {known : List String}

/-- The keys of a record that are not known have no order, or one of them cannot be named. -/
def HasUnreportableKeys (known : List String) (fields : List (Value × Value)) : Prop :=
  Value.sorted? (unsupported fields known) = none ∨
    ∃ key ∈ unsupported fields known, ¬ key.HasLiteral

theorem unsupported_eq_nil : unsupported fields known = [] ↔ HasOnly known fields := by
  rw [unsupported, List.filter_eq_nil_iff, List.forall_mem_map, HasOnly]
  refine forall_congr' fun entry => forall_congr' fun _ => ?_
  split
  · rename_i name same
    rw [same]
    simp
  · rename_i other
    simp only [not_true_eq_false, false_iff]
    rintro ⟨name, -, same⟩
    exact other name same

theorem checkKeys_eq_ok {report : List Value → Error} :
    checkKeys fields known report = .ok () ↔ HasOnly known fields := by
  rw [← unsupported_eq_nil, checkKeys]
  split
  · rename_i none
    exact iff_of_true rfl none
  · rename_i some
    refine iff_of_false ?_ some
    split <;> exact fun failed => by cases failed

theorem isUnreported_checkKeys {report : List Value → Error} {before : String}
    (worded : ∀ keys, (report keys).message = (Value.ofItems keys).literal.map (before ++ ·)) :
    IsUnreported (checkKeys fields known report) ↔ HasUnreportableKeys known fields := by
  rw [HasUnreportableKeys, checkKeys]
  split
  · rename_i none
    rw [none]
    refine iff_of_false (not_isUnreported_ok ()) ?_
    rintro (unsorted | ⟨key, member, -⟩)
    · cases unsorted
    · cases member
  · split
    · rename_i ordered sorted
      rw [Value.isUnreported_of_naming (worded ordered), Value.hasLiteral_ofItems, sorted]
      simp only [Value.mem_of_sorted? sorted, not_forall, exists_prop, reduceCtorEq, false_or]
    · rename_i unsorted
      exact iff_of_true (isUnreported_error.mpr ⟨_, rfl⟩) (Or.inl unsorted)

theorem failsOnly_checkKeys {conflicts : Prop} {report : List Value → Error}
    (invalid : ∀ keys, (report keys).kind = .invalid) :
    FailsOnly (IsRefusal conflicts) (checkKeys fields known report) := by
  unfold checkKeys
  split
  · exact failsOnly_ok ()
  · split
    · exact failsOnly_error (Or.inl (invalid _))
    · exact failsOnly_error (Or.inl rfl)

/-- A field that must be a mapping if it is given at all is read as a mapping. -/
theorem mappingField_eq_ok {name : String} {error : Error} {value : Value} :
    mappingField fields name error = .ok value ↔
      value = (Value.field fields name).orElse (.ofEntries []) ∧
        ∃ entries, Value.mappingAt? fields name = some entries := by
  rw [mappingField, Value.mappingAt?, Value.isMap]
  cases ((Value.field fields name).orElse (.ofEntries [])).entries? with
  | none => exact iff_of_false (fun read => by cases read) (fun held => by simpa using held.2)
  | some entries =>
    simp only [Option.isSome_some, if_true, Except.ok.injEq, Option.some.injEq, exists_eq',
      and_true]
    exact eq_comm

theorem mappingField_cases (fields : List (Value × Value)) (name : String) (error : Error) :
    mappingField fields name error = .error error ∧ Value.mappingAt? fields name = none ∨
      ∃ value entries, mappingField fields name error = .ok value ∧
        Value.mappingAt? fields name = some entries ∧ value.entries? = some entries := by
  cases given : Value.mappingAt? fields name with
  | none =>
    refine Or.inl ⟨?_, rfl⟩
    rw [Value.mappingAt?] at given
    rw [mappingField, Value.isMap, given]
    rfl
  | some entries =>
    exact Or.inr ⟨_, entries, mappingField_eq_ok.mpr ⟨rfl, entries, given⟩, rfl, given⟩

/-- The fields of a record give exactly one of a command and a task to spawn. -/
def ActsOnce (fields : List (Value × Value)) : Prop :=
  (Value.field fields "exec").isNull = !(Value.field fields "exec_task").isNull

/-- The first thing that is wrong with the record of a step cannot be reported. -/
inductive IsUnreportable (record : Value) : Prop
  | keys {fields : List (Value × Value)} (opened : record.entries? = some fields)
      (unreportable : HasUnreportableKeys keys fields)
  | env {fields entries : List (Value × Value)} (opened : record.entries? = some fields)
      (only : HasOnly keys fields) (acts : ActsOnce fields)
      (given : Value.mappingAt? fields "env" = some entries)
      (unreportable : Env.IsUnreportable entries)

theorem isUnreported_make {command target label env : Value} :
    IsUnreported (make command target label env) ↔
      command.isNull = !target.isNull ∧ IsUnreported (Env.ofValue env) := by
  have refused : ¬ IsUnreported (.error .stepAction : Except Error Step) :=
    not_isUnreported_of_message rfl
  have going (action : Action) :
      IsUnreported (Env.ofValue env >>= fun settings => .ok (Step.mk action label settings)) ↔
        IsUnreported (Env.ofValue env) :=
    isUnreported_bind_of_isOk fun _ => ⟨_, rfl⟩
  unfold make
  cases command.isNull <;> cases target.isNull
  · exact iff_of_false refused fun held => by cases held.1
  · exact (going _).trans (and_iff_right rfl).symm
  · exact (going _).trans (and_iff_right rfl).symm
  · exact iff_of_false refused fun held => by cases held.1

theorem isUnreported_ofRecord {record : Value} :
    IsUnreported (ofRecord record) ↔ IsUnreportable record := by
  rw [ofRecord]
  split
  · rename_i fields opened
    rw [isUnreported_bind, isUnreported_checkKeys fun _ => rfl]
    constructor
    · rintro (unreportable | ⟨⟨⟩, checked, unreported⟩)
      · exact .keys opened unreportable
      · rcases mappingField_cases fields "env" .stepEnv with
          ⟨refused, -⟩ | ⟨value, entries, read, given, isMap⟩
        · rw [refused] at unreported
          exact (not_isUnreported_of_message rfl unreported).elim
        · rw [read, ok_bind, isUnreported_make, Env.ofValue_of_entries? isMap,
            Env.isUnreported_ofEntries] at unreported
          exact .env opened (checkKeys_eq_ok.mp checked) unreported.1 given unreported.2
    · rintro (⟨otherOpened, unreportable⟩ | ⟨otherOpened, only, acts, given, unreportable⟩)
      · rw [opened] at otherOpened
        obtain rfl := Option.some.inj otherOpened
        exact Or.inl unreportable
      · rw [opened] at otherOpened
        obtain rfl := Option.some.inj otherOpened
        refine Or.inr ⟨(), checkKeys_eq_ok.mpr only, ?_⟩
        rcases mappingField_cases fields "env" .stepEnv with
          ⟨-, missing⟩ | ⟨value, entries, read, otherGiven, isMap⟩
        · rw [given] at missing
          cases missing
        · rw [given] at otherGiven
          obtain rfl := Option.some.inj otherGiven
          rw [read, ok_bind, isUnreported_make, Env.ofValue_of_entries? isMap,
            Env.isUnreported_ofEntries]
          exact ⟨acts, unreportable⟩
  · rename_i closed
    refine iff_of_false (not_isUnreported_of_message rfl) ?_
    rintro (⟨opened, -⟩ | ⟨opened, -, -, -, -⟩) <;>
    · rw [closed] at opened
      cases opened

theorem not_isUnreported_mappingField {name message : String} {error : Error}
    (worded : error.message = .ok message) : ¬ IsUnreported (mappingField fields name error) := by
  rcases mappingField_cases fields name error with ⟨refused, -⟩ | ⟨value, -, read, -⟩
  · rw [refused]
    exact not_isUnreported_of_message worded
  · rw [read]
    exact not_isUnreported_ok value

theorem failsOnly_mappingField {conflicts : Prop} {name : String} {error : Error}
    (invalid : error.kind = .invalid) :
    FailsOnly (IsRefusal conflicts) (mappingField fields name error) := by
  rcases mappingField_cases fields name error with ⟨refused, -⟩ | ⟨value, -, read, -⟩
  · rw [refused]
    exact failsOnly_error (Or.inl invalid)
  · rw [read]
    exact failsOnly_ok value

/-- A step is made, or what it does is not said once, or its variables are refused. -/
theorem failsOnly_make {allowed : Error → Prop} {command target label env : Value}
    (action : command.isNull ≠ !target.isNull → allowed .stepAction)
    (settings : FailsOnly allowed (Env.ofValue env)) :
    FailsOnly allowed (make command target label env) := by
  have going (action : Action) : FailsOnly allowed
      (Env.ofValue env >>= fun settings => .ok (Step.mk action label settings)) :=
    settings.bind fun _ _ => failsOnly_ok _
  unfold make
  cases commandNull : command.isNull <;> cases targetNull : target.isNull
  · exact failsOnly_error (action (by simp [commandNull, targetNull]))
  · exact going _
  · exact going _
  · exact failsOnly_error (action (by simp [commandNull, targetNull]))

theorem failsOnly_ofRecord {conflicts : Prop} (record : Value) :
    FailsOnly (IsRefusal conflicts) (ofRecord record) := by
  rw [ofRecord]
  split
  · exact (failsOnly_checkKeys fun _ => rfl).bind fun _ _ =>
      (failsOnly_mappingField rfl).bind fun _ _ =>
        failsOnly_make (fun _ => Or.inl rfl) (Env.failsOnly_ofValue _)
  · exact failsOnly_error (Or.inl rfl)

end Step

/-! ### Tasks -/

theorem Category.isUnreported_parse {given : Value} :
    IsUnreported (Category.parse given) ↔ ¬ given.IsWritable := by
  rw [Category.parse]
  split
  · rename_i isNull
    rw [Value.eq_null_of_isNull isNull]
    exact iff_of_false (not_isUnreported_ok none) (not_not_intro ⟨"None", rfl⟩)
  · rw [isUnreported_bind]
    refine ⟨?_, fun unwritten => Or.inl (isUnreported_orFault.mpr unwritten)⟩
    rintro (unwritten | ⟨text, written, unreported⟩)
    · exact isUnreported_orFault.mp unwritten
    · have writable : given.IsWritable := ⟨text, orFault_eq_ok.mp written⟩
      have refused : IsUnreported (.error (.category given) : Except Error (Option Category)) ↔
          ¬ given.HasLiteral := Value.isUnreported_of_naming rfl
      dsimp only at unreported
      split at unreported
      · exact (not_isUnreported_ok _ unreported).elim
      · exact (refused.mp unreported writable.hasLiteral).elim

theorem Category.failsOnly_parse {conflicts : Prop} (given : Value) :
    FailsOnly (IsRefusal conflicts) (Category.parse given) := by
  rw [Category.parse]
  split
  · exact failsOnly_ok none
  · refine (failsOnly_orFault isRefusal_fault given.text).bind fun text _ => ?_
    dsimp only
    split
    · exact failsOnly_ok _
    · exact failsOnly_error (Or.inl rfl)

namespace Registry

variable {registry : Registry} {name : String}

/-- The record of a task under a name, with its fields, the entries of its environment and the
records of its steps. -/
structure IsRecord (name : String) (record : Value) (fields settings : List (Value × Value))
    (records : List Value) : Prop where
  opened : record.entries? = some fields
  only : Step.HasOnly taskKeys fields
  declared : ∀ value, Value.field? fields "name" = some value → value = .str name
  given : Value.mappingAt? fields "env" = some settings
  listed : Value.listAt? fields "steps" = some records

/-- The first thing that is wrong with an entry of a manifest cannot be reported. The given names
are those of the tasks before it. -/
inductive IsUnreportableEntry (names : List String) (entry : Value × Value) : Prop
  | key (unwritten : ¬ entry.1.IsWritable)
  | keys {name : String} {fields : List (Value × Value)} (called : entry.1.text = .ok name)
      (opened : entry.2.entries? = some fields)
      (unreportable : Step.HasUnreportableKeys taskKeys fields)
  | name {name : String} {fields : List (Value × Value)} {declared : Value}
      (called : entry.1.text = .ok name) (opened : entry.2.entries? = some fields)
      (only : Step.HasOnly taskKeys fields) (given : Value.field? fields "name" = some declared)
      (unwritten : ¬ declared.HasLiteral)
  | category {name : String} {fields settings : List (Value × Value)} {records : List Value}
      (called : entry.1.text = .ok name) (shaped : IsRecord name entry.2 fields settings records)
      (named : isTaskName name = true) (fresh : name ∉ names)
      (unwritten : ¬ (Value.field fields "category").IsWritable)
  | env {name : String} {fields settings : List (Value × Value)} {records : List Value}
      {category : Option Category} (called : entry.1.text = .ok name)
      (shaped : IsRecord name entry.2 fields settings records)
      (named : isTaskName name = true) (fresh : name ∉ names)
      (parsed : Category.parse (Value.field fields "category") = .ok category)
      (unreportable : Env.IsUnreportable settings)
  | steps {name : String} {fields settings : List (Value × Value)} {records : List Value}
      {category : Option Category} (called : entry.1.text = .ok name)
      (shaped : IsRecord name entry.2 fields settings records)
      (named : isTaskName name = true) (fresh : name ∉ names)
      (parsed : Category.parse (Value.field fields "category") = .ok category)
      (set : ∀ setting ∈ settings, Env.IsSetting setting)
      (unreportable : StopsAt (fun record => ∃ step, Step.ofRecord record = .ok step)
        Step.IsUnreportable records)

theorem stepRecords_eq_ok {fields : List (Value × Value)} {records : List Value} :
    stepRecords name fields = .ok records ↔ Value.listAt? fields "steps" = some records := by
  rw [stepRecords, Value.listAt?]
  cases ((Value.field fields "steps").orElse (.ofItems [])).items? <;> simp

variable {record : Value} {fields settings : List (Value × Value)} {records : List Value}

theorem isRecord_of_checkRecord {env : Value}
    (checked : checkRecord name record = .ok (fields, env, records)) :
    ∃ settings, env.entries? = some settings ∧ IsRecord name record fields settings records := by
  rw [checkRecord] at checked
  split at checked
  · rename_i others opened
    obtain ⟨⟨⟩, only, checked⟩ := bind_eq_ok.mp checked
    dsimp only at checked
    split at checked
    · cases checked
    · rename_i same
      obtain ⟨value, read, checked⟩ := bind_eq_ok.mp checked
      obtain ⟨items, listed, checked⟩ := bind_eq_ok.mp checked
      obtain ⟨rfl, rfl, rfl⟩ : others = fields ∧ value = env ∧ items = records := by
        simpa using Except.ok.inj checked
      obtain ⟨rfl, settings, given⟩ := Step.mappingField_eq_ok.mp read
      refine ⟨settings, given, opened, Step.checkKeys_eq_ok.mp only, fun declared found => ?_,
        given, stepRecords_eq_ok.mp listed⟩
      rw [found, Option.getD_some] at same
      have held : Value.same declared (.str name) = true := by simpa using same
      exact (Value.isSharp_str name declared).mp held
  · cases checked

theorem IsRecord.checked (shaped : IsRecord name record fields settings records) :
    ∃ env, checkRecord name record = .ok (fields, env, records) ∧
      env.entries? = some settings := by
  obtain ⟨opened, only, declared, given, listed⟩ := shaped
  have same : Value.same ((Value.field? fields "name").getD (.str name)) (.str name) = true := by
    refine (Value.isSharp_str name _).mpr ?_
    cases found : Value.field? fields "name" with
    | none => rfl
    | some value => exact declared value found
  have read : Step.mappingField fields "env" (.taskEnv name) = .ok _ :=
    Step.mappingField_eq_ok.mpr ⟨rfl, settings, given⟩
  refine ⟨_, ?_, given⟩
  rw [checkRecord, opened]
  dsimp only
  rw [Step.checkKeys_eq_ok.mpr only, ok_bind, same, read, ok_bind, stepRecords_eq_ok.mpr listed,
    ok_bind]
  rfl

/-- What a record without a name of its own is refused for can be reported. -/
theorem not_isUnreported_fields : ¬ IsUnreported (do
    let env ← Step.mappingField fields "env" (.taskEnv name)
    let steps ← stepRecords name fields
    return (fields, env, steps)) := by
  rw [isUnreported_bind]
  rintro (unreported | ⟨env, -, unreported⟩)
  · exact Step.not_isUnreported_mappingField rfl unreported
  · have listed : IsUnreported (stepRecords name fields) :=
      (isUnreported_bind_of_isOk fun steps => ⟨_, rfl⟩).mp unreported
    rw [stepRecords] at listed
    split at listed
    · exact not_isUnreported_ok _ listed
    · exact not_isUnreported_of_message rfl listed

theorem isUnreported_checkRecord :
    IsUnreported (checkRecord name record) ↔ ∃ fields, record.entries? = some fields ∧
      (Step.HasUnreportableKeys taskKeys fields ∨ Step.HasOnly taskKeys fields ∧
        ∃ declared, Value.field? fields "name" = some declared ∧
          ¬ declared.HasLiteral) := by
  have refused (declared : Value) : IsUnreported (.error (.declaredName name declared) :
      Except Error (List (Value × Value) × Value × List Value)) ↔ ¬ declared.HasLiteral :=
    Value.isUnreported_of_naming rfl
  rw [checkRecord]
  split
  · rename_i fields opened
    simp only [opened, Option.some.injEq, exists_eq_left']
    rw [isUnreported_bind, Step.isUnreported_checkKeys fun _ => rfl]
    refine or_congr_right ⟨?_, ?_⟩
    · rintro ⟨⟨⟩, checked, unreported⟩
      refine ⟨Step.checkKeys_eq_ok.mp checked, ?_⟩
      split at unreported
      · rename_i differs
        have unwritten := (refused _).mp unreported
        cases given : Value.field? fields "name" with
        | none =>
          rw [given] at unwritten
          exact (unwritten (Value.hasLiteral_str name)).elim
        | some declared => exact ⟨declared, rfl, by rwa [given] at unwritten⟩
      · exact (not_isUnreported_fields unreported).elim
    · rintro ⟨only, declared, given, unwritten⟩
      have differs : Value.same declared (.str name) = false := by
        refine Bool.eq_false_iff.mpr fun same => unwritten ?_
        rw [(Value.isSharp_str name declared).mp same]
        exact Value.hasLiteral_str name
      refine ⟨(), Step.checkKeys_eq_ok.mpr only, ?_⟩
      rw [given, Option.getD_some, if_pos (by rw [differs]; rfl)]
      exact (refused declared).mpr unwritten
  · rename_i closed
    refine iff_of_false (not_isUnreported_of_message rfl) ?_
    rintro ⟨fields, opened, -⟩
    rw [closed] at opened
    cases opened

theorem isUnreported_addTask {description category condition env : Value} :
    IsUnreported (registry.addTask (.str name) .null description category condition env).result ↔
      isTaskName name = true ∧ name ∉ registry.names ∧ (¬ category.IsWritable ∨
        (∃ band, Category.parse category = .ok band) ∧ IsUnreported (Env.ofValue env)) := by
  have created : IsUnreported (Task.create (.str name) description category condition env .null) ↔
      ¬ category.IsWritable ∨
        (∃ band, Category.parse category = .ok band) ∧ IsUnreported (Env.ofValue env) := by
    rw [Task.create, isUnreported_bind, Category.isUnreported_parse, ← exists_and_right]
    exact or_congr_right <| exists_congr fun band => and_congr_right fun _ =>
      isUnreported_bind_of_isOk fun settings => ⟨_, rfl⟩
  rw [addTask, Logged.result_bind, Logged.result_lift]
  cases named : isTaskName name with
  | false =>
    have refused : checkName (.str name) = .error (.taskName (.str name)) := by
      rw [checkName, named]
      rfl
    obtain ⟨literal, written⟩ := Value.hasLiteral_str name
    have worded : (Error.taskName (.str name)).message = (Value.str name).literal.map fun literal =>
        "Invalid task name " ++ literal ++ ": use letters, numbers, ':', '.', '_' or '-'" := rfl
    rw [written] at worded
    rw [refused, error_bind]
    exact iff_of_false (not_isUnreported_of_message worded) fun held => by cases held.1
  | true =>
    rw [checkName_eq_ok.mpr ⟨rfl, named⟩, ok_bind, eq_self, true_and, ← created]
    dsimp only
    split
    · rename_i known
      refine iff_of_false (not_isUnreported_of_message rfl) fun held => held.1 ?_
      simpa using known
    · rename_i unknown
      have fresh : name ∉ registry.names := by simpa using unknown
      rw [and_iff_right fresh, Logged.result_bind, Logged.result_lift]
      exact isUnreported_bind_of_isOk fun task => ⟨_, rfl⟩

theorem addTask_isOk {description category condition env : Value} :
    (∃ added, (registry.addTask (.str name) .null description category condition env).result =
        .ok added) ↔
      isTaskName name = true ∧ name ∉ registry.names ∧
        (∃ band, Category.parse category = .ok band) ∧
        ∃ settings, Env.ofValue env = .ok settings := by
  constructor
  · rintro ⟨⟨extended, task⟩, added⟩
    obtain ⟨text, same, named, fresh, created, -⟩ := addTask_eq_ok.mp added
    obtain rfl := Value.str.inj same
    obtain ⟨band, parsed, created⟩ := bind_eq_ok.mp created
    obtain ⟨settings, described, -⟩ := bind_eq_ok.mp created
    exact ⟨named, fresh, ⟨band, parsed⟩, settings, described⟩
  · rintro ⟨named, fresh, ⟨band, parsed⟩, settings, described⟩
    let task : Task := ⟨.str name, description, band, condition, settings, []⟩
    refine ⟨(registry.put name task, task), addTask_eq_ok.mpr ⟨name, rfl, named, fresh, ?_, rfl⟩⟩
    rw [Task.create, parsed, ok_bind, Env.ofArgument_value, described]
    rfl

/-- What comes of an entry, without the log. -/
theorem result_addEntry (entry : Value × Value) :
    (registry.addEntry entry).result = orFault entry.1.text >>= fun name =>
      checkRecord name entry.2 >>= fun checked =>
        (registry.addTask (.str name) .null (Value.field checked.1 "description")
          (Value.field checked.1 "category") (Value.field checked.1 "condition")
          checked.2.1).result >>= fun added =>
            checked.2.2.mapM Step.ofRecord >>= fun steps =>
              .ok (added.1.put name { added.2 with steps := added.2.steps ++ steps }) := by
  simp only [addEntry, Logged.result_bind, Logged.result_liftFault, Logged.result_lift]
  rfl

/-- Once its record has been checked, an entry goes unreported for its band, for its variables or
for its steps. -/
theorem isUnreported_addChecked {description condition env : Value}
    (opened : env.entries? = some settings) :
    IsUnreported ((registry.addTask (.str name) .null description (Value.field fields "category")
        condition env).result >>= fun added =>
          records.mapM Step.ofRecord >>= fun steps =>
            .ok (added.1.put name { added.2 with steps := added.2.steps ++ steps })) ↔
      isTaskName name = true ∧ name ∉ registry.names ∧
        (¬ (Value.field fields "category").IsWritable ∨
          (∃ band, Category.parse (Value.field fields "category") = .ok band) ∧
            (Env.IsUnreportable settings ∨ (∀ setting ∈ settings, Env.IsSetting setting) ∧
              StopsAt (fun record => ∃ step, Step.ofRecord record = .ok step)
                Step.IsUnreportable records)) := by
  have steps : IsUnreported (records.mapM Step.ofRecord) ↔ _ := isUnreported_mapM records
  simp only [Step.isUnreported_ofRecord] at steps
  rw [isUnreported_bind, isUnreported_addTask, Env.ofValue_of_entries? opened,
    Env.isUnreported_ofEntries]
  simp only [isUnreported_bind_of_isOk fun _ => ⟨_, rfl⟩, steps]
  rw [exists_and_right, addTask_isOk, Env.ofValue_of_entries? opened, Env.ofEntries_isOk]
  tauto

theorem isUnreported_addEntry {entry : Value × Value} :
    IsUnreported (registry.addEntry entry).result ↔
      IsUnreportableEntry registry.names entry := by
  obtain ⟨key, record⟩ := entry
  rw [result_addEntry, isUnreported_bind]
  constructor
  · rintro (unreported | ⟨name, keyText, unreported⟩)
    · exact .key (isUnreported_orFault.mp unreported)
    · have called := orFault_eq_ok.mp keyText
      rcases isUnreported_bind.mp unreported with
        unreported | ⟨⟨fields, env, records⟩, checked, unreported⟩
      · obtain ⟨fields, opened, unreportable | ⟨only, declared, given, unwritten⟩⟩ :=
          isUnreported_checkRecord.mp unreported
        · exact .keys called opened unreportable
        · exact .name called opened only given unwritten
      · obtain ⟨settings, opened, shaped⟩ := isRecord_of_checkRecord checked
        obtain ⟨named, fresh, unwritten | ⟨⟨band, parsed⟩, unreportable | ⟨set, unreportable⟩⟩⟩ :=
          (isUnreported_addChecked opened).mp unreported
        · exact .category called shaped named fresh unwritten
        · exact .env called shaped named fresh parsed unreportable
        · exact .steps called shaped named fresh parsed set unreportable
  · rintro (unwritten | ⟨called, opened, unreportable⟩ | ⟨called, opened, only, given, unwritten⟩ |
      ⟨called, shaped, named, fresh, unwritten⟩ |
      ⟨called, shaped, named, fresh, parsed, unreportable⟩ |
      ⟨called, shaped, named, fresh, parsed, set, unreportable⟩)
    · exact Or.inl (isUnreported_orFault.mpr unwritten)
    · refine Or.inr ⟨_, orFault_eq_ok.mpr called, isUnreported_bind.mpr (Or.inl ?_)⟩
      exact isUnreported_checkRecord.mpr ⟨_, opened, Or.inl unreportable⟩
    · refine Or.inr ⟨_, orFault_eq_ok.mpr called, isUnreported_bind.mpr (Or.inl ?_)⟩
      exact isUnreported_checkRecord.mpr ⟨_, opened, Or.inr ⟨only, _, given, unwritten⟩⟩
    · obtain ⟨env, checked, opened⟩ := shaped.checked
      refine Or.inr ⟨_, orFault_eq_ok.mpr called, isUnreported_bind.mpr (Or.inr ⟨_, checked, ?_⟩)⟩
      exact (isUnreported_addChecked opened).mpr ⟨named, fresh, Or.inl unwritten⟩
    · obtain ⟨env, checked, opened⟩ := shaped.checked
      refine Or.inr ⟨_, orFault_eq_ok.mpr called, isUnreported_bind.mpr (Or.inr ⟨_, checked, ?_⟩)⟩
      exact (isUnreported_addChecked opened).mpr
        ⟨named, fresh, Or.inr ⟨⟨_, parsed⟩, Or.inl unreportable⟩⟩
    · obtain ⟨env, checked, opened⟩ := shaped.checked
      refine Or.inr ⟨_, orFault_eq_ok.mpr called, isUnreported_bind.mpr (Or.inr ⟨_, checked, ?_⟩)⟩
      exact (isUnreported_addChecked opened).mpr
        ⟨named, fresh, Or.inr ⟨⟨_, parsed⟩, Or.inr ⟨set, unreportable⟩⟩⟩

/-! ### Manifests -/

/-- The first thing that is wrong with a manifest cannot be reported. -/
inductive IsUnreportable (manifest : Value) : Prop
  | env {fields settings : List (Value × Value)} (opened : manifest.entries? = some fields)
      (given : Value.mappingAt? fields "env" = some settings)
      (unreportable : Env.IsUnreportable settings)
  | tasks {fields settings before after : List (Value × Value)} {entry : Value × Value}
      {tasks : Ordered String Task} (opened : manifest.entries? = some fields)
      (given : Value.mappingAt? fields "env" = some settings)
      (set : ∀ setting ∈ settings, Env.IsSetting setting)
      (listed : Value.mappingAt? fields "tasks" = some (before ++ entry :: after))
      (described : List.Forall₂ DescribesEntry before tasks) (distinct : tasks.keys.Nodup)
      (unreportable : IsUnreportableEntry tasks.keys entry)

/-- Entries go unreported at the first one that describes no task, if it does. -/
theorem isUnreported_addEntries {env : Env} {entries : List (Value × Value)} :
    IsUnreported (entries.foldlM addEntry ⟨env, []⟩).result ↔
      ∃ before entry after, ∃ tasks : Ordered String Task, entries = before ++ entry :: after ∧
        List.Forall₂ DescribesEntry before tasks ∧ tasks.keys.Nodup ∧
        IsUnreportableEntry tasks.keys entry := by
  have empty : (names ⟨env, []⟩).Nodup := List.nodup_nil
  rw [Logged.result_foldlM, isUnreported_foldlM]
  simp only [← Logged.result_foldlM, foldlM_addEntry_eq_ok empty, isUnreported_addEntry]
  constructor
  · rintro ⟨before, entry, after, last, rfl, ⟨tasks, described, distinct, rfl⟩, unreportable⟩
    exact ⟨before, entry, after, tasks, rfl, described, distinct, unreportable⟩
  · rintro ⟨before, entry, after, tasks, rfl, described, distinct, unreportable⟩
    exact ⟨before, entry, after, ⟨env, tasks⟩, rfl, ⟨tasks, described, distinct, rfl⟩, unreportable⟩

/-- What comes of a manifest, without the log. -/
theorem result_ofManifest {manifest : Value} {fields : List (Value × Value)}
    (opened : manifest.entries? = some fields) :
    (ofManifest manifest).result =
      match Value.mappingAt? fields "env" with
      | none => .error .manifestEnv
      | some settings => Env.ofEntries settings >>= fun env =>
        match Value.mappingAt? fields "tasks" with
        | none => .error .manifestTasks
        | some entries => (entries.foldlM addEntry ⟨env, []⟩).result := by
  rw [ofManifest, opened]
  dsimp only
  rw [Logged.result_bind, Logged.result_lift]
  rcases Step.mappingField_cases fields "env" .manifestEnv with
    ⟨refused, missing⟩ | ⟨value, settings, read, given, isMap⟩
  · rw [refused, missing]
    rfl
  · rw [read, given, ok_bind, Logged.result_bind, Logged.result_lift, create,
      Env.ofValue_of_entries? isMap]
    dsimp only
    cases Env.ofEntries settings with
    | error error => rfl
    | ok env =>
      rw [Value.mappingAt?]
      cases ((Value.field fields "tasks").orElse (.ofEntries [])).entries? <;> rfl

theorem isUnreported_ofManifest {manifest : Value} :
    IsUnreported (ofManifest manifest).result ↔ IsUnreportable manifest := by
  cases opened : manifest.entries? with
  | none =>
    rw [ofManifest, opened]
    refine iff_of_false (not_isUnreported_of_message rfl) ?_
    rintro (⟨otherOpened, -⟩ | ⟨otherOpened, -⟩) <;>
    · rw [opened] at otherOpened
      cases otherOpened
  | some fields =>
    rw [result_ofManifest opened]
    constructor
    · cases given : Value.mappingAt? fields "env" with
      | none => exact fun unreported => (not_isUnreported_of_message rfl unreported).elim
      | some settings =>
        dsimp only
        rw [isUnreported_bind]
        rintro (unreported | ⟨env, made, unreported⟩)
        · exact .env opened given (Env.isUnreported_ofEntries.mp unreported)
        · cases listed : Value.mappingAt? fields "tasks" with
          | none =>
            rw [listed] at unreported
            exact (not_isUnreported_of_message rfl unreported).elim
          | some entries =>
            rw [listed] at unreported
            obtain ⟨before, entry, after, tasks, rfl, described, distinct, unreportable⟩ :=
              isUnreported_addEntries.mp unreported
            exact .tasks opened given (Env.ofEntries_isOk.mp ⟨env, made⟩) listed described distinct
              unreportable
    · rintro (⟨otherOpened, given, unreportable⟩ |
        ⟨otherOpened, given, set, listed, described, distinct, unreportable⟩)
      · rw [opened] at otherOpened
        obtain rfl := Option.some.inj otherOpened
        rw [given]
        exact isUnreported_bind.mpr (Or.inl (Env.isUnreported_ofEntries.mpr unreportable))
      · rw [opened] at otherOpened
        obtain rfl := Option.some.inj otherOpened
        obtain ⟨env, made⟩ := Env.ofEntries_isOk.mpr set
        rw [given]
        refine isUnreported_bind.mpr (Or.inr ⟨env, made, ?_⟩)
        rw [listed]
        exact isUnreported_addEntries.mpr
          ⟨_, _, _, _, rfl, described, distinct, unreportable⟩

/-! ### Refusals -/

/-- Two tasks of a manifest have keys of the same text. -/
def HasClashingKeys (manifest : Value) : Prop :=
  ∃ fields entries, manifest.entries? = some fields ∧
    Value.mappingAt? fields "tasks" = some entries ∧
      ¬ entries.Pairwise fun first second =>
        ∀ name, first.1.text = .ok name → second.1.text ≠ .ok name

theorem failsOnly_checkRecord {conflicts : Prop} (name : String) (record : Value) :
    FailsOnly (IsRefusal conflicts) (checkRecord name record) := by
  have shapes (fields : List (Value × Value)) : FailsOnly (IsRefusal conflicts) (do
      let env ← Step.mappingField fields "env" (.taskEnv name)
      let steps ← stepRecords name fields
      return (fields, env, steps)) := by
    refine (Step.failsOnly_mappingField rfl).bind fun env _ => ?_
    refine FailsOnly.bind ?_ fun _ _ => failsOnly_ok _
    rw [stepRecords]
    split
    · exact failsOnly_ok _
    · exact failsOnly_error (Or.inl rfl)
  rw [checkRecord]
  split
  · refine (Step.failsOnly_checkKeys fun _ => rfl).bind fun _ _ => ?_
    dsimp only
    split
    · exact failsOnly_error (Or.inl rfl)
    · exact shapes _
  · exact failsOnly_error (Or.inl rfl)

/-- A task is refused with a conflict only if its name is taken. -/
theorem failsOnly_addTask {description category condition env : Value} :
    FailsOnly (IsRefusal (name ∈ registry.names))
      (registry.addTask (.str name) .null description category condition env).result := by
  rw [addTask, Logged.result_bind, Logged.result_lift]
  refine FailsOnly.bind ?_ fun text checked => ?_
  · rw [checkName]
    split
    · exact failsOnly_ok _
    · exact failsOnly_error (Or.inl rfl)
  · obtain ⟨same, -⟩ := checkName_eq_ok.mp checked
    obtain rfl := Value.str.inj same
    dsimp only
    split
    · rename_i known
      intro error failed
      obtain rfl := Except.error.inj failed
      exact Or.inr ⟨rfl, by simpa using known⟩
    · rw [Logged.result_bind, Logged.result_lift, Task.create]
      refine FailsOnly.bind ?_ fun _ _ => failsOnly_ok _
      exact (Category.failsOnly_parse category).bind fun _ _ =>
        (Env.failsOnly_ofValue env).bind fun _ _ => failsOnly_ok _

theorem failsOnly_addEntry (registry : Registry) (entry : Value × Value) :
    FailsOnly (IsRefusal (∃ name ∈ registry.names, entry.1.text = .ok name))
      (registry.addEntry entry).result := by
  rw [result_addEntry]
  refine (failsOnly_orFault isRefusal_fault _).bind fun name called => ?_
  refine (failsOnly_checkRecord _ _).bind fun checked _ => ?_
  refine FailsOnly.bind ?_ fun added _ =>
    (failsOnly_mapM fun record _ => Step.failsOnly_ofRecord record).bind fun _ _ =>
      failsOnly_ok _
  exact failsOnly_addTask.mono fun error refusal =>
    refusal.imp fun known => ⟨name, known, orFault_eq_ok.mp called⟩

/-- A manifest is refused as invalid, or with a conflict if two of its tasks have keys of the same
text. -/
theorem failsOnly_ofManifest (manifest : Value) :
    FailsOnly (IsRefusal (HasClashingKeys manifest)) (ofManifest manifest).result := by
  cases opened : manifest.entries? with
  | none =>
    rw [ofManifest, opened]
    exact failsOnly_error (Or.inl rfl)
  | some fields =>
    rw [result_ofManifest opened]
    split
    · exact failsOnly_error (Or.inl rfl)
    · rename_i settings given
      refine FailsOnly.bind ?_ fun env _ => ?_
      · exact Env.failsOnly_ofEntries settings
      · have empty : (names ⟨env, []⟩).Nodup := List.nodup_nil
        split
        · exact failsOnly_error (Or.inl rfl)
        · rename_i entries listed
          rw [Logged.result_foldlM]
          refine failsOnly_foldlM fun before entry after last same folded => ?_
          rw [← Logged.result_foldlM] at folded
          obtain ⟨tasks, described, -, rfl⟩ := (foldlM_addEntry_eq_ok empty).mp folded
          refine (failsOnly_addEntry _ entry).mono fun error refusal => refusal.imp ?_
          rintro ⟨name, known, called⟩
          refine ⟨fields, entries, opened, listed, fun apart => ?_⟩
          subst same
          obtain ⟨task, member, rfl⟩ := List.mem_map.mp known
          obtain ⟨source, inBefore, describes⟩ := exists_mem_of_forall₂ described member
          exact (List.pairwise_append.mp apart).2.2 source inBefore entry List.mem_cons_self _
            describes.key called

/-- A manifest is answered unless the first thing that is wrong with it cannot be reported. -/
theorem isAnswered_ofManifest {manifest : Value} :
    IsAnswered (HasClashingKeys manifest) (ofManifest manifest).result ↔
      ¬ IsUnreportable manifest := by
  rw [← isUnreported_ofManifest]
  exact (failsOnly_ofManifest manifest).isAnswered_iff

end Registry

end Taskbook
