/-
What a configuration loses, and what is told of it.

The entries for variables of a configuration come apart: an entry sets a variable, or there is one
warning about it. Together with a warning about each key that no setting has, in the order of the
file, these are all the warnings that there are. Telling them changes nothing: whoever is told gets
what others get, unless a key that would have to be named in a warning cannot be written.
-/

import Taskbook.Proofs.Project.Configuring
import Taskbook.Proofs.Rendering.References
import Taskbook.Proofs.Yaml.Numeral
import Taskbook.Proofs.Yaml.Unfolding

namespace Taskbook

/-! ### Entries for variables -/

namespace Config

/-- A value that a variable can be set to: anything but null, a mapping or a list. -/
structure IsSettable (value : Value) : Prop where
  given : value ≠ .null
  noMapping : value.entries? = none
  noList : value.items? = none

/-- The text that a value sets a variable to. Truth values are written in small letters, others as
they are written everywhere. -/
inductive Spells : Value → String → Prop where
  | truth (answer : Bool) : Spells (.bool answer) (if answer then "true" else "false")
  | other {value : Value} {text : String} (noTruth : ∀ answer, value ≠ .bool answer)
    (written : value.text = .ok text) : Spells value text

/-- Entries for variables come apart into the variables that they set, and the warnings about those
that set none. Both come in the order of the entries. -/
inductive ComeApart : List (Value × Value) → Env → List (Except Fault String) → Prop where
  | nil : ComeApart [] [] []
  | set {name text : String} {value : Value} {rest : List (Value × Value)} {env : Env}
    {warnings : List (Except Fault String)} (named : isVariableName name = true)
    (settable : IsSettable value) (spells : Spells value text)
    (others : ComeApart rest env warnings) :
    ComeApart ((.str name, value) :: rest) ((name, text) :: env) warnings
  | unnamed {key value : Value} {rest : List (Value × Value)} {env : Env}
    {warnings : List (Except Fault String)} (unnamed : ¬ Env.IsName key)
    (others : ComeApart rest env warnings) :
    ComeApart ((key, value) :: rest) env (variableNameWarning key :: warnings)
  | unset {name : String} {value : Value} {rest : List (Value × Value)} {env : Env}
    {warnings : List (Except Fault String)} (named : isVariableName name = true)
    (unsettable : ¬ IsSettable value) (others : ComeApart rest env warnings) :
    ComeApart ((.str name, value) :: rest) env (variableValueWarning name :: warnings)

variable {env : Env} {path : Path}

theorem eq_null_of_opened {value : Value} (isNull : value.opened = .null) : value = .null := by
  cases value with
  | knot web place =>
    rw [Value.opened] at isNull
    split at isNull <;> cases isNull
  | _ => exact isNull

theorem isVariableValue_iff {value : Value} : isVariableValue value = true ↔ IsSettable value := by
  rw [isVariableValue]
  constructor
  · intro isValue
    refine ⟨?_, ?_, ?_⟩
    · rintro rfl
      cases isValue
    · cases isMap : value.entries? with
      | none => rfl
      | some entries =>
        obtain ⟨anchor, same⟩ := Value.exists_map isMap
        rw [same] at isValue
        cases isValue
    · cases isList : value.items? with
      | none => rfl
      | some items =>
        obtain ⟨anchor, same⟩ := Value.exists_list isList
        rw [same] at isValue
        cases isValue
  · rintro ⟨given, noMapping, noList⟩
    split
    · rename_i isNull
      exact (given (eq_null_of_opened isNull)).elim
    · rename_i isList
      rw [Value.items?, isList] at noList
      cases noList
    · rename_i isMap
      rw [Value.entries?, isMap] at noMapping
      cases noMapping
    · rfl

theorem variableText_eq_ok {value : Value} {text : String} :
    variableText value = .ok text ↔ Spells value text := by
  constructor
  · intro written
    cases value with
    | bool answer =>
      cases answer <;> (obtain rfl := Except.ok.inj written)
      · exact .truth false
      · exact .truth true
    | _ => exact .other (fun answer same => nomatch same) written
  · rintro (⟨answer⟩ | ⟨noTruth, written⟩)
    · cases answer <;> rfl
    · cases value with
      | bool answer => exact (noTruth answer rfl).elim
      | _ => exact written

theorem Spells.unique {value : Value} {text other : String} (spells : Spells value text)
    (also : Spells value other) : text = other := by
  rw [← variableText_eq_ok] at spells also
  exact Except.ok.inj (spells.symm.trans also)

/-- Entries come apart in one way only. -/
theorem ComeApart.unique {assignments : List (Value × Value)} {other : Env}
    {warnings further : List (Except Fault String)} (apart : ComeApart assignments env warnings)
    (also : ComeApart assignments other further) : env = other ∧ warnings = further := by
  induction apart generalizing other further with
  | nil =>
    cases also
    exact ⟨rfl, rfl⟩
  | @set name _ _ _ _ _ named settable spells _ inductionHypothesis =>
    cases also with
    | set _ _ alsoSpells others =>
      obtain ⟨rfl, rfl⟩ := inductionHypothesis others
      exact ⟨by rw [spells.unique alsoSpells], rfl⟩
    | unnamed unnamed _ => exact (unnamed ⟨name, rfl, named⟩).elim
    | unset _ unsettable _ => exact (unsettable settable).elim
  | unnamed unnamed _ inductionHypothesis =>
    cases also with
    | set named _ _ _ => exact (unnamed ⟨_, rfl, named⟩).elim
    | unnamed _ others =>
      obtain ⟨rfl, rfl⟩ := inductionHypothesis others
      exact ⟨rfl, rfl⟩
    | unset named _ _ => exact (unnamed ⟨_, rfl, named⟩).elim
  | @unset name _ _ _ _ named unsettable _ inductionHypothesis =>
    cases also with
    | set _ settable _ _ => exact (unsettable settable).elim
    | unnamed unnamed _ => exact (unnamed ⟨name, rfl, named⟩).elim
    | unset _ _ others =>
      obtain ⟨rfl, rfl⟩ := inductionHypothesis others
      exact ⟨rfl, rfl⟩

/-! ### Each entry -/

theorem addVariable_unnamed {key : Value} (unnamed : ¬ Env.IsName key) (value : Value) :
    addVariable env (key, value) = ⟨[variableNameWarning key], .ok env⟩ := by
  rw [addVariable]
  cases checked : Env.checkName key with
  | error error => rfl
  | ok name => exact (unnamed (Env.checkName_isOk.mp ⟨name, checked⟩)).elim

theorem addVariable_unset {name : String} (named : isVariableName name = true) {value : Value}
    (unsettable : ¬ IsSettable value) :
    addVariable env (.str name, value) = ⟨[variableValueWarning name], .ok env⟩ := by
  have noValue : isVariableValue value = false := by
    rwa [← isVariableValue_iff, Bool.not_eq_true] at unsettable
  rw [addVariable, Env.checkName, if_pos named]
  dsimp only
  rw [noValue]
  rfl

theorem addVariable_set {name : String} (named : isVariableName name = true) {value : Value}
    (settable : IsSettable value) : addVariable env (.str name, value) =
      .silent ((variableText value).map fun text => env.put name text) := by
  rw [addVariable, Env.checkName, if_pos named]
  dsimp only
  rw [if_pos (isVariableValue_iff.mpr settable)]
  cases variableText value <;> rfl

/-- Keys that differ from a name and from the variables before it differ from all of them. -/
theorem fresh_put {name text : String} (absent : name ∉ Ordered.keys env)
    {entries : List (Value × Value)}
    (differ : ∀ entry ∈ entries, (Value.str name).same entry.1 = false)
    (fresh : ∀ entry ∈ entries, ∀ other ∈ Ordered.keys env, entry.1 ≠ .str other) :
    ∀ entry ∈ entries, ∀ other ∈ Ordered.keys (env.put name text), entry.1 ≠ .str other := by
  intro entry member other known same
  rw [Ordered.put_of_not_mem absent, Ordered.keys, List.map_append] at known
  rcases List.mem_append.mp known with before | isNew
  · exact fresh entry member other before same
  · obtain rfl := List.mem_singleton.mp isNew
    have unequal := differ entry member
    rw [same] at unequal
    exact Bool.noConfusion (unequal.symm.trans (Value.same_str other))

/-- What is read of entries no two of which have the same key: the variables that they set, on top
of those that are set already, and the warnings. -/
theorem comeApart_of_foldlM {assignments : List (Value × Value)} {result : Env}
    (keyed : Value.AreKeyed assignments)
    (fresh : ∀ entry ∈ assignments, ∀ name ∈ Ordered.keys env, entry.1 ≠ .str name)
    (folded : (assignments.foldlM addVariable env).result = .ok result) :
    ∃ added, ComeApart assignments added (assignments.foldlM addVariable env).warnings ∧
      result = env ++ added := by
  induction assignments generalizing env with
  | nil =>
    obtain rfl := Except.ok.inj folded
    exact ⟨[], .nil, (List.append_nil env).symm⟩
  | cons entry rest inductionHypothesis =>
    obtain ⟨key, value⟩ := entry
    obtain ⟨differ, othersKeyed⟩ := List.pairwise_cons.mp keyed
    obtain ⟨keyFresh, othersFresh⟩ := List.forall_mem_cons.mp fresh
    rw [List.foldlM_cons] at folded ⊢
    by_cases isName : Env.IsName key
    · obtain ⟨name, rfl, named⟩ := isName
      by_cases settable : IsSettable value
      · rw [addVariable_set named settable] at folded ⊢
        cases written : variableText value with
        | error fault =>
          rw [written] at folded
          cases folded
        | ok text =>
          rw [written] at folded
          have absent : name ∉ Ordered.keys env := fun known => keyFresh name known rfl
          -- The rest starts from what the first entry leaves, so its keys differ from that too.
          obtain ⟨added, apart, same⟩ :=
            inductionHypothesis othersKeyed (fresh_put absent differ othersFresh) folded
          refine ⟨(name, text) :: added,
            .set named settable (variableText_eq_ok.mp written) apart, ?_⟩
          rw [same, Ordered.put_of_not_mem absent, List.append_assoc]
          rfl
      · rw [addVariable_unset named settable] at folded ⊢
        obtain ⟨added, apart, same⟩ := inductionHypothesis othersKeyed othersFresh folded
        exact ⟨added, .unset named settable apart, same⟩
    · rw [addVariable_unnamed isName] at folded ⊢
      obtain ⟨added, apart, same⟩ := inductionHypothesis othersKeyed othersFresh folded
      exact ⟨added, .unnamed isName apart, same⟩

/-! ### All warnings -/

/-- There is one warning about each key that is not known. -/
theorem warnUnknown_eq (entries : Ordered Value Value) (known : List String)
    (warning : Value → Except Fault String) :
    warnUnknown entries known warning =
      ⟨(Step.unsupported entries known).map warning, .ok ()⟩ := by
  rw [warnUnknown]
  induction entries with
  | nil => rfl
  | cons entry rest inductionHypothesis =>
    obtain ⟨key, value⟩ := entry
    rw [List.forM, inductionHypothesis]
    cases key with
    | str name =>
      dsimp only
      by_cases isKnown : known.contains name = true
      · have skipped : Step.unsupported ((.str name, value) :: rest) known =
            Step.unsupported rest known := List.filter_cons_of_neg (by simpa using isKnown)
        rw [if_pos isKnown, skipped]
        rfl
      · have kept : Step.unsupported ((.str name, value) :: rest) known =
            .str name :: Step.unsupported rest known :=
          List.filter_cons_of_pos (by simpa using isKnown)
        rw [if_neg isKnown, kept]
        rfl
    | _ => rfl

/-- A configuration has settings, and these have entries for variables. -/
structure HasAssignments [Depths] (content : Option ByteArray)
    (entries settings assignments : Ordered Value Value) : Prop where
  said : ∃ data, Yaml.said content = .ok data ∧ data.entries? = some entries
  set : (Value.field entries "settings").entries? = some settings
  assigned : (Value.field settings "env").entries? = some assignments

variable {content : Option ByteArray} {entries settings assignments : Ordered Value Value}

theorem settings_eq (opened : (Value.field entries "settings").entries? = some settings) :
    Config.settings path entries =
      ⟨(Step.unsupported entries ["settings"]).map (keyWarning path) ++
        (Step.unsupported settings ["interactive_enabled", "env"]).map (settingWarning path),
        .ok settings⟩ := by
  have found :
      ((Value.field? entries "settings").getD (.ofEntries [])).entries? = some settings := by
    rw [Value.field] at opened
    cases isField : Value.field? entries "settings" with
    | none =>
      rw [isField] at opened
      cases opened
    | some value => rwa [isField] at opened
  rw [Config.settings, warnUnknown_eq, Warned.bind_of_ok rfl, found]
  dsimp only
  rw [warnUnknown_eq, Warned.bind_of_ok rfl]
  exact congrArg (Warned.mk · _) (congrArg _ (List.append_nil _))

theorem env_eq (opened : (Value.field settings "env").entries? = some assignments) :
    Config.env path settings = assignments.foldlM addVariable [] := by
  have given : (Value.field settings "env").isNull ≠ true := by
    intro isNull
    rw [Value.eq_null_of_isNull isNull] at opened
    cases opened
  rw [Config.env, if_neg given, opened]

/-- These are what is used of the configuration. -/
theorem HasAssignments.used [Depths] (has : HasAssignments content entries settings assignments) :
    entriesOf content = entries ∧ settingsOf entries = settings ∧
      assignmentsOf settings = assignments := by
  obtain ⟨⟨data, said, opened⟩, set, assigned⟩ := has
  refine ⟨?_, ?_, ?_⟩
  · rw [entriesOf, said]
    dsimp only
    rw [opened]
    rfl
  · rw [settingsOf, set]
    rfl
  · rw [assignmentsOf, assigned]
    rfl

/-- No two of the entries for variables have the same key. -/
theorem HasAssignments.areKeyed [Depths]
    (has : HasAssignments content entries settings assignments) :
    Value.AreKeyed assignments := by
  obtain ⟨data, said, opened⟩ := has.said
  have inner (fields : List (Value × Value)) (value : Value) (name : String)
      {found : List (Value × Value)} (isMap : value.entries? = some fields)
      (isField : (Value.field fields name).entries? = some found) :
      (Value.field fields name).IsInside value := by
    refine (Value.isInside_field isMap name).resolve_right fun isNull => ?_
    rw [isNull] at isField
    cases isField
  exact Yaml.isKeyed_said said _ (Relation.ReflTransGen.trans (inner _ _ _ opened has.set)
    (inner _ _ _ has.set has.assigned)) assignments has.assigned

end Config

namespace Project

variable [Depths] {project : Project} {files : Files} {content : Option ByteArray}
  {entries settings assignments : Ordered Value Value}

theorem baseEnv_eq (has : files.HasContent project.configPath content)
    (hasAssignments : Config.HasAssignments content entries settings assignments) :
    project.baseEnv files =
      ⟨(Step.unsupported entries ["settings"]).map (Config.keyWarning project.configPath) ++
        (Step.unsupported settings ["interactive_enabled", "env"]).map
          (Config.settingWarning project.configPath) ++
        (assignments.foldlM Config.addVariable []).warnings,
        (assignments.foldlM Config.addVariable []).result⟩ := by
  obtain ⟨data, said, opened⟩ := hasAssignments.said
  have read : project.readConfig files = .silent (.ok entries) := by
    rw [readConfig_of_content has, said]
    dsimp only
    rw [(Value.parts?_orElse_eq_some rfl fun _ => Value.isTruthy_of_entries?).mpr (Or.inl opened)]
  have settled : project.settings files = Config.settings project.configPath entries := by
    rw [Project.settings, read, Warned.bind_of_ok rfl]
    rfl
  rw [baseEnv, settled, Config.settings_eq hasAssignments.set, Warned.bind_of_ok rfl,
    Config.env_eq hasAssignments.assigned]

/-- Whatever a configuration consists of: where it has entries for variables, those that name one
and have a value for it are the environment, in their order, and there is one warning about each
other entry, each key beside the settings and each key among them that no setting has, the keys
first. The reader gives that where the values can be written. And whatever a reader gives where
warnings are not told it gives where they are, if only the keys can be written. -/
theorem baseEnv_comesApart (project : Project) (files : Files) (content : Option ByteArray)
    (has : files.HasContent project.configPath content) :
    (∀ entries settings assignments,
      Config.HasAssignments content entries settings assignments →
        ((∃ env, (project.baseEnv files).result = .ok env) ↔
          ∀ entry ∈ assignments, Env.IsName entry.1 → Config.IsSettable entry.2 →
            entry.2.IsWritable) ∧
        ∀ env, (project.baseEnv files).result = .ok env → ∃ warnings,
          Config.ComeApart assignments env warnings ∧ (project.baseEnv files).warnings =
            (Step.unsupported entries ["settings"]).map (Config.keyWarning project.configPath) ++
              (Step.unsupported settings ["interactive_enabled", "env"]).map
                (Config.settingWarning project.configPath) ++ warnings) ∧
    (∀ env, (project.baseEnv files).given true = .ok env ↔
      (Config.HasWritableKeys (Config.entriesOf content) ∧
        Config.HasWritableKeys (Config.settingsOf (Config.entriesOf content)) ∧
        Config.HasWritableKeys
          (Config.assignmentsOf (Config.settingsOf (Config.entriesOf content)))) ∧
        (project.baseEnv files).given false = .ok env) ∧
    ∀ truth, (project.interactive files).given true = .ok truth ↔
      (Config.HasWritableKeys (Config.entriesOf content) ∧
        Config.HasWritableKeys (Config.settingsOf (Config.entriesOf content))) ∧
        (project.interactive files).given false = .ok truth := by
  refine ⟨fun entries settings assignments assigned => ⟨?_, fun env given => ?_⟩, fun env => ?_,
    fun truth => ?_⟩
  · have gives (env : Env) := @Config.given_foldlM_addVariable false [] env assignments
    rw [baseEnv_eq has assigned]
    simp only [← Config.isVariableValue_iff]
    constructor
    · rintro ⟨env, given⟩
      exact ((gives env).mp given).1.2
    · exact fun writable => ⟨_, (gives _).mpr ⟨⟨nofun, writable⟩, rfl⟩⟩
  · rw [baseEnv_eq has assigned] at given ⊢
    obtain ⟨added, apart, rfl⟩ := Config.comeApart_of_foldlM assigned.areKeyed
      (fun _ _ name known => (List.not_mem_nil known).elim) given
    exact ⟨_, apart, rfl⟩
  · rw [given_baseEnv has, given_baseEnv has, ← and_assoc]
    refine and_congr_left' ⟨fun usable => ?_, fun ⟨⟨keys, settings, names⟩, usable⟩ => ?_⟩
    · exact ⟨⟨usable.keys rfl, usable.settings rfl, usable.names rfl⟩,
        ⟨usable.readable, nofun, nofun⟩, nofun, usable.values⟩
    · exact ⟨⟨usable.readable, fun _ => keys, fun _ => settings⟩, fun _ => names, usable.values⟩
  · rw [given_interactive has, given_interactive has, ← and_assoc]
    refine and_congr_left' ⟨fun usable => ?_, fun ⟨⟨keys, settings⟩, usable⟩ => ?_⟩
    · exact ⟨⟨usable.keys rfl, usable.settings rfl⟩, usable.readable, nofun, nofun⟩
    · exact ⟨usable.readable, fun _ => keys, fun _ => settings⟩

end Project

namespace Project

/-- A configuration with a key that it cannot have, a setting that there is not, and two entries
that set no variable. -/
def mixedText : String :=
  "x: a\nsettings:\n y: b\n env:\n  A: a\n  1b: c\n  B: []\n  C: on\n"

/-- Its entries for variables. -/
def mixedAssignments : List (Value × Value) :=
  [(.str "A", .str "a"), (.str "1b", .str "c"), (.str "B", .list (some 14) []),
    (.str "C", .bool true)]

/-- Its settings. -/
def mixedSettings : List (Value × Value) :=
  [(.str "y", .str "b"), (.str "env", .map (some 8) mixedAssignments)]

/-- All of its entries. -/
def mixedEntries : List (Value × Value) :=
  [(.str "x", .str "a"), (.str "settings", .map (some 4) mixedSettings)]

/-- The files of a project with this configuration alone. -/
def mixed : Files :=
  Files.empty.place sample.configPath (.file mixedText.toUTF8)

/-- Whether these entries are read, and their collections are numbered as they are above. -/
def isMixed : Except Yaml.ReadError Value → Bool
  | .ok (.map (some 0) [(.str "x", .str "a"), (.str "settings", .map (some 4) [(.str "y", .str "b"),
      (.str "env", .map (some 8) [(.str "A", .str "a"), (.str "1b", .str "c"),
        (.str "B", .list (some 14) []), (.str "C", .bool true)])])]) => true
  | _ => false

theorem said_mixed : Yaml.said (some mixedText.toUTF8) = .ok (.map (some 0) mixedEntries) := by
  have isRead : isMixed (Yaml.said (some mixedText.toUTF8)) = true := by
    decide +kernel
  unfold isMixed at isRead
  split at isRead
  · rename_i said
    exact said
  · cases isRead

theorem comeApart_mixed : Config.ComeApart mixedAssignments [("A", "a"), ("C", "true")]
    [.ok "Invalid variable name '1b' in settings.env. Ignoring.",
      .ok "Invalid value for settings.env.B. Ignoring."] := by
  have settable (value : Value) (isValue : Config.isVariableValue value = true) :=
    Config.isVariableValue_iff.mp isValue
  refine .set (by decide) (settable _ rfl) (.other (fun _ same => nomatch same) rfl)
    (.unnamed ?_ (.unset (by decide) (fun isSettable => nomatch isSettable.noList)
      (.set (by decide) (settable _ rfl) (.truth true) .nil)))
  rintro ⟨name, same, named⟩
  obtain rfl := Value.str.inj same
  exact absurd named (by decide)

/-- Two of its entries set variables, and it comes with four warnings, told or not. -/
theorem mixed_comesApart :
    mixed.HasContent sample.configPath (some mixedText.toUTF8) ∧
    Config.HasAssignments (some mixedText.toUTF8) mixedEntries mixedSettings mixedAssignments ∧
    (sample.baseEnv mixed).warnings =
      [.ok "Unsupported config key 'x' in /work/.shell-tasks/config.yaml. Ignoring.",
        .ok "Unsupported settings key 'y' in /work/.shell-tasks/config.yaml. Ignoring.",
        .ok "Invalid variable name '1b' in settings.env. Ignoring.",
        .ok "Invalid value for settings.env.B. Ignoring."] ∧
    ∀ told, (sample.baseEnv mixed).given told = .ok [("A", "a"), ("C", "true")] := by
  have has : mixed.HasContent sample.configPath (some mixedText.toUTF8) := ⟨_, rfl⟩
  have assigned : Config.HasAssignments (some mixedText.toUTF8) mixedEntries mixedSettings
      mixedAssignments := ⟨⟨_, said_mixed, rfl⟩, rfl, rfl⟩
  obtain ⟨entriesAre, settingsAre, assignmentsAre⟩ := assigned.used
  obtain ⟨partition, tells, -⟩ := baseEnv_comesApart sample mixed _ has
  obtain ⟨isGiven, comesApart⟩ := partition _ _ _ assigned
  have writable : ∀ entry ∈ mixedAssignments, entry.2.IsWritable := by
    simp only [mixedAssignments, List.forall_mem_cons]
    exact ⟨⟨"a", rfl⟩, ⟨"c", rfl⟩, ⟨"[]", rfl⟩, ⟨"True", rfl⟩, nofun⟩
  have keys (entries : List (Value × Value))
      (texts : ∀ entry ∈ entries, ∃ name, entry.1 = .str name) :
      Config.HasWritableKeys entries := by
    intro entry member
    obtain ⟨name, same⟩ := texts entry member
    rw [same]
    exact Value.isWritable_str name
  obtain ⟨env, given⟩ := isGiven.mpr fun entry member _ _ => writable entry member
  obtain ⟨warnings, apart, all⟩ := comesApart env given
  obtain ⟨rfl, rfl⟩ := apart.unique comeApart_mixed
  refine ⟨has, assigned, all, fun told => ?_⟩
  cases told with
  | false => exact given
  | true =>
    refine (tells _).mpr ⟨?_, given⟩
    rw [entriesAre, settingsAre, assignmentsAre]
    exact ⟨keys _ (by simp [mixedEntries]), keys _ (by simp [mixedSettings]),
      keys _ (by simp [mixedAssignments])⟩

/-- Where a key has too many digits to be written, whoever is told the warnings gets nothing. -/
theorem not_given_of_numeral :
    ¬ ∀ (project : Project) (files : Files) (content : Option ByteArray),
      files.HasContent project.configPath content → Config.IsReadable content → ∀ truth,
        (project.interactive files).given false = .ok truth →
          (project.interactive files).given true = .ok truth := by
  intro always
  obtain ⟨octets, number, long, said⟩ : ∃ octets number, Number.firstUnwritten ≤ number ∧
      Yaml.said (some octets) = .ok (.map (some 0) [(.int (number : Nat), .null)]) :=
    ⟨_, 16 ^ 3600, by decide +kernel, Yaml.said_numeralText 3600⟩
  have has : (Files.empty.place sample.configPath (.file octets)).HasContent sample.configPath
      (some octets) := ⟨_, rfl⟩
  have readable : Config.IsReadable (some octets) := fun fault failed => by
    rw [said] at failed
    cases failed
  have untold := (@given_interactive _ _ _ _ false has _).mpr ⟨⟨readable, nofun, nofun⟩, rfl⟩
  have told := ((given_interactive has).mp (always _ _ _ has readable _ untold)).1
  have isEntry : (Value.int number, Value.null) ∈ Config.entriesOf (some octets) := by
    rw [Config.entriesOf, said]
    exact List.mem_cons_self
  obtain ⟨text, written⟩ := told.keys rfl _ isEntry
  cases (Value.text_int_of_le long).symm.trans written

end Project

end Taskbook
