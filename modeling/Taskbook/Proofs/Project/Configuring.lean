/-
What is made of any configuration.

A configuration is used as far as it can be: what is no mapping has no entries, what names no
variable is left out, and what is not there is as usual. All of that comes with warnings at most.
Only two things stop a reader: a file that no value can be made of, and a value or a key that has to
be written for a variable or in a warning and cannot be. Where nothing stops the reader, the
variables are an environment, so no rendering fails because of them.
-/

import Taskbook.Proofs.Manifest.Reporting
import Taskbook.Proofs.Project.Contents
import Taskbook.Proofs.Project.Exporting
import Taskbook.Proofs.Rendering.Basing

namespace Taskbook

/-! ### What is used of a configuration -/

namespace Config

/-- The entries of a configuration. Data that are no mapping have none. -/
def entriesOf [Depths] (content : Option ByteArray) : Ordered Value Value :=
  match Yaml.said content with
  | .ok data => data.entries?.getD []
  | .error _ => []

/-- The settings of a configuration. -/
def settingsOf (entries : Ordered Value Value) : Ordered Value Value :=
  (Value.field entries "settings").entries?.getD []

/-- Whether some settings let questions be asked. -/
def allowsQuestions (settings : Ordered Value Value) : Bool :=
  match Value.field settings "interactive_enabled" with
  | .bool truth => truth
  | _ => true

/-- The entries for variables among some settings. -/
def assignmentsOf (settings : Ordered Value Value) : Ordered Value Value :=
  (Value.field settings "env").entries?.getD []

/-- The variable that an entry sets, if it names one and has a value for it. -/
def setBy? (entry : Value × Value) : Option (String × String) :=
  match Env.checkName entry.1 with
  | .ok name =>
    if isVariableValue entry.2 then (variableText entry.2).toOption.map fun text => (name, text)
    else none
  | .error _ => none

/-- The environment that some entries set up. -/
def envOf (assignments : Ordered Value Value) : Env :=
  Ordered.ofEntries (assignments.filterMap setBy?)

/-- All keys of some entries can be written in a warning. -/
def HasWritableKeys (entries : List (Value × Value)) : Prop :=
  ∀ entry ∈ entries, entry.1.IsWritable

/-- An entry that sets a variable has a value that can be written. -/
def IsWritableSetting (entry : Value × Value) : Prop :=
  Env.IsName entry.1 → isVariableValue entry.2 = true → entry.2.IsWritable

variable {told : Bool} {path : Path} {entries settings : Ordered Value Value}

/-! ### Reading with warnings -/

/-- A warning that names a key can be worded if the key can be written. -/
theorem given_warn_key {key : Value} {words : String → String} {done : Unit} :
    (Warned.warn (do return words (← key.text))).given told = .ok done ↔
      (told = true → key.IsWritable) := by
  rw [Warned.given_warn, Value.IsWritable]
  cases key.text <;> simp

theorem exists_given_warn_key {key : Value} {words : String → String} :
    (∃ done, (Warned.warn (do return words (← key.text))).given told = .ok done) ↔
      (told = true → key.IsWritable) := by
  simp only [given_warn_key, exists_const]

theorem given_warnUnknown {known : List String} {warning : Value → Except Fault String}
    {words : String → String} (worded : ∀ key, warning key = do return words (← key.text))
    {done : Unit} : (warnUnknown entries known warning).given told = .ok done ↔
      (told = true → HasWritableKeys entries) := by
  obtain rfl := funext worded
  rw [warnUnknown]
  induction entries with
  | nil =>
    exact iff_of_true (Warned.given_silent _) fun _ _ member => (List.not_mem_nil member).elim
  | cons entry rest inductionHypothesis =>
    rw [List.forM, Warned.given_bind, exists_and_right, inductionHypothesis, HasWritableKeys,
      HasWritableKeys, List.forall_mem_cons, imp_and]
    refine and_congr_left' ?_
    obtain ⟨key, value⟩ := entry
    cases key with
    | str name =>
      dsimp only
      refine iff_of_true ⟨(), ?_⟩ fun _ => Value.isWritable_str name
      split
      · exact Warned.given_silent _
      · exact given_warn_key.mpr fun _ => Value.isWritable_str name
    | _ => exact exists_given_warn_key

/-- The settings are as described, or a key cannot be written in a warning. -/
theorem given_settings [Depths] {result : Ordered Value Value} :
    (Config.settings path entries).given told = .ok result ↔
      ((told = true → HasWritableKeys entries) ∧
        (told = true → HasWritableKeys (settingsOf entries))) ∧ result = settingsOf entries := by
  have warned : ∀ done, (warnUnknown entries ["settings"] (keyWarning path)).given told =
      .ok done ↔ (told = true → HasWritableKeys entries) :=
    fun done => given_warnUnknown fun key => rfl
  rw [Config.settings, Warned.given_bind_of_iff warned, and_assoc]
  refine and_congr_right fun _ => ?_
  have absent (none : settingsOf entries = []) :
      told = true → HasWritableKeys (settingsOf entries) := by
    rw [none]
    exact fun _ entry member => (List.not_mem_nil member).elim
  cases found : Value.field? entries "settings" with
  | none =>
    have nothing : settingsOf entries = [] := by
      rw [settingsOf, Value.field, found]
      rfl
    rw [and_iff_right (absent nothing), nothing]
    exact Warned.given_pure
  | some value =>
    have same : settingsOf entries = value.entries?.getD [] := by
      rw [settingsOf, Value.field, found]
      rfl
    rw [Option.getD_some]
    cases opened : value.entries? with
    | none =>
      have nothing : settingsOf entries = [] := by
        rw [same, opened]
        rfl
      rw [and_iff_right (absent nothing), nothing]
      exact Warned.given_warned
    | some settings =>
      rw [same, opened, Option.getD_some]
      have settingsWarned : ∀ done, (warnUnknown settings ["interactive_enabled", "env"]
          (settingWarning path)).given told = .ok done ↔
            (told = true → HasWritableKeys settings) :=
        fun done => given_warnUnknown fun key => rfl
      dsimp only
      rw [Warned.given_bind_of_iff settingsWarned, Warned.given_pure]

/-- Whether questions may be asked can always be said. -/
theorem given_interactive [Depths] {truth : Bool} :
    (Config.interactive path settings).given told = .ok truth ↔
      truth = allowsQuestions settings := by
  rw [Config.interactive, allowsQuestions]
  cases Value.field settings "interactive_enabled" with
  | null => exact Warned.given_pure
  | bool answer => exact Warned.given_pure
  | _ => exact Warned.given_warned

/-! ### Variables -/

theorem variableText_isOk {value : Value} :
    (∃ text, variableText value = .ok text) ↔ value.IsWritable := by
  rw [Value.IsWritable]
  cases value with
  | bool truth => cases truth <;> exact iff_of_true ⟨_, rfl⟩ ⟨_, rfl⟩
  | _ => rfl

/-- An entry is put into the environment, or left out, unless something cannot be written. -/
theorem given_addVariable {env result : Env} {entry : Value × Value} :
    (addVariable env entry).given told = .ok result ↔
      ((told = true → entry.1.IsWritable) ∧ IsWritableSetting entry) ∧
        result = Ordered.merge env (setBy? entry).toList := by
  obtain ⟨key, value⟩ := entry
  rw [addVariable, setBy?, IsWritableSetting]
  cases checked : Env.checkName key with
  | error error =>
    have unnamed : ¬ Env.IsName key := by
      rw [← Env.checkName_isOk, checked]
      rintro ⟨text, given⟩
      cases given
    have warned : ∀ done, (Warned.warn (variableNameWarning key)).given told = .ok done ↔
        (told = true → key.IsWritable) := fun done => given_warn_key
    dsimp only
    rw [Warned.given_bind_of_iff warned, Warned.given_pure]
    simp only [unnamed, false_implies, and_true]
    rfl
  | ok name =>
    obtain ⟨rfl, named⟩ := Env.checkName_eq_ok checked
    have isName : Env.IsName (.str name) := ⟨name, rfl, named⟩
    have written : told = true → (Value.str name).IsWritable := fun _ => Value.isWritable_str name
    dsimp only
    rw [and_iff_right written]
    split
    · rename_i isValue
      simp only [isName, isValue, true_implies]
      rw [← variableText_isOk, Warned.given_bind]
      have lifted : (liftM (variableText value) : Warned String).given told = variableText value :=
        Warned.given_silent _
      rw [lifted]
      cases variableText value with
      | error fault => simp
      | ok text =>
        simp only [Except.ok.injEq, exists_eq_left', exists_eq', true_and]
        exact Warned.given_pure
    · rename_i noValue
      rw [and_iff_right fun _ isValue => (noValue isValue).elim]
      exact Warned.given_warned

theorem given_foldlM_addVariable {env result : Env} {assignments : List (Value × Value)} :
    (assignments.foldlM addVariable env).given told = .ok result ↔
      ((told = true → HasWritableKeys assignments) ∧
        ∀ entry ∈ assignments, IsWritableSetting entry) ∧
        result = Ordered.merge env (assignments.filterMap setBy?) := by
  induction assignments generalizing env with
  | nil =>
    rw [List.foldlM_nil, Warned.given_pure]
    exact (and_iff_right ⟨fun _ _ member => (List.not_mem_nil member).elim,
      fun _ member => (List.not_mem_nil member).elim⟩).symm
  | cons entry rest inductionHypothesis =>
    -- The rest starts from what the first entry leaves, so the two merges are one.
    have merged : Ordered.merge env ((entry :: rest).filterMap setBy?) =
        Ordered.merge (Ordered.merge env (setBy? entry).toList) (rest.filterMap setBy?) := by
      rw [List.filterMap_cons]
      cases setBy? entry <;> rfl
    rw [List.foldlM_cons, Warned.given_bind, merged]
    simp only [given_addVariable, inductionHypothesis, HasWritableKeys, List.forall_mem_cons,
      imp_and]
    constructor
    · rintro ⟨next, ⟨⟨written, set⟩, rfl⟩, ⟨othersWritten, othersSet⟩, same⟩
      exact ⟨⟨⟨written, othersWritten⟩, set, othersSet⟩, same⟩
    · rintro ⟨⟨⟨written, othersWritten⟩, set, othersSet⟩, same⟩
      exact ⟨_, ⟨⟨written, set⟩, rfl⟩, ⟨othersWritten, othersSet⟩, same⟩

/-- The environment is as described, unless something cannot be written. -/
theorem given_env {result : Env} :
    (Config.env path settings).given told = .ok result ↔
      ((told = true → HasWritableKeys (assignmentsOf settings)) ∧
        ∀ entry ∈ assignmentsOf settings, IsWritableSetting entry) ∧
        result = envOf (assignmentsOf settings) := by
  have absent (none : assignmentsOf settings = []) :
      (((told = true → HasWritableKeys (assignmentsOf settings)) ∧
        ∀ entry ∈ assignmentsOf settings, IsWritableSetting entry) ∧
        result = envOf (assignmentsOf settings)) ↔ result = [] := by
    rw [none]
    exact and_iff_right ⟨fun _ _ member => (List.not_mem_nil member).elim,
      fun _ member => (List.not_mem_nil member).elim⟩
  rw [Config.env]
  split
  · rename_i isNull
    rw [absent (by rw [assignmentsOf, Value.eq_null_of_isNull isNull]; rfl), Warned.given_pure]
  · cases opened : (Value.field settings "env").entries? with
    | none =>
      rw [absent (by rw [assignmentsOf, opened]; rfl)]
      exact Warned.given_warned
    | some assignments =>
      rw [assignmentsOf, opened]
      exact given_foldlM_addVariable

/-- Nothing keeps a value from being made of a configuration that is well formed. -/
def IsReadable [Depths] (content : Option ByteArray) : Prop :=
  ∀ fault, Yaml.said content ≠ .error (.fault fault)

/-- What stops nobody who reads settings: a value can be made of the file, and where warnings are
told the keys can be written. -/
structure HasSettings [Depths] (told : Bool) (content : Option ByteArray) : Prop where
  readable : IsReadable content
  keys : told = true → HasWritableKeys (entriesOf content)
  settings : told = true → HasWritableKeys (settingsOf (entriesOf content))

/-- What stops nobody who reads variables. -/
structure HasVariables [Depths] (told : Bool) (content : Option ByteArray) : Prop
    extends HasSettings told content where
  names : told = true → HasWritableKeys (assignmentsOf (settingsOf (entriesOf content)))
  values : ∀ entry ∈ assignmentsOf (settingsOf (entriesOf content)), IsWritableSetting entry

end Config

/-! ### All contents of a configuration -/

namespace Project

variable [Depths] {project : Project} {files : Files} {content : Option ByteArray} {told : Bool}

theorem given_readConfig (has : files.HasContent project.configPath content)
    {entries : Ordered Value Value} :
    (project.readConfig files).given told = .ok entries ↔
      Config.IsReadable content ∧ entries = Config.entriesOf content := by
  rw [readConfig_of_content has, Config.entriesOf, Config.IsReadable]
  cases said : Yaml.said content with
  | error error =>
    cases error with
    | malformed =>
      rw [and_iff_right fun fault failed => by cases failed]
      exact @Warned.given_warned _ told _ [] entries
    | fault fault =>
      rw [Warned.given_silent]
      exact iff_of_false (fun given => by cases given) fun held => held.1 fault rfl
  | ok data =>
    rw [and_iff_right fun fault failed => by cases failed]
    dsimp only
    rw [← Value.entries?_orElse]
    cases (data.orElse (.ofEntries [])).entries? with
    | none => exact @Warned.given_warned _ told _ [] entries
    | some entries => exact Warned.given_pure

theorem given_settings (has : files.HasContent project.configPath content)
    {settings : Ordered Value Value} :
    (project.settings files).given told = .ok settings ↔
      Config.HasSettings told content ∧ settings = Config.settingsOf (Config.entriesOf content) := by
  rw [Project.settings, Warned.given_bind]
  simp only [given_readConfig has, Config.given_settings]
  constructor
  · rintro ⟨entries, ⟨readable, rfl⟩, ⟨keys, settings⟩, same⟩
    exact ⟨⟨readable, keys, settings⟩, same⟩
  · rintro ⟨⟨readable, keys, settings⟩, same⟩
    exact ⟨_, ⟨readable, rfl⟩, ⟨keys, settings⟩, same⟩

theorem given_baseEnv (has : files.HasContent project.configPath content) {env : Env} :
    (project.baseEnv files).given told = .ok env ↔ Config.HasVariables told content ∧
      env = Config.envOf (Config.assignmentsOf (Config.settingsOf (Config.entriesOf content))) := by
  rw [baseEnv, Warned.given_bind]
  simp only [given_settings has, Config.given_env]
  constructor
  · rintro ⟨settings, ⟨usable, rfl⟩, ⟨names, values⟩, same⟩
    exact ⟨⟨usable, names, values⟩, same⟩
  · rintro ⟨⟨usable, names, values⟩, same⟩
    exact ⟨_, ⟨usable, rfl⟩, ⟨names, values⟩, same⟩

theorem given_interactive (has : files.HasContent project.configPath content) {truth : Bool} :
    (project.interactive files).given told = .ok truth ↔ Config.HasSettings told content ∧
      truth = Config.allowsQuestions (Config.settingsOf (Config.entriesOf content)) := by
  rw [interactive, Warned.given_bind]
  simp only [given_settings has, Config.given_interactive]
  constructor
  · rintro ⟨settings, ⟨usable, rfl⟩, same⟩
    exact ⟨usable, same⟩
  · rintro ⟨usable, same⟩
    exact ⟨_, ⟨usable, rfl⟩, same⟩

/-- Whatever a configuration consists of, its readers give what is described above unless one of the
few things stops them. A task of a manifest that can be loaded is then rendered, or fails to be, as
it would be without any variables of the configuration; otherwise what stopped the reader stops the
rendering. -/
theorem configuration_isGiven_iff (project : Project) (files : Files) (content : Option ByteArray)
    (has : files.HasContent project.configPath content) :
    (∀ told,
      (∀ entries, (project.readConfig files).given told = .ok entries ↔
        Config.IsReadable content ∧ entries = Config.entriesOf content) ∧
      (∀ truth, (project.interactive files).given told = .ok truth ↔
        Config.HasSettings told content ∧
          truth = Config.allowsQuestions (Config.settingsOf (Config.entriesOf content))) ∧
      ∀ env, (project.baseEnv files).given told = .ok env ↔
        Config.HasVariables told content ∧ env =
          Config.envOf (Config.assignmentsOf (Config.settingsOf (Config.entriesOf content)))) ∧
    ∀ registry, (project.load files).result = .ok registry → ∀ (name : Value) reports,
      (Config.HasVariables true content →
        FailLike (project.render name ⟨files, reports⟩).1 (registry.render name .null).result) ∧
      (¬ Config.HasVariables true content →
        ∃ fault, (project.render name ⟨files, reports⟩).1 = .error (.fault fault)) := by
  refine ⟨fun told => ⟨fun entries => given_readConfig has, fun truth => given_interactive has,
    fun env => given_baseEnv has⟩, fun registry loaded name reports => ⟨fun usable => ?_,
      fun unusable => ?_⟩⟩
  · have outcome : (project.baseEnv files).outcome = .ok _ :=
      (@given_baseEnv _ _ _ _ true has _).mpr ⟨usable, rfl⟩
    -- Without a configuration the base is null, which is the layer of no variables.
    rw [render_eq_of_load loaded, outcome]
    exact Registry.render_failLike (Env.layer_toValue _) Env.layer_null name
  · rw [render_eq_of_load loaded]
    cases outcome : (project.baseEnv files).outcome with
    | error fault => exact ⟨fault, rfl⟩
    | ok env => exact (unusable ((@given_baseEnv _ _ _ _ true has env).mp outcome).1).elim

end Project

namespace Project

/-- Each task of the sample is rendered, or fails to be, as without its configuration, though one
entry of that is left out. -/
theorem configured_isGiven :
    configured.HasContent sample.configPath (some configuredSettings.toUTF8) ∧
    (sample.load configured).result = .ok configuredRegistry ∧
    Config.HasVariables true (some configuredSettings.toUTF8) ∧
    ∀ name reports, FailLike (sample.render name ⟨configured, reports⟩).1
      (configuredRegistry.render name .null).result := by
  have has : configured.HasContent sample.configPath (some configuredSettings.toUTF8) := ⟨_, rfl⟩
  obtain ⟨readers, renderings⟩ := configuration_isGiven_iff sample configured _ has
  have usable : Config.HasVariables true (some configuredSettings.toUTF8) :=
    (((readers true).2.2 _).mp baseEnv_configured).1
  exact ⟨has, load_configured, usable,
    fun name reports => (renderings _ load_configured name reports).1 usable⟩

/-- A configuration that is no text stops all readers, whether they are told warnings or not. -/
theorem not_isGiven_of_octet :
    ¬ ∀ (project : Project) (files : Files) (content : Option ByteArray),
      files.HasContent project.configPath content →
        ∃ told entries, (project.readConfig files).given told = .ok entries := by
  intro always
  obtain ⟨told, entries, given⟩ := always sample
    (Files.empty.place sample.configPath (.file ⟨#[0xFF]⟩)) (some ⟨#[0xFF]⟩) ⟨_, rfl⟩
  have undecodable : sample.readConfig (Files.empty.place sample.configPath (.file ⟨#[0xFF]⟩)) =
      .silent (.error .undecodable) := rfl
  rw [undecodable, Warned.given_silent] at given
  cases given

end Project

end Taskbook
