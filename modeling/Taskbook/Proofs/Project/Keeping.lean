/-
What a project keeps in its files.

Files hold a registry if it is loaded from them and a manifest can be written in their place. Files
without a manifest hold the empty registry. Saving a sound registry makes the files hold it, as
long as what is written for it is read as it was written.
-/

import Taskbook.Project.Viewing
import Taskbook.Proofs.Files
import Taskbook.Proofs.Manifest.Loading
import Taskbook.Proofs.Operation

namespace Taskbook

/-- Whether what is saved for a registry is read as it was written. -/
def Registry.isRestored [Depths] (registry : Registry) : Bool :=
  match Manifest.text registry.manifest, Manifest.saved registry.manifest with
  | .ok text, .ok data =>
    match Yaml.read text with
    | .ok copy => copy.isCopy data
    | .error _ => false
  | _, _ => true

namespace Project

/-- A project whose place is known by names that lead forward, and whose manifest's path can be
looked up. -/
structure IsPlaced (project : Project) : Prop where
  forward : Path.backward ∉ project.directory.parts
  checked : project.manifestPath.check = .ok ()

/-- A project without a manifest, whose directory is there or can be made. -/
structure IsFresh [Depths] (project : Project) (files : Files) : Prop extends project.IsPlaced where
  absent : files.isPresent project.manifestPath = .ok false
  makeable : (files.ensureDirectory project.directory).2 = .ok ()

/-- A manifest can be written to the files of a project: its directory is there or can be made, and
has no other directory in the manifest's place. -/
def TakesManifest [Depths] (project : Project) (files : Files) : Prop :=
  ∃ prepared entries trail,
    files.ensureDirectory project.directory = (prepared, .ok ()) ∧
      prepared.visit project.directory = .ok ⟨.directory entries, trail⟩ ∧
      ∀ inner, Ordered.find? entries "tasks.yaml" ≠ some (.directory inner)

/-- A registry is loaded from the files of a project, and its manifest can be written there. -/
structure Holds [Depths] (project : Project) (files : Files) (registry : Registry) : Prop where
  loads : (project.load files).result = .ok registry
  writable : project.TakesManifest files

variable {project : Project} {files : Files} {registry : Registry}

theorem manifestName_checked : Path.checkName "tasks.yaml" = .ok () :=
  rfl

theorem IsPlaced.manifest_forward (placed : project.IsPlaced) :
    Path.backward ∉ project.manifestPath.parts := by
  rw [manifestPath, Path.parts_child, List.mem_append, List.mem_singleton]
  exact not_or.mpr ⟨placed.forward, by decide⟩

theorem manifest_namesChecked
    (checked : ∀ name ∈ project.directory.parts, Path.checkName name = .ok ()) :
    ∀ name ∈ project.manifestPath.parts, Path.checkName name = .ok () := by
  intro name member
  rw [manifestPath, Path.parts_child, List.mem_append, List.mem_singleton] at member
  rcases member with before | rfl
  · exact checked name before
  · exact manifestName_checked

variable [Depths]

/-- A fresh project holds the empty registry. -/
theorem IsFresh.holds_blank (fresh : project.IsFresh files) : project.Holds files .blank where
  loads := by
    rw [load, Logged.result_bind, Logged.result_lift, readManifest]
    show ((orFault (files.isPresent project.manifestPath) >>= fun present =>
      if present then orFault (files.readText project.manifestPath) >>= fun text =>
        Manifest.ofText project.manifestPath text
      else .ok Manifest.empty) >>= fun manifest => (Registry.ofManifest manifest).result) = _
    rw [fresh.absent]
    rfl
  writable := by
    obtain ⟨prepared, outcome, made⟩ :
        ∃ prepared outcome, files.ensureDirectory project.directory = (prepared, outcome) :=
      ⟨_, _, rfl⟩
    obtain rfl : outcome = .ok () := by
      have makeable := fresh.makeable
      rwa [made] at makeable
    obtain ⟨entries, trail, visited, unchanged⟩ :=
      Files.visit_of_ensureWithin fresh.forward made
    refine ⟨prepared, entries, trail, made, visited, fun inner found => ?_⟩
    rcases unchanged with rfl | rfl
    · cases found
    · obtain ⟨-, namesChecked, reached⟩ :=
        (Files.visit_eq_ok_iff fresh.forward).mp ⟨trail, visited⟩
      have there : prepared.root.at? project.manifestPath.parts = some (.directory inner) := by
        rw [manifestPath, Path.parts_child, Entry.at?_append, reached, Option.bind_some,
          Entry.at?, found]
        exact Entry.at?_nil _
      obtain ⟨back, manifestVisited⟩ := (Files.visit_eq_ok_iff fresh.manifest_forward).mpr
        ⟨fresh.checked, manifest_namesChecked namesChecked, there⟩
      have present := Files.isPresent_of_visit manifestVisited
      rw [fresh.absent] at present
      cases present

/-! ### Loading what was written -/

theorem ofText_of_copy {path : Path} {text : String} {copy : Value}
    (read : Yaml.read text = .ok copy)
    (copied : copy.isCopy (.ofEntries (Value.keyed registry.savedFields)) = true) :
    Manifest.ofText path text = .ok copy := by
  obtain ⟨place, fields, rfl, fieldsCopied⟩ := Value.eq_map_of_isCopy copied
  rw [Manifest.ofText, read]
  cases fields with
  | nil =>
    have size := fieldsCopied.length_eq
    simp [Value.keyed, Registry.savedFields] at size
  | cons field rest => rfl

/-- The text that was written in a manifest's place is what is read there. -/
theorem IsPlaced.readManifest_written (placed : project.IsPlaced) {text : String}
    (kept : ∀ character ∈ text.toList, Text.isKept character = true)
    (namesChecked : ∀ name ∈ project.directory.parts, Path.checkName name = .ok ()) :
    project.readManifest (files.place project.manifestPath (.file text.toUTF8)) =
      Manifest.ofText project.manifestPath text := by
  have manifestNames := manifest_namesChecked namesChecked
  obtain ⟨trail, there⟩ := Files.visit_place files placed.manifest_forward
    placed.checked manifestNames (.file text.toUTF8)
  rw [readManifest]
  show (orFault (Files.isPresent _ project.manifestPath) >>= fun present =>
    if present then orFault (Files.readText _ project.manifestPath) >>= fun text =>
      Manifest.ofText project.manifestPath text
    else .ok Manifest.empty) = _
  rw [Files.isPresent_of_visit there, orFault_ok, ok_bind, if_pos rfl,
    Files.readText_place placed.manifest_forward placed.checked manifestNames, orFault_ok, ok_bind,
    Text.unifyEnds_of_kept kept]

theorem IsPlaced.loads_written (placed : project.IsPlaced) (sound : registry.IsSound)
    (restored : registry.isRestored = true) {text : String}
    (written : Manifest.text registry.manifest = .ok text)
    (kept : ∀ character ∈ text.toList, Text.isKept character = true)
    (namesChecked : ∀ name ∈ project.directory.parts, Path.checkName name = .ok ()) :
    (project.load (files.place project.manifestPath (.file text.toUTF8))).result =
      .ok registry := by
  obtain ⟨copy, read, copied⟩ : ∃ copy, Yaml.read text = .ok copy ∧
      copy.isCopy (.ofEntries (Value.keyed registry.savedFields)) = true := by
    rw [Registry.isRestored, written, Registry.saved_manifest sound.env] at restored
    dsimp only at restored
    split at restored
    · rename_i copy read
      exact ⟨copy, read, restored⟩
    · cases restored
  rw [load, Logged.result_bind, Logged.result_lift, placed.readManifest_written kept namesChecked,
    ofText_of_copy read copied, ok_bind, sound.ofManifest copied]

/-! ### Saving -/

/-- A file keeps the text of any manifest. -/
theorem isKept_of_text {manifest : Value} {text : String}
    (written : Manifest.text manifest = .ok text) :
    ∀ character ∈ text.toList, Text.isKept character = true := by
  obtain ⟨data, -, written⟩ := bind_eq_ok.mp written
  exact Yaml.isKept_of_write written

theorem text_isOk (sound : registry.IsSound) :
    ∃ text, Manifest.text registry.manifest = .ok text := by
  rw [Manifest.text, Registry.saved_manifest sound.env, ok_bind]
  exact Yaml.write_isOk ⟨true⟩ sound.isPlain_saved

omit [Depths] in
/-- A text that files keep is written where a file has been opened. -/
theorem writeText_again {path : Path} (forward : Path.backward ∉ path.parts) {opened : Files}
    (opens : files.writeOctets path ByteArray.empty = .ok opened) {text : String}
    (kept : ∀ character ∈ text.toList, Text.isKept character = true) :
    opened.writeText path text = .ok (files.place path (.file text.toUTF8)) := by
  rw [Files.writeText, Text.plain?_of_kept kept]
  exact Files.writeOctets_again forward opens text.toUTF8

/-- A manifest that has a text is written where one can be, and others can be written after it. -/
theorem TakesManifest.writes (takes : project.TakesManifest files) (placed : project.IsPlaced)
    {manifest : Value} {text : String} (written : Manifest.text manifest = .ok text)
    (reports : List Report) :
    ∃ prepared : Files, (∀ name ∈ project.directory.parts, Path.checkName name = .ok ()) ∧
      project.writeManifest manifest ⟨files, reports⟩ =
        (.ok (), ⟨prepared.place project.manifestPath (.file text.toUTF8),
          reports ++ [.record project.writtenRecord]⟩) ∧
      project.TakesManifest (prepared.place project.manifestPath (.file text.toUTF8)) := by
  obtain ⟨prepared, entries, trail, made, visited, free⟩ := takes
  have kept := isKept_of_text written
  obtain ⟨-, namesChecked, -⟩ :=
    (Files.visit_eq_ok_iff placed.forward).mp ⟨trail, visited⟩
  have opens : prepared.writeOctets project.manifestPath ByteArray.empty =
      .ok (prepared.place project.manifestPath (.file ByteArray.empty)) :=
    Files.writeOctets_child placed.forward (by decide) placed.checked manifestName_checked
      visited free ByteArray.empty
  have writes : Operation.writeText project.manifestPath text ⟨prepared, reports⟩ =
      (.ok (), ⟨prepared.place project.manifestPath (.file text.toUTF8), reports⟩) :=
    Operation.writeText_apply opens (writeText_again placed.manifest_forward opens kept)
  refine ⟨prepared, namesChecked, ?_, ?_⟩
  · have ensured : project.ensureDirectory ⟨files, reports⟩ = (.ok (), ⟨prepared, reports⟩) := by
      rw [ensureDirectory, Operation.attempt_apply, made, orFault_ok]
    have converted : (liftM (Manifest.text manifest) : Operation String)
        ⟨prepared, reports⟩ = (.ok text, ⟨prepared, reports⟩) := by
      rw [Operation.liftFault_apply, written, orFault_ok]
    rw [writeManifest, Operation.bind_of_ok ensured, Operation.bind_of_ok converted,
      Operation.bind_of_ok writes, Operation.report_apply]
  · obtain ⟨back, revisited⟩ :=
      Files.visit_of_placeChild placed.forward visited "tasks.yaml" text.toUTF8
    refine ⟨_, _, back, Files.ensureDirectory_of_visit revisited, revisited, fun inner found => ?_⟩
    rw [Ordered.find?_put_self] at found
    cases found

/-- A sound registry can be saved where another is held, and is held then. -/
theorem Holds.save (holds : project.Holds files registry) (placed : project.IsPlaced)
    {changed : Registry} (sound : changed.IsSound) (restored : changed.isRestored = true)
    (reports : List Report) :
    ∃ after, project.save changed ⟨files, reports⟩ =
        (.ok (), ⟨after, reports ++ [.record project.writtenRecord]⟩) ∧
      project.Holds after changed := by
  obtain ⟨text, written⟩ := text_isOk sound
  obtain ⟨prepared, namesChecked, writes, takesAgain⟩ :=
    TakesManifest.writes holds.writable placed written reports
  exact ⟨_, writes, placed.loads_written sound restored written (isKept_of_text written)
    namesChecked, takesAgain⟩

/-- A task of the registry that is loaded is rendered from the variables of the settings. -/
theorem render_eq_of_load (loaded : (project.load files).result = .ok registry) (name : Value)
    (reports : List Report) : (project.render name ⟨files, reports⟩).1 =
      orFault (project.baseEnv files).outcome >>= fun base =>
        (registry.render name base.toValue).result := by
  have loading : (liftM (project.load files) : Operation Registry) ⟨files, reports⟩ =
      (.ok registry, ⟨files, reports ++ (project.load files).records.map .record⟩) := by
    rw [Operation.liftLogged_apply, loaded]
  rw [render, Operation.bind_of_ok Operation.files_apply, Operation.bind_of_ok loading]
  obtain ⟨left, given⟩ := @Operation.liftWarned_apply _
    ⟨files, reports ++ (project.load files).records.map .record⟩ (project.baseEnv files)
  cases outcome : (project.baseEnv files).outcome with
  | error fault =>
    rw [outcome] at given
    rw [Operation.bind_of_error given]
    rfl
  | ok base =>
    rw [outcome] at given
    rw [Operation.bind_of_ok given]
    rfl

end Project

end Taskbook
