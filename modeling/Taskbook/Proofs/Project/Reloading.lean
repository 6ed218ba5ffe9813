/-
Registries that are written and loaded again.

Whatever changes a registry of texts has been through, its manifest is written to the files of a
project, what is read there is a copy of what was saved, and the registry that is loaded is the
one that was written. So each task is rendered as it would have been before.

That takes texts which are read as they were written. A next-line character that is written
between single quotes is read as the end of a line, so a command that holds one may be another
command afterwards.
-/

import Taskbook.Proofs.Changing
import Taskbook.Proofs.Manifest.Restoring
import Taskbook.Proofs.Project.Integrity

namespace Taskbook

/-- What is saved for a sound registry is read as it was written if all its texts are. -/
theorem Registry.IsSound.isRestored [Depths] {registry : Registry} (sound : registry.IsSound)
    (restorable : registry.IsRestorable) : registry.isRestored = true := by
  rw [Registry.isRestored, saved_manifest sound.env]
  cases written : Manifest.text registry.manifest with
  | error fault => rfl
  | ok text =>
    obtain ⟨copy, read, copied⟩ := sound.read_text restorable written
    dsimp only
    rw [read]
    exact copied

namespace Project

variable [Depths] {project : Project} {files : Files}

/-- Whatever changes led to a registry of texts that are read as they were written, its manifest
can be written. What is read then is a copy of what was saved, and the registry that is loaded and
rendered is the one that was written. -/
theorem readManifest_after (placed : project.IsPlaced) (takes : project.TakesManifest files)
    {env : Value} {start reached : Registry} (created : Registry.create env = .ok start)
    (records : List Record) (changes : List Registry.Change)
    (isReached : (Memory.after ⟨start, records⟩ changes).registry = reached)
    (textual : reached.IsTextual) (restorable : reached.IsRestorable) (reports : List Report) :
    ∃ data after, Manifest.saved reached.manifest = .ok data ∧
      project.writeManifest reached.manifest ⟨files, reports⟩ =
        (.ok (), ⟨after, reports ++ [.record project.writtenRecord]⟩) ∧
      (∃ copy, project.readManifest after = .ok copy ∧ copy.isCopy data = true) ∧
      (project.load after).result = .ok reached ∧
      ∀ name later, (project.render name ⟨after, later⟩).1 =
        orFault (project.baseEnv after).outcome >>= fun base =>
          (reached.render name base.toValue).result := by
  have consistent : reached.IsConsistent :=
    isReached ▸ Registry.isConsistent_after created records changes
  have sound := consistent.isSound textual
  obtain ⟨text, written⟩ := text_isOk sound
  obtain ⟨prepared, namesChecked, writes, takesAgain⟩ := takes.writes placed written reports
  have kept := isKept_of_text written
  have loads : (project.load (prepared.place project.manifestPath (.file text.toUTF8))).result =
      .ok reached :=
    placed.loads_written sound (sound.isRestored restorable) written kept namesChecked
  obtain ⟨copy, read, copied⟩ := sound.read_text restorable written
  refine ⟨_, _, Registry.saved_manifest sound.env, writes, ⟨copy, ?_, copied⟩, loads,
    Holds.render_eq ⟨loads, takesAgain⟩⟩
  rw [placed.readManifest_written kept namesChecked, ofText_of_copy read copied]

end Project

namespace Project

/-- A project that is not there yet takes a manifest. -/
theorem sample_takesManifest : sample.IsPlaced ∧ sample.TakesManifest .empty :=
  have fresh : sample.IsFresh .empty := ⟨⟨by decide, rfl⟩, rfl, rfl⟩
  ⟨fresh.toIsPlaced, fresh.holds_blank.writable⟩

/-- A task with a command of two lines and one with characters that are not printed, which is
written between double quotes, and with texts that look like a truth value and like numbers. -/
def spelled : Registry :=
  ⟨[("STAGE", " 7")], [("lint", ⟨.str "lint", .str "", some .test, .str "yes", [],
    [⟨.run (.str "echo 'a'\nb"), .str "# first", []⟩,
      ⟨.run (.str "echo a\u0085b\x07"), .null, [("A", "1e3")]⟩]⟩)]⟩

/-- The changes that lead to it. -/
def spellingChanges : List Registry.Change :=
  [.setVariable (.str "STAGE") (.str " 7"),
    .add (.str "lint") .null (.str "") (.str "test") (.str "yes") .null,
    .edit (.str "lint") (.run (.str "echo 'a'\nb") (.str "# first") .null),
    .edit (.str "lint")
      (.run (.str "echo a\u0085b\x07") .null (Value.ofEntries [(.str "A", .str "1e3")]))]

theorem spelled_readManifest_after :
    (Memory.after ⟨.blank, []⟩ spellingChanges).registry = spelled ∧
      ∃ data after, Manifest.saved spelled.manifest = .ok data ∧
        sample.writeManifest spelled.manifest ⟨.empty, []⟩ =
          (.ok (), ⟨after, [.record sample.writtenRecord]⟩) ∧
        (∃ copy, sample.readManifest after = .ok copy ∧ copy.isCopy data = true) ∧
        (sample.load after).result = .ok spelled ∧
        ∀ name later, (sample.render name ⟨after, later⟩).1 =
          orFault (sample.baseEnv after).outcome >>= fun base =>
            (spelled.render name base.toValue).result := by
  obtain ⟨placed, takes⟩ := sample_takesManifest
  have isReached : (Memory.after ⟨.blank, []⟩ spellingChanges).registry = spelled := rfl
  have created : Registry.create .null = .ok .blank := rfl
  have textual : spelled.IsTextual := by
    refine ⟨?_, ?_, ?_⟩ <;>
      simp [Registry.HasTextualSteps, Registry.HasTextualConditions, spelled,
        Step.isTextual_run, Value.isTextOrNull_str, Value.isTextOrNull_null]
  exact ⟨isReached, readManifest_after placed takes created [] spellingChanges isReached textual
    (by decide +kernel) []⟩

/-- A task whose command holds a next-line character that is written between single quotes. -/
def broken : Registry :=
  ⟨[], [("a", ⟨.str "a", .null, none, .null, [], [⟨.run (.str "echo a\u0085b"), .null, []⟩]⟩)]⟩

/-- What is read of the manifest that is written for it is not what was saved. -/
theorem broken_isCopy :
    (match Manifest.saved broken.manifest,
        sample.readManifest (sample.writeManifest broken.manifest ⟨.empty, []⟩).2.files with
      | .ok data, .ok copy => copy.isCopy data
      | _, _ => true) = false := by
  decide +kernel

/-- A command with a next-line character that is written between single quotes is not read as it
was written. -/
theorem not_readManifest_of_nextLine :
    (Memory.after ⟨.blank, []⟩
        [.add (.str "a") (Value.str "echo a\u0085b") .null .null .null .null]).registry = broken ∧
      broken.IsTextual ∧ ¬ ∃ data after left, Manifest.saved broken.manifest = .ok data ∧
        sample.writeManifest broken.manifest ⟨.empty, []⟩ = (.ok (), ⟨after, left⟩) ∧
        ∃ copy, sample.readManifest after = .ok copy ∧ copy.isCopy data = true := by
  refine ⟨rfl, ⟨?_, ?_, ?_⟩, ?_⟩
  · simp [Registry.HasTextualSteps, broken, Step.isTextual_run, Value.isTextOrNull_null]
  · simp [Registry.HasTextualConditions, broken, Value.isTextOrNull_null]
  · simp [broken, Value.isTextOrNull_null]
  · rintro ⟨data, after, left, saved, writes, copy, read, copied⟩
    have altered := broken_isCopy
    rw [saved, writes] at altered
    dsimp only at altered
    rw [read] at altered
    dsimp only at altered
    rw [copied] at altered
    cases altered

end Project

end Taskbook
