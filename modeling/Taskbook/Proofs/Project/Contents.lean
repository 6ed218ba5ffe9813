/-
What the files of a project say.

A file of a project may not be there, and if it is there it holds octets of any kind. What is read
from it depends on that alone. The octets may be no text, the text may be no data, and some data no
value can be made of.
-/

import Taskbook.Project.Config
import Taskbook.Project.Store
import Taskbook.Proofs.Files
import Taskbook.Proofs.Operation

namespace Taskbook

/-! ### Contents of files -/

namespace Files

/-- There is a file with the given octets at a path, or nothing if none are given. -/
def HasContent (files : Files) (path : Path) : Option ByteArray → Prop
  | none => files.isPresent path = .ok false
  | some octets => ∃ trail, files.visit path = .ok ⟨.file octets, trail⟩

variable {files : Files} {path : Path} {content : Option ByteArray}

theorem HasContent.isPresent (has : files.HasContent path content) :
    files.isPresent path = .ok content.isSome := by
  cases content with
  | none => exact has
  | some octets =>
    obtain ⟨trail, visited⟩ := has
    exact isPresent_of_visit visited

end Files

variable [Depths]

/-- What the content of a file says: nothing if the file is not there. -/
def Yaml.said (content : Option ByteArray) : Except Yaml.ReadError Value :=
  match content with
  | none => .ok .null
  | some octets =>
    match String.fromUTF8? octets with
    | none => .error (.fault .undecodable)
    | some text => Yaml.read (Text.unifyEnds text)

/-- A file that is there is read as a text, or its octets are no text. -/
theorem Files.HasContent.readText {files : Files} {path : Path} {octets : ByteArray}
    (has : files.HasContent path (some octets)) :
    files.readText path = .error .undecodable ∧
        Yaml.said (some octets) = .error (.fault .undecodable) ∨
      ∃ text, files.readText path = .ok text ∧ Yaml.said (some octets) = Yaml.read text := by
  obtain ⟨trail, visited⟩ := has
  have opened : files.readOctets path = .ok octets := by
    rw [readOctets, visited]
    rfl
  rw [Files.readText, opened, ok_bind, Yaml.said]
  cases String.fromUTF8? octets with
  | none => exact Or.inl ⟨rfl, rfl⟩
  | some text => exact Or.inr ⟨_, rfl, rfl⟩

namespace Project

variable {project : Project} {files : Files} {content : Option ByteArray}

/-- A manifest that is there is made of what it says. -/
theorem readManifest_of_content {octets : ByteArray}
    (has : files.HasContent project.manifestPath (some octets)) :
    project.readManifest files =
      match Yaml.said (some octets) with
      | .error .malformed => .error (.manifestSyntax project.manifestPath.text)
      | .error (.fault fault) => .error (.fault fault)
      | .ok data =>
        if (data.orElse (.ofEntries [])).isMap then .ok (data.orElse (.ofEntries []))
        else .error (.manifestFormat project.manifestPath.text) := by
  rw [readManifest, has.isPresent]
  rcases has.readText with ⟨unread, said⟩ | ⟨text, read, said⟩
  · rw [unread, said]
    rfl
  · rw [read, said]
    rfl

/-- A configuration is made of what it says. -/
theorem readConfig_of_content (has : files.HasContent project.configPath content) :
    project.readConfig files =
      match Yaml.said content with
      | .error .malformed => ⟨[Config.syntaxWarning project.configPath], .ok []⟩
      | .error (.fault fault) => .silent (.error fault)
      | .ok data =>
        match (data.orElse (.ofEntries [])).entries? with
        | some entries => .silent (.ok entries)
        | none => ⟨[Config.formatWarning project.configPath], .ok []⟩ := by
  rw [readConfig, has.isPresent]
  cases content with
  | none => rfl
  | some octets =>
    rcases has.readText with ⟨unread, said⟩ | ⟨text, read, said⟩
    · rw [unread, said]
      rfl
    · rw [read, said]
      show Config.ofText project.configPath text = _
      rw [Config.ofText]
      cases Yaml.read text with
      | error error => cases error <;> rfl
      | ok data =>
        dsimp only
        cases (data.orElse (.ofEntries [])).entries? <;> rfl

end Project

end Taskbook
