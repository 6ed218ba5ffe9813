/-
Copies of data.

What is read from a text is made of new collections. It is a copy of the data that the text was
written for if it has the same scalars at the same places, its entries and items in the same
order. A copy of a text is that text, so the fields of a copied record are copies of its fields.
-/

import Mathlib.Data.List.Forall2
import Taskbook.Proofs.Ordered
import Taskbook.Value.Equality
import Taskbook.Value.Literal

namespace Taskbook.Value

mutual

/-- Whether a value is a copy of another. Floats are compared by their octets, and which
collections are one and the same does not count. -/
def isCopy : Value → Value → Bool
  | null, null => true
  | bool left, bool right => left = right
  | int left, int right => left = right
  | float left, float right => left.toBits = right.toBits
  | str left, str right => left = right
  | bytes left, bytes right => left = right
  | date _ left, date _ right => left = right
  | moment _ left, moment _ right => left = right
  | list _ left, list _ right => areCopies left right
  | pair _ first second, pair _ other further => isCopy first other && isCopy second further
  | set _ left, set _ right => areCopies left right
  | map _ left, map _ right => haveCopies left right
  | _, _ => false

/-- Whether the items of a list are copies of those of another. -/
def areCopies : List Value → List Value → Bool
  | [], [] => true
  | left :: lefts, right :: rights => isCopy left right && areCopies lefts rights
  | _, _ => false

/-- Whether the entries of a mapping are copies of those of another. -/
def haveCopies : List (Value × Value) → List (Value × Value) → Bool
  | [], [] => true
  | (key, value) :: lefts, (other, further) :: rights =>
    isCopy key other && isCopy value further && haveCopies lefts rights
  | _, _ => false

end

/-- A row of values that are copies of others. -/
abbrev Copies (copies items : List Value) : Prop :=
  List.Forall₂ (fun copy item => copy.isCopy item = true) copies items

/-- Entries that are copies of others. -/
abbrev EntryCopies (copies entries : List (Value × Value)) : Prop :=
  List.Forall₂ (fun copy entry => copy.1.isCopy entry.1 = true ∧ copy.2.isCopy entry.2 = true)
    copies entries

theorem copies_of_areCopies {copies items : List Value}
    (copied : areCopies copies items = true) : Copies copies items := by
  induction copies generalizing items with
  | nil =>
    cases items with
    | nil => exact .nil
    | cons item rest => cases copied
  | cons copy others inductionHypothesis =>
    cases items with
    | nil => cases copied
    | cons item rest =>
      rw [areCopies, Bool.and_eq_true] at copied
      exact .cons copied.1 (inductionHypothesis copied.2)

theorem entryCopies_of_haveCopies {copies entries : List (Value × Value)}
    (copied : haveCopies copies entries = true) : EntryCopies copies entries := by
  induction copies generalizing entries with
  | nil =>
    cases entries with
    | nil => exact .nil
    | cons entry rest => cases copied
  | cons copy others inductionHypothesis =>
    cases entries with
    | nil => cases copied
    | cons entry rest =>
      rw [haveCopies, Bool.and_eq_true, Bool.and_eq_true] at copied
      exact .cons copied.1 (inductionHypothesis copied.2)

/-! ### What is copied -/

variable {value : Value}

theorem eq_null_of_isCopy (copied : value.isCopy null = true) : value = null := by
  cases value with
  | null => rfl
  | _ => cases copied

theorem eq_bool_iff_of_isCopy {copy : Value} (copied : copy.isCopy value = true) {truth : Bool} :
    copy = bool truth ↔ value = bool truth := by
  constructor
  · rintro rfl
    cases value with
    | bool other =>
      rw [of_decide_eq_true copied]
    | _ => cases copied
  · rintro rfl
    cases copy with
    | bool other =>
      rw [of_decide_eq_true copied]
    | _ => cases copied

theorem eq_str_of_isCopy {text : String} (copied : value.isCopy (str text) = true) :
    value = str text := by
  cases value with
  | str other =>
    rw [of_decide_eq_true copied]
  | _ => cases copied

theorem eq_str_of_str_isCopy {text : String} (copied : (str text).isCopy value = true) :
    value = str text := by
  cases value with
  | str other =>
    rw [of_decide_eq_true copied]
  | _ => cases copied

theorem eq_list_of_isCopy {anchor : Option Nat} {items : List Value}
    (copied : value.isCopy (list anchor items) = true) :
    ∃ place copies, value = list place copies ∧ Copies copies items := by
  cases value with
  | list place copies =>
    exact ⟨place, copies, rfl, copies_of_areCopies copied⟩
  | _ => cases copied

theorem eq_map_of_isCopy {anchor : Option Nat} {entries : List (Value × Value)}
    (copied : value.isCopy (map anchor entries) = true) :
    ∃ place copies, value = map place copies ∧ EntryCopies copies entries := by
  cases value with
  | map place copies =>
    exact ⟨place, copies, rfl, entryCopies_of_haveCopies copied⟩
  | _ => cases copied

/-- A value without parts, as it stands in a text. -/
def isScalar : Value → Bool
  | list .. | pair .. | set .. | map .. | knot .. => false
  | _ => true

/-- A copy of a scalar that is not null is one too. -/
theorem isScalar_of_isCopy {copy : Value} (scalar : value.isScalar = true) (given : value ≠ null)
    (copied : copy.isCopy value = true) : copy.isScalar = true ∧ copy ≠ null := by
  cases copy with
  | null => cases value <;> first | exact (given rfl).elim | cases copied
  | list | pair | set | map | knot => cases value <;> first | cases copied | cases scalar
  | _ => exact ⟨rfl, nofun⟩

/-- A copy of a scalar has its text. -/
theorem text_of_isCopy {copy : Value} (scalar : value.isScalar = true)
    (copied : copy.isCopy value = true) : copy.text = value.text := by
  cases value with
  | float number =>
    cases copy with
    | float other =>
      have same : other.toBits = number.toBits := of_decide_eq_true copied
      show Except.ok (Number.FloatForm.write _ other) = .ok (Number.FloatForm.write _ number)
      rw [Number.FloatForm.write, Number.FloatForm.write, same]
    | _ => cases copied
  | null => rw [eq_null_of_isCopy copied]
  | bool | int | str | bytes | date | moment =>
    cases copy <;> first | (obtain rfl := of_decide_eq_true copied; rfl) | cases copied
  | list | pair | set | map | knot => cases scalar

/-! ### Fields -/

/-- The keys that are texts are the same in a copy. -/
theorem keys_of_entryCopies {copies entries : List (Value × Value)}
    (copied : EntryCopies copies entries) (texts : ∀ entry ∈ entries, ∃ text, entry.1 = str text) :
    copies.map Prod.fst = entries.map Prod.fst := by
  induction copied with
  | nil => rfl
  | @cons copy entry others rest same _ inductionHypothesis =>
    obtain ⟨text, isText⟩ := texts entry List.mem_cons_self
    have keySame := same.1
    rw [isText] at keySame
    rw [List.map_cons, List.map_cons, isText, eq_str_of_isCopy keySame,
      inductionHypothesis fun other member => texts other (List.mem_cons_of_mem _ member)]

/-- A field of a copied record is a copy of the field. -/
theorem field?_of_entryCopies {copies entries : List (Value × Value)}
    (copied : EntryCopies copies entries) (name : String) :
    Option.Rel (fun copy value => copy.isCopy value = true) (field? copies name)
      (field? entries name) := by
  induction copied with
  | nil => exact .none
  | @cons copy entry others rest same _ inductionHypothesis =>
    obtain ⟨key, value⟩ := copy
    obtain ⟨other, further⟩ := entry
    obtain ⟨keySame, valueSame⟩ := same
    by_cases isText : ∃ text, other = str text
    · obtain ⟨text, rfl⟩ := isText
      obtain rfl := eq_str_of_isCopy keySame
      rw [field?, field?]
      split
      · exact .some valueSame
      · exact inductionHypothesis
    · have skipped : field? ((other, further) :: rest) name = field? rest name := by
        rw [field?]
        intro text unused same
        exact isText ⟨text, (Prod.mk.inj same).1⟩
      have alsoSkipped : field? ((key, value) :: others) name = field? others name := by
        rw [field?]
        intro text unused same
        obtain ⟨rfl, -⟩ := Prod.mk.inj same
        exact isText ⟨text, eq_str_of_str_isCopy keySame⟩
      rw [skipped, alsoSkipped]
      exact inductionHypothesis

theorem field_of_entryCopies {copies entries : List (Value × Value)}
    (copied : EntryCopies copies entries) (name : String) :
    (field copies name).isCopy (field entries name) = true := by
  have related := field?_of_entryCopies copied name
  rw [field, field]
  generalize field? copies name = copy? at related
  generalize field? entries name = value? at related
  cases related with
  | none => rfl
  | some same => exact same

/-- Entries of texts are copied as they are. -/
theorem eq_of_entryCopies {copies : List (Value × Value)} {entries : List (String × String)}
    (copied : EntryCopies copies (entries.map (Prod.map str str))) :
    copies = entries.map (Prod.map str str) := by
  induction entries generalizing copies with
  | nil => cases copied; rfl
  | cons entry rest inductionHypothesis =>
    cases copied with
    | cons same others =>
      rw [List.map_cons, ← inductionHypothesis others]
      exact congrArg (· :: _) (Prod.ext (eq_str_of_isCopy same.1) (eq_str_of_isCopy same.2))

end Taskbook.Value
