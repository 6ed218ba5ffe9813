/-
Paths that can be looked up.

A path is looked up by its octets, so it must not be too long. The path of a place in a directory
has all the letters that the same place in an outer directory has, and more. So what can be looked
up in a directory can be looked up in every directory that it is in.
-/

import Mathlib.Algebra.GroupWithZero.Nat
import Mathlib.Algebra.Order.BigOperators.Group.List
import Mathlib.Algebra.Order.Group.Nat
import Taskbook.Files.Path
import Taskbook.Proofs.Outcome
import Taskbook.Proofs.Text

namespace Taskbook

/-! ### Letters before a slash -/

namespace Text

/-- The letters of what stands before a slash are complete, or else the slash is taken for a
half. -/
theorem lettersOf_append_slash (before : List Char) :
    (∀ rest, lettersOf (before ++ '/' :: rest) = lettersOf before ++ .plain '/' :: lettersOf rest) ∨
      ∀ rest, .half 0 ∈ lettersOf (before ++ '/' :: rest) := by
  have slash (rest : List Char) : lettersOf ('/' :: rest) = .plain '/' :: lettersOf rest := by
    cases rest with
    | nil => rfl
    | cons next others => rw [lettersOf, if_neg (by decide)]
  induction before using lettersOf.induct with
  | case1 => exact Or.inl slash
  | case2 character =>
    by_cases isMark : character = mark
    · subst isMark
      refine Or.inr fun rest => ?_
      rw [List.singleton_append, lettersOf, if_pos rfl]
      exact List.mem_cons_self
    · refine Or.inl fun rest => ?_
      rw [List.singleton_append]
      conv_lhs => rw [lettersOf, if_neg isMark, slash]
      rfl
  | case3 next rest inductionHypothesis =>
    simp only [List.cons_append, lettersOf, if_true, List.mem_cons, List.cons.injEq, true_and]
    exact inductionHypothesis.imp_right fun among rest => Or.inr (among rest)
  | case4 character next rest notMark inductionHypothesis =>
    simp only [List.cons_append, lettersOf, if_neg notMark, List.mem_cons, List.cons.injEq,
      true_and]
    exact inductionHypothesis.imp_right fun among rest => Or.inr (among rest)

end Text

namespace Path

open Text

/-- A text takes octets if all of its letters do, and no character of it is the null character. -/
theorem octetCount_eq_ok {text : String} {count : Nat} :
    octetCount text = .ok count ↔ (∀ letter ∈ letters text, octets? letter ≠ none) ∧
      Char.ofNat 0 ∉ text.toList ∧ count = ((letters text).filterMap octets?).sum := by
  have sizes (row : List Letter) : row.mapM octets? =
      if ∀ letter ∈ row, octets? letter ≠ none then some (row.filterMap octets?) else none := by
    induction row with
    | nil => rfl
    | cons first rest inductionHypothesis =>
      rw [List.mapM_cons, inductionHypothesis]
      cases size : octets? first with
      | none => simp [size]
      | some octets =>
        rw [List.filterMap_cons_some size]
        by_cases others : ∀ letter ∈ rest, octets? letter ≠ none
        · rw [if_pos others, if_pos (List.forall_mem_cons.mpr ⟨by simp [size], others⟩)]
          rfl
        · rw [if_neg others, if_neg fun all => others (List.forall_mem_cons.mp all).2]
          rfl
  rw [octetCount, sizes]
  by_cases all : ∀ letter ∈ letters text, octets? letter ≠ none
  · rw [if_pos all]
    dsimp only
    have sum : ((letters text).filterMap octets?).foldl (fun total size => total + size) 0 =
        ((letters text).filterMap octets?).sum := (List.sum_eq_foldl ..).symm
    by_cases null : Char.ofNat 0 ∈ text.toList
    · rw [pure_bind, if_pos (List.contains_iff_mem.mpr null)]
      exact iff_of_false nofun fun counted => counted.2.1 null
    · rw [pure_bind, if_neg (mt List.contains_iff_mem.mp null), sum]
      constructor
      · rintro ⟨⟩
        exact ⟨all, null, rfl⟩
      · rintro ⟨-, -, rfl⟩
        rfl
  · rw [if_neg all]
    simp [all]

/-- What takes octets takes fewer without some of its letters. -/
theorem octetCount_of_sublist {shorter longer : String} {count : Nat}
    (fewer : (letters shorter).Sublist (letters longer))
    (characters : shorter.toList ⊆ longer.toList) (counted : octetCount longer = .ok count) :
    ∃ less ≤ count, octetCount shorter = .ok less := by
  obtain ⟨all, noNull, rfl⟩ := octetCount_eq_ok.mp counted
  refine ⟨_, ?_, octetCount_eq_ok.mpr ⟨fun letter member => all letter (fewer.subset member),
    fun null => noNull (characters null), rfl⟩⟩
  exact (fewer.filterMap octets?).sum_le_sum fun _ _ => Nat.zero_le _

theorem check_eq_ok {path : Path} :
    path.check = .ok () ↔ ∃ count ≤ pathLimit, octetCount path.text = .ok count := by
  rw [check]
  cases octetCount path.text with
  | error fault => simp
  | ok count =>
    by_cases long : pathLimit < count
    · rw [ok_bind, if_pos long]
      exact iff_of_false nofun fun ⟨_, few, same⟩ => by
        obtain rfl := Except.ok.inj same
        omega
    · rw [ok_bind, if_neg long]
      exact iff_of_true rfl ⟨count, Nat.le_of_not_lt long, rfl⟩

/-- A path of too many characters cannot be looked up, if each of them is a letter by itself. -/
theorem check_of_long {path : Path}
    (kept : ∀ character ∈ path.text.toList, isKept character = true)
    (noNull : Char.ofNat 0 ∉ path.text.toList) (long : pathLimit < path.text.toList.length) :
    path.check = .error .nameTooLong := by
  have row : letters path.text = path.text.toList.map .plain := lettersOf_of_kept kept
  have sizes : (letters path.text).filterMap octets? = path.text.toList.map Char.utf8Size := by
    rw [row, List.filterMap_map]
    exact congrFun List.filterMap_eq_map _
  have counted : octetCount path.text = .ok (path.text.toList.map Char.utf8Size).sum := by
    refine octetCount_eq_ok.mpr ⟨fun letter member => ?_, noNull, by rw [sizes]⟩
    rw [row] at member
    obtain ⟨character, -, rfl⟩ := List.mem_map.mp member
    exact Option.some_ne_none _
  have least : path.text.toList.length ≤ (path.text.toList.map Char.utf8Size).sum := by
    generalize path.text.toList = characters
    induction characters with
    | nil => exact Nat.le_refl 0
    | cons first rest inductionHypothesis =>
      have positive := first.utf8Size_pos
      rw [List.length_cons, List.map_cons, List.sum_cons]
      omega
  rw [check, counted, ok_bind, if_pos (long.trans_le least)]
  rfl

/-- The characters of a place in a directory. -/
theorem text_child (path : Path) (name : String) : (path.child name).text.toList =
    (path.parts.flatMap fun part => '/' :: part.toList) ++ '/' :: name.toList := by
  obtain ⟨parts⟩ := path
  rw [text, child]
  induction parts with
  | nil => simp
  | cons first rest inductionHypothesis =>
    cases rest with
    | nil => simp at *
    | cons second others =>
      simp at *
      exact inductionHypothesis

/-- What can be looked up in a directory can be looked up in those that it is in. -/
theorem check_child_of_append {path : Path} {below : List String} {name : String}
    (checked : (Path.child ⟨path.parts ++ below⟩ name).check = .ok ()) :
    (path.child name).check = .ok () := by
  cases below with
  | nil => rwa [List.append_nil] at checked
  | cons first rest =>
    obtain ⟨count, few, counted⟩ := check_eq_ok.mp checked
    obtain ⟨all, -, -⟩ := octetCount_eq_ok.mp counted
    have notTaken : .half 0 ∉ letters (Path.child ⟨path.parts ++ first :: rest⟩ name).text :=
      fun taken => all _ taken rfl
    have inserted {α : Type} (before between after : List α) (item : α) :
        (before ++ item :: after).Sublist (before ++ item :: (between ++ item :: after)) :=
      (((List.sublist_cons_self _ _).trans
        (List.sublist_append_right _ _)).cons_cons _).append_left _
    let outer := path.parts.flatMap fun part => '/' :: part.toList
    let inner := first.toList ++ rest.flatMap fun part => '/' :: part.toList
    have longer : (Path.child ⟨path.parts ++ first :: rest⟩ name).text.toList =
        outer ++ '/' :: (inner ++ '/' :: name.toList) := by
      rw [text_child, List.flatMap_append, List.flatMap_cons, List.append_assoc]
      simp only [List.cons_append, List.append_assoc, outer, inner]
    have shorter : (path.child name).text.toList = outer ++ '/' :: name.toList := text_child ..
    rw [letters, longer] at notTaken
    rcases lettersOf_append_slash outer with outerComplete | taken
    · rw [outerComplete] at notTaken
      rcases lettersOf_append_slash inner with innerComplete | taken
      · have fewer : (letters (path.child name).text).Sublist
            (letters (Path.child ⟨path.parts ++ first :: rest⟩ name).text) := by
          rw [letters, letters, longer, shorter, outerComplete, outerComplete, innerComplete]
          exact inserted _ _ _ _
        have characters : (path.child name).text.toList ⊆
            (Path.child ⟨path.parts ++ first :: rest⟩ name).text.toList := by
          rw [longer, shorter]
          exact (inserted _ _ _ _).subset
        obtain ⟨less, fewerOctets, lessCounted⟩ := octetCount_of_sublist fewer characters counted
        exact check_eq_ok.mpr ⟨less, fewerOctets.trans few, lessCounted⟩
      · exact (notTaken (List.mem_append_right _ (List.mem_cons_of_mem _ (taken _)))).elim
    · exact (notTaken (taken _)).elim

end Path

end Taskbook
