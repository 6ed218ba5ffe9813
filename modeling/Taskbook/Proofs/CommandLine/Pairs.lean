/-
What pairs on the command line set.

A pair gives a key its value: the key stands before the first equals sign, the value is all that
stands behind it. Pairs write a dictionary one after the other, so that a key keeps the place where
it was first given and the value that it was given last. The dictionary is checked as a whole, but
only if every pair has a sign. So a pair without one is reported before any name.
-/

import Taskbook.CommandLine.Pairs
import Taskbook.Proofs.Manifest.Grammar

namespace Taskbook

namespace CommandLine

/-! ### One pair -/

/-- A text gives a key its value: the key is what stands before the first equals sign, without the
blanks around it, and the value is what stands behind. -/
def Gives (text : String) (entry : String × String) : Prop :=
  ∃ before : List Char, '=' ∉ before ∧ text.toList = before ++ '=' :: entry.2.toList ∧
    entry.1 = Text.strip (String.ofList before)

variable {characters key value : List Char} {text : String} {entry : String × String}

theorem splitPair?_of_ne {first : Char} (noSign : first ≠ '=') (rest : List Char) :
    splitPair? (first :: rest) =
      (splitPair? rest).map fun (key, value) => (first :: key, value) := by
  rw [splitPair?]
  exact noSign

theorem splitPair?_eq_none : splitPair? characters = none ↔ '=' ∉ characters := by
  induction characters with
  | nil => exact iff_of_true rfl List.not_mem_nil
  | cons first rest inductionHypothesis =>
    by_cases isSign : first = '='
    · subst isSign
      simp [splitPair?]
    · rw [splitPair?_of_ne isSign, Option.map_eq_none_iff, inductionHypothesis, List.mem_cons]
      exact (not_or.trans (and_iff_right (Ne.symm isSign))).symm

/-- The sign that separates is the first one. -/
theorem splitPair?_append (noSign : '=' ∉ key) (value : List Char) :
    splitPair? (key ++ '=' :: value) = some (key, value) := by
  induction key with
  | nil => rfl
  | cons first rest inductionHypothesis =>
    rw [List.mem_cons, not_or] at noSign
    rw [List.cons_append, splitPair?_of_ne (Ne.symm noSign.1), inductionHypothesis noSign.2]
    rfl

theorem eq_append_of_splitPair? (split : splitPair? characters = some (key, value)) :
    '=' ∉ key ∧ characters = key ++ '=' :: value := by
  induction characters generalizing key with
  | nil => cases split
  | cons first rest inductionHypothesis =>
    by_cases isSign : first = '='
    · subst isSign
      obtain ⟨rfl, rfl⟩ := Prod.mk.inj (Option.some.inj split)
      exact ⟨List.not_mem_nil, rfl⟩
    · rw [splitPair?_of_ne isSign, Option.map_eq_some_iff] at split
      obtain ⟨⟨before, behind⟩, further, same⟩ := split
      obtain ⟨rfl, rfl⟩ := Prod.mk.inj same
      obtain ⟨noSign, rfl⟩ := inductionHypothesis further
      exact ⟨by simp [noSign, Ne.symm isSign], rfl⟩

theorem pair_eq_ok : pair text = .ok entry ↔ Gives text entry := by
  rw [pair]
  constructor
  · intro given
    split at given
    · cases given
    · rename_i key value split
      obtain rfl := Except.ok.inj given
      obtain ⟨noSign, whole⟩ := eq_append_of_splitPair? split
      exact ⟨key, noSign, by rw [whole, String.toList_ofList], rfl⟩
  · rintro ⟨key, noSign, whole, named⟩
    rw [whole, splitPair?_append noSign]
    dsimp only
    rw [String.ofList_toList, ← named]

theorem pair_of_noSign (noSign : '=' ∉ text.toList) : pair text = .error (.envPair text) := by
  rw [pair, splitPair?_eq_none.mpr noSign]

/-- A text with an equals sign gives some key its value. -/
theorem exists_gives (sign : '=' ∈ text.toList) : ∃ entry, Gives text entry := by
  cases given : pair text with
  | ok entry => exact ⟨entry, pair_eq_ok.mp given⟩
  | error error =>
    rw [pair] at given
    split at given
    · rename_i none
      exact (splitPair?_eq_none.mp none sign).elim
    · cases given

theorem Gives.unique {other : String × String} (gives : Gives text entry)
    (also : Gives text other) : entry = other :=
  Except.ok.inj ((pair_eq_ok.mpr gives).symm.trans (pair_eq_ok.mpr also))

/-! ### All pairs -/

variable {pairs : List String} {entries : List (String × String)} {env : Env}

/-- Pairs that all have a sign give their keys values one by one. -/
theorem exists_forall₂_gives (signs : ∀ text ∈ pairs, '=' ∈ text.toList) :
    ∃ entries, pairs.mapM pair = .ok entries ∧ List.Forall₂ Gives pairs entries := by
  obtain ⟨entries, given⟩ := mapM_isOk fun text member => by
    obtain ⟨entry, gives⟩ := exists_gives (signs text member)
    exact ⟨entry, pair_eq_ok.mpr gives⟩
  exact ⟨entries, given, forall₂_of_mapM (fun _ _ _ same => pair_eq_ok.mp same) given⟩

/-- The first pair without a sign is the one that is reported. -/
theorem mapM_pair_of_noSign {before after : List String}
    (signs : ∀ other ∈ before, '=' ∈ other.toList) (noSign : '=' ∉ text.toList) :
    (before ++ text :: after).mapM pair = .error (.envPair text) := by
  refine mapM_eq_error (fun other member => ?_) (pair_of_noSign noSign)
  obtain ⟨entry, gives⟩ := exists_gives (signs other member)
  exact ⟨entry, pair_eq_ok.mpr gives⟩

end CommandLine

namespace Env

/-- An environment without a variable that is set twice describes itself, as a mapping, where its
variables can be set. -/
theorem ofValue_toValue_eq_ok {env made : Env} (distinct : (Ordered.keys env).Nodup) :
    ofValue env.toValue = .ok made ↔ env.IsValid ∧ made = env := by
  rw [ofValue_of_entries? rfl]
  constructor
  · intro described
    have settings := ofEntries_isOk.mp ⟨made, described⟩
    have valid : env.IsValid := by
      refine ⟨fun entry member => ?_, distinct⟩
      obtain ⟨name, same, named⟩ := (settings _ (List.mem_map_of_mem member)).1
      obtain rfl := Value.str.inj same
      exact named
    exact ⟨valid, Except.ok.inj (described.symm.trans valid.ofEntries_entries)⟩
  · rintro ⟨valid, rfl⟩
    exact valid.ofEntries_entries

theorem isAnswered_ofValue_toValue (env : Env) : IsAnswered False (ofValue env.toValue) := by
  rw [(failsOnly_ofValue _).isAnswered_iff, ofValue_of_entries? rfl, isUnreported_ofEntries]
  rintro ⟨before, entry, after, whole, -, unreportable⟩
  have isEntry : entry ∈ env.entries := whole ▸ List.mem_append_right _ List.mem_cons_self
  obtain ⟨set, -, rfl⟩ := List.mem_map.mp isEntry
  rcases unreportable with unnamed | ⟨-, unwritten⟩
  · exact unnamed (Value.hasLiteral_str set.1)
  · exact unwritten (Value.isWritable_str set.2)

end Env

namespace CommandLine

/-- Where all pairs have a sign, what they give is written into a dictionary that is checked. -/
theorem envOfPairs_of_signs (signs : ∀ text ∈ pairs, '=' ∈ text.toList) :
    ∃ entries, List.Forall₂ Gives pairs entries ∧
      envOfPairs pairs = Env.ofValue (Env.toValue (Ordered.ofEntries entries)) := by
  obtain ⟨entries, given, gives⟩ := exists_forall₂_gives signs
  refine ⟨entries, gives, ?_⟩
  rw [envOfPairs, given]
  rfl

theorem envOfPairs_of_noSign {before after : List String}
    (signs : ∀ other ∈ before, '=' ∈ other.toList) (noSign : '=' ∉ text.toList) :
    envOfPairs (before ++ text :: after) = .error (.envPair text) := by
  rw [envOfPairs, mapM_pair_of_noSign signs noSign]
  rfl

/-- A key that pairs give a value is one of the dictionary that they write. -/
theorem exists_gives_iff (each : List.Forall₂ Gives pairs entries) {name : String} :
    name ∈ Ordered.keys (Ordered.ofEntries entries) ↔
      ∃ text ∈ pairs, ∃ entry, Gives text entry ∧ entry.1 = name := by
  rw [(Ordered.isWrittenBy_ofEntries entries).keys, List.mem_eraseDups, Ordered.keys, List.mem_map]
  induction each with
  | nil => simp
  | @cons text entry texts others gives _ inductionHypothesis =>
    have head : (∃ other, Gives text other ∧ other.1 = name) ↔ entry.1 = name := by
      constructor
      · rintro ⟨other, also, same⟩
        exact gives.unique also ▸ same
      · exact fun same => ⟨entry, gives, same⟩
    simp only [List.mem_cons, or_and_right, exists_or, exists_eq_left, head, inductionHypothesis]

theorem distinct_ofEntries (entries : List (String × String)) :
    (Ordered.keys (Ordered.ofEntries entries)).Nodup := by
  have empty : (Ordered.keys ([] : Env)).Nodup := List.nodup_nil
  exact Ordered.nodup_merge empty entries

/-- The dictionary that pairs write is an environment where each of their keys names a variable. -/
theorem isValid_ofEntries_iff (each : List.Forall₂ Gives pairs entries) :
    Env.IsValid (Ordered.ofEntries entries) ↔
      ∀ text ∈ pairs, ∀ entry, Gives text entry → isVariableName entry.1 = true := by
  constructor
  · intro valid text member entry gives
    obtain ⟨set, setMember, same⟩ :=
      List.mem_map.mp ((exists_gives_iff each).mpr ⟨text, member, entry, gives, rfl⟩)
    exact same ▸ valid.named set setMember
  · refine fun named => ⟨fun set member => ?_, distinct_ofEntries entries⟩
    obtain ⟨text, textMember, entry, gives, same⟩ :=
      (exists_gives_iff each).mp (List.mem_map_of_mem member)
    exact same ▸ named text textMember entry gives

/-! ### Names as keys -/

/-- The characters of names are visible ones of ASCII. -/
theorem isBlank_of_continuesVariableName {character : Char}
    (continues : continuesVariableName character = true) : Text.isBlank character = false := by
  have range {low high : Char}
      (within : (decide (low ≤ character) && decide (character ≤ high)) = true) :
      low.toNat ≤ character.toNat ∧ character.toNat ≤ high.toNat := by
    simpa [Char.le_def, UInt32.le_iff_toNat_le] using within
  have visible (least : 0x21 ≤ character.toNat) (most : character.toNat ≤ 0x7E) :
      Text.isBlank character = false := by
    simp only [Text.isBlank, Bool.or_eq_false_iff, Bool.and_eq_false_iff, decide_eq_false_iff_not,
      beq_eq_false_iff_ne]
    omega
  simp only [continuesVariableName, startsVariableName, isLetter, isDigit, Bool.or_eq_true,
    decide_eq_true_eq] at continues
  rcases continues with ((small | large) | rfl) | digit
  · have between := range small
    simp at between
    exact visible (by omega) (by omega)
  · have between := range large
    simp at between
    exact visible (by omega) (by omega)
  · rfl
  · have between := range digit
    simp at between
    exact visible (by omega) (by omega)

/-- A text without blanks is what is left of it between blanks. -/
theorem strip_eq_self (visible : ∀ character ∈ text.toList, Text.isBlank character = false) :
    Text.strip text = text := by
  have drops (characters : List Char)
      (each : ∀ character ∈ characters, Text.isBlank character = false) :
      characters.dropWhile Text.isBlank = characters := by
    cases characters with
    | nil => rfl
    | cons first rest => exact List.dropWhile_cons_of_neg (by simp [each first List.mem_cons_self])
  rw [Text.strip, Text.dropBlanks, drops _ visible, Text.dropBlanksEnd,
    drops _ fun character member => visible character (List.mem_reverse.mp member),
    List.reverse_reverse, String.ofList_toList]

/-- The pair of a name and a text gives the name that text. -/
theorem gives_pairText {name : String} (named : isVariableName name = true) (value : String) :
    Gives (name ++ "=" ++ value) (name, value) := by
  have continues := continues_of_isVariableName named
  refine ⟨name.toList, fun sign => ?_, ?_, ?_⟩
  · exact absurd (continues _ sign) (by decide)
  · simp
  · rw [String.ofList_toList, strip_eq_self fun character member =>
      isBlank_of_continuesVariableName (continues character member)]

/-- The pairs of a valid environment set it again. -/
theorem envOfPairs_pairTexts (valid : env.IsValid) :
    envOfPairs (env.map fun (name, value) => name ++ "=" ++ value) = .ok env := by
  have given : (env.map fun (name, value) => name ++ "=" ++ value).mapM pair =
      .ok (env.map id) := mapM_map_eq_ok fun entry member =>
    pair_eq_ok.mpr (gives_pairText (valid.named entry member) entry.2)
  rw [envOfPairs, given, List.map_id, ok_bind, Ordered.ofEntries_of_nodup valid.distinct,
    Env.ofValue_of_entries? rfl, valid.ofEntries_entries]

/-! ### What is decoded -/

/-- Whatever pairs are given, they are refused exactly where one of them has no sign or names no
variable, and the caller is told what is invalid: the first one without a sign, wherever the names
are. Otherwise they are written into a dictionary one after the other. The pairs of an environment
set this environment. -/
theorem envOfPairs_decodes (pairs : List String) :
    ((∃ error, envOfPairs pairs = .error error) ↔
      (∃ text ∈ pairs, '=' ∉ text.toList) ∨
        ∃ text ∈ pairs, ∃ entry, Gives text entry ∧ isVariableName entry.1 = false) ∧
    IsAnswered False (envOfPairs pairs) ∧
    (∀ before text after, pairs = before ++ text :: after →
      (∀ other ∈ before, '=' ∈ other.toList) → '=' ∉ text.toList →
        envOfPairs pairs = .error (.envPair text)) ∧
    (∀ env, envOfPairs pairs = .ok env →
      ∃ entries, List.Forall₂ Gives pairs entries ∧ env.IsWrittenBy entries) ∧
    ∀ env : Env, env.IsValid →
      envOfPairs (env.map fun (name, value) => name ++ "=" ++ value) = .ok env := by
  have refused : (∃ error, envOfPairs pairs = .error error) ↔
      ¬ ∃ env, envOfPairs pairs = .ok env := by
    cases envOfPairs pairs <;> simp
  rcases forall_or_first (fun text : String => '=' ∈ text.toList) pairs with
    signs | ⟨first, missing, rest, rfl, signs, noSign⟩
  · obtain ⟨entries, gives, decoded⟩ := envOfPairs_of_signs signs
    have set (env : Env) := @Env.ofValue_toValue_eq_ok _ env (distinct_ofEntries entries)
    refine ⟨?_, decoded ▸ Env.isAnswered_ofValue_toValue _, ?_, fun env given => ?_,
      fun env => envOfPairs_pairTexts⟩
    · rw [refused, decoded, or_iff_right fun ⟨text, member, noSign⟩ => noSign (signs text member)]
      simp only [set, exists_eq_right, isValid_ofEntries_iff gives]
      simp
    · rintro before text after rfl - noSign
      exact (noSign (signs text (List.mem_append_right _ List.mem_cons_self))).elim
    · obtain ⟨-, rfl⟩ := (set env).mp (decoded ▸ given)
      exact ⟨entries, gives, Ordered.isWrittenBy_ofEntries entries⟩
  · have reported := @envOfPairs_of_noSign missing first rest signs noSign
    refine ⟨?_, ?_, ?_, fun env given => ?_, fun env => envOfPairs_pairTexts⟩
    · exact iff_of_true ⟨_, reported⟩
        (Or.inl ⟨missing, List.mem_append_right _ List.mem_cons_self, noSign⟩)
    · rw [reported]
      exact Or.inr ⟨_, ⟨.invalid, _⟩, rfl, rfl, Or.inl rfl⟩
    · intro before text after whole otherSigns otherMissing
      rw [whole]
      exact envOfPairs_of_noSign otherSigns otherMissing
    · cases reported.symm.trans given

/-- Pairs of a sample: one key twice, with blanks around it, and a value with a sign in it. -/
def samplePairs : List String :=
  [" CI=yes", "FLAGS=-O2 -D=1", "CI\t=  no"]

/-- They set two variables, and without its sign one of them is refused before any name is. -/
theorem samplePairs_decode :
    envOfPairs samplePairs = .ok [("CI", "  no"), ("FLAGS", "-O2 -D=1")] ∧
      envOfPairs ["1CI=yes", "FLAGS"] = .error (.envPair "FLAGS") ∧
      (∃ entries, List.Forall₂ Gives samplePairs entries ∧
        Ordered.IsWrittenBy [("CI", "  no"), ("FLAGS", "-O2 -D=1")] entries) ∧
      envOfPairs ["CI=  no", "FLAGS=-O2 -D=1"] = .ok [("CI", "  no"), ("FLAGS", "-O2 -D=1")] := by
  have decoded : envOfPairs samplePairs = .ok [("CI", "  no"), ("FLAGS", "-O2 -D=1")] := by rfl
  have valid : Env.IsValid [("CI", "  no"), ("FLAGS", "-O2 -D=1")] := ⟨by decide, by decide⟩
  obtain ⟨-, -, -, writes, again⟩ := envOfPairs_decodes samplePairs
  obtain ⟨-, -, reports, -⟩ := envOfPairs_decodes ["1CI=yes", "FLAGS"]
  exact ⟨decoded, reports ["1CI=yes"] "FLAGS" [] rfl (by decide) (by decide),
    writes _ decoded, again _ valid⟩

end CommandLine

end Taskbook
