/-
How names are written and read as keys.

A name of a task, of a variable or of a field is one word of ASCII letters and marks. It stands on
one line, without quotes where its looks allow that, and it is read as it was written. If it is
short, its colon follows on the same line and makes it a key.
-/

import Taskbook.Proofs.Yaml.Outline
import Taskbook.Proofs.Yaml.Recognizing

namespace Taskbook.Yaml

open Sheet (blanks written)

/-! ### The characters of names -/

theorem code_of_continues {character : Char} (continues : continuesTaskName character = true) :
    0x20 < character.toNat ∧ character.toNat < 0x7F := by
  have range {low high : Char}
      (within : (decide (low ≤ character) && decide (character ≤ high)) = true) :
      low.toNat ≤ character.toNat ∧ character.toNat ≤ high.toNat := by
    simpa [Char.le_def, UInt32.le_iff_toNat_le] using within
  simp only [continuesTaskName, startsTaskName, isLetter, isDigit, Bool.or_eq_true,
    decide_eq_true_eq] at continues
  rcases continues with (((((small | large) | digit) | rfl) | rfl) | rfl) | rfl
  · have between := range small
    simp at between
    omega
  · have between := range large
    simp at between
    omega
  · have between := range digit
    simp at between
    omega
  all_goals decide

/-- The characters of names are neither white space nor quotes. -/
structure IsNameLetter (character : Char) : Prop where
  single : IsSingle character
  solid : isSpaceOrBreak character = false
  inLine : Cursor.IsInLine character
  noQuote : character ≠ quote
  noComment : character ≠ '#'

theorem isNameLetter {character : Char} (continues : continuesTaskName character = true) :
    IsNameLetter character := by
  obtain ⟨least, most⟩ := code_of_continues continues
  have other {special : Char} (outside : ¬(0x20 < special.toNat ∧ special.toNat < 0x7F)) :
      character ≠ special := by
    rintro rfl
    exact outside ⟨least, most⟩
  have noBreak : isBreak character = false := by
    simp [isBreak, isDataBreak, @other '\r' (by decide), @other '\n' (by decide),
      @other nextLine (by decide), @other lineSeparator (by decide),
      @other paragraphSeparator (by decide)]
  refine ⟨⟨?_, other (by decide)⟩, ?_, ⟨noBreak, other (by decide)⟩, ?_, ?_⟩
  · have printable : (0x20 ≤ character.toNat && character.toNat ≤ 0x7E) = true := by
      simp
      omega
    rw [isWritable]
    simp only [printable, Bool.or_true, Bool.true_or]
  · rw [isSpaceOrBreak, noBreak, isSpace, decide_eq_false (other (by decide)),
      decide_eq_false (other (by decide))]
    rfl
  · rintro rfl
    exact absurd continues (by decide)
  · rintro rfl
    exact absurd continues (by decide)

/-- What is known of a text that is a key. -/
structure IsName (characters : List Char) : Prop where
  filled : characters ≠ []
  letters : ∀ character ∈ characters, IsNameLetter character
  noMark : ∀ character ∈ characters.head?, character ≠ '-' ∧ character ≠ '.'

theorem isName_of_isKeyName {name : String} (isKey : isKeyName name = true) :
    IsName name.toList := by
  rw [isKeyName] at isKey
  split at isKey
  · cases isKey
  · rename_i first rest isText
    rw [Bool.and_eq_true, Bool.or_eq_true, decide_eq_true_eq, List.all_eq_true] at isKey
    obtain ⟨starts, others⟩ := isKey
    rw [isText]
    have firstContinues : continuesTaskName first = true := by
      rw [continuesTaskName]
      rcases starts with starts | rfl
      · rw [starts]
        rfl
      · rfl
    refine ⟨List.cons_ne_nil _ _, List.forall_mem_cons.mpr ⟨isNameLetter firstContinues,
      fun character member => isNameLetter (others character member)⟩, fun character isFirst => ?_⟩
    obtain rfl := Option.some.inj isFirst
    constructor
    · rintro rfl
      exact absurd starts (by decide)
    · rintro rfl
      exact absurd starts (by decide)

/-! ### Styles -/

theorem toList_ne_nil_of_isPlainText {text : String} (plainly : isPlainText text = true) :
    text.toList ≠ [] := by
  intro empty
  obtain rfl : text = "" := String.toList_injective empty
  exact absurd plainly (by decide)

theorem chooseStyle_of_isPlainText {text : String} (plainly : isPlainText text = true) (key : Bool) :
    chooseStyle .str text (analyze ⟨true⟩ text.toList) key = .plain := by
  have filled := toList_ne_nil_of_isPlainText plainly
  rw [isPlainText, Bool.and_eq_true, decide_eq_true_eq] at plainly
  obtain ⟨isText, plain⟩ := plainly
  have onOneLine : ((analyze ⟨true⟩ text.toList).empty ||
      (analyze ⟨true⟩ text.toList).multiline) = false := by
    cases isCharacters : text.toList with
    | nil => exact absurd isCharacters filled
    | cons first rest =>
      rw [isCharacters] at plain
      simp only [analyze, Bool.not_eq_true', Bool.or_eq_false_iff] at plain
      exact plain.1.2
  rw [chooseStyle, if_neg (by decide), onOneLine, Bool.and_false, decide_eq_true isText, plain]
  rfl

theorem chooseStyle_of_not {text : String} (notPlain : isPlainText text = false) {key : Bool}
    (fits : key = false ∨ (analyze ⟨true⟩ text.toList).multiline = false) :
    chooseStyle .str text (analyze ⟨true⟩ text.toList) key =
      if (analyze ⟨true⟩ text.toList).single then .single else .double := by
  have onOneLine : (key && (analyze ⟨true⟩ text.toList).multiline) = false := by
    rcases fits with rfl | line
    · rfl
    · rw [line, Bool.and_false]
  rw [isPlainText] at notPlain
  have never : (decide (plainTag text = .str) && !(key && ((analyze ⟨true⟩ text.toList).empty ||
      (analyze ⟨true⟩ text.toList).multiline)) && (analyze ⟨true⟩ text.toList).plain) = false := by
    rw [Bool.and_right_comm, notPlain, Bool.false_and]
  rw [chooseStyle, if_neg (by decide), never, if_neg Bool.false_ne_true, onOneLine, Bool.not_false,
    Bool.and_true]

theorem needsTag_str (text : String) {style : Style}
    (isText : style = .plain → plainTag text = .str) : needsTag .str text style = false := by
  rw [needsTag]
  split
  · rename_i plainly
    exact decide_eq_false (not_not_intro (isText plainly))
  · rfl

/-! ### Writing names -/

/-- How a name is written. -/
def spelledName (name : String) : List Char :=
  if isPlainText name then name.toList else quote :: (name.toList ++ [quote])

theorem runs_of_word {characters : List Char} (filled : characters ≠ [])
    (solid : ∀ character ∈ characters, isSpaceOrBreak character = false) :
    runs characters = [characters] := by
  refine List.splitBy_of_isChain filled (List.Pairwise.isChain (List.pairwise_of_forall_mem_list ?_))
  intro left isLeft right isRight
  rw [runKind_of_solid (solid left isLeft), runKind_of_solid (solid right isRight)]
  rfl

theorem doubleQuotes_of_none {characters : List Char}
    (noQuote : ∀ character ∈ characters, character ≠ quote) :
    doubleQuotes characters = characters := by
  induction characters with
  | nil => rfl
  | cons first rest inductionHypothesis =>
    rw [doubleQuotes, List.flatMap_cons, if_neg (noQuote first List.mem_cons_self)]
    exact congrArg (first :: ·) (inductionHypothesis fun other member =>
      noQuote other (List.mem_cons_of_mem _ member))

theorem hasNeighbours_of_none {first second : Char → Bool} {characters : List Char}
    (none : ∀ character ∈ characters, first character = false) :
    hasNeighbours first second characters = false := by
  induction characters with
  | nil => rfl
  | cons character rest inductionHypothesis =>
    cases rest with
    | nil => rfl
    | cons next others =>
      rw [hasNeighbours, none character List.mem_cons_self,
        inductionHypothesis fun other member => none other (List.mem_cons_of_mem _ member)]
      rfl

theorem analyze_name {characters : List Char} (isName : IsName characters) :
    (analyze ⟨true⟩ characters).single = true ∧ (analyze ⟨true⟩ characters).multiline = false ∧
      (analyze ⟨true⟩ characters).empty = false := by
  obtain ⟨filled, letters, -⟩ := isName
  have noBreak (character : Char) (member : character ∈ characters) :
      isDataBreak character = false := by
    have inLine := (letters character member).inLine.1
    rw [isBreak, Bool.or_eq_false_iff] at inLine
    exact inLine.2
  have noBlank (character : Char) (member : character ∈ characters) :
      (character == ' ') = false := by
    rw [beq_eq_false_iff_ne]
    rintro rfl
    exact absurd (letters ' ' member).solid (by decide)
  have writable : characters.all (isWritable ⟨true⟩) = true :=
    List.all_eq_true.mpr fun character member => (letters character member).single.1
  have line : characters.any isDataBreak = false :=
    List.any_eq_false.mpr fun character member => by
      rw [noBreak character member]
      exact Bool.false_ne_true
  obtain ⟨first, rest, rfl⟩ := List.exists_cons_of_ne_nil filled
  rw [analyze]
  dsimp only
  rw [writable, line, hasNeighbours_of_none noBreak, hasNeighbours_of_none noBlank]
  exact ⟨rfl, rfl, rfl⟩

theorem written_writeSingle_name {characters : List Char} (isName : IsName characters)
    (sheet : Sheet) (column : Nat) (fold : Bool) :
    (writeSingle sheet column fold characters).written =
        sheet.written ++ ((if sheet.spaced then [] else [' ']) ++ quote :: (characters ++ [quote])) := by
  obtain ⟨filled, letters, -⟩ := isName
  have oneRun := runs_of_word filled fun character member => (letters character member).solid
  have asItIs := doubleQuotes_of_none fun character member => (letters character member).noQuote
  obtain ⟨first, rest, rfl⟩ := List.exists_cons_of_ne_nil filled
  have isWord := runKind_of_solid (letters first List.mem_cons_self).solid
  rw [writeSingle, oneRun, writeSingleRuns, List.head?_cons, Option.map_some, isWord]
  dsimp only
  rw [writeSingleRuns, asItIs, Sheet.written_mark, Sheet.written_put, Sheet.written_mark]
  simp

theorem written_writePlain_name {characters : List Char} (isName : IsName characters)
    (sheet : Sheet) (column : Nat) (fold : Bool) :
    (writePlain sheet column fold characters).written =
        sheet.written ++ ((if sheet.spaced then [] else [' ']) ++ characters) ∧
      (writePlain sheet column fold characters).indented = false := by
  obtain ⟨filled, letters, -⟩ := isName
  have oneRun := runs_of_word filled fun character member => (letters character member).solid
  obtain ⟨first, rest, rfl⟩ := List.exists_cons_of_ne_nil filled
  have isWord := runKind_of_solid (letters first List.mem_cons_self).solid
  rw [writePlain, oneRun, List.isEmpty_cons, if_neg Bool.false_ne_true, List.foldl_cons,
    List.foldl_nil, writePlainRuns, List.head?_cons, Option.map_some, isWord]
  refine ⟨?_, rfl⟩
  rw [Sheet.written_put]
  show (if sheet.spaced then sheet else sheet.put [' ']).written ++ _ = _
  split
  · rfl
  · rw [Sheet.written_put, List.append_assoc]

/-- A name is written as it is spelled. -/
theorem written_writeScalar_name {name : String} (isKey : isKeyName name = true) (sheet : Sheet)
    (column : Nat) (key : Bool) :
    (writeScalar ⟨true⟩ sheet column key .str name).written =
        sheet.written ++ ((if sheet.spaced then [] else [' ']) ++ spelledName name) ∧
      (writeScalar ⟨true⟩ sheet column key .str name).indented = false := by
  have isName := isName_of_isKeyName isKey
  obtain ⟨single, line, -⟩ := analyze_name isName
  rw [writeScalar, spelledName]
  cases plainly : isPlainText name with
  | true =>
    rw [chooseStyle_of_isPlainText plainly, needsTag_str name fun _ => ?_]
    · exact written_writePlain_name isName sheet column (!key)
    · rw [isPlainText, Bool.and_eq_true, decide_eq_true_eq] at plainly
      exact plainly.1
  | false =>
    rw [chooseStyle_of_not plainly (Or.inr line), single, if_pos rfl,
      needsTag_str name fun never => by cases never]
    exact ⟨written_writeSingle_name isName sheet column (!key), Bool.and_false _⟩

/-! ### Reading names -/

namespace Scan

variable {rest tail : List Char} {spot : Spot} {tokens opened read : List Token} {indent : Int}
  {outer around : List Int} {free : Bool}

theorem isInLine_spelledName {name : String} (isKey : isKeyName name = true) :
    ∀ character ∈ spelledName name, Cursor.IsInLine character := by
  have letters := (isName_of_isKeyName isKey).letters
  have isQuote : Cursor.IsInLine quote := ⟨rfl, by decide⟩
  intro character member
  rw [spelledName] at member
  split at member
  · exact (letters character member).inLine
  · rcases List.mem_cons.mp member with rfl | member
    · exact isQuote
    · rcases List.mem_append.mp member with member | member
      · exact (letters character member).inLine
      · rw [List.mem_singleton.mp member]
        exact isQuote

section

variable {name : String} (isKey : isKeyName name = true)
include isKey

theorem moveTo_spelledName :
    (spot.cursor (spelledName name ++ ':' :: rest)).moveTo (':' :: rest) =
      (spot.right (spelledName name).length).cursor (':' :: rest) := by
  rw [Cursor.moveTo_append, Cursor.advance_inLine (isInLine_spelledName isKey)]

/-- A name without quotes is read up to its colon. -/
theorem plainScalar_name (plainly : IsPlainLine name.toList) (apart : endsWord rest = true) :
    plainScalar ((name.toList ++ ':' :: rest).length + 1) false (indent + 1)
      (name.toList ++ ':' :: rest) = ⟨name.toList, ':' :: rest, false⟩ := by
  have isName := isName_of_isKeyName isKey
  have isWord : IsWord name.toList := ⟨isName.filled,
    fun character member => (isName.letters character member).solid,
    fun character isLast => (plainly.last character isLast).2⟩
  exact readsWords_last (indent + 1) isWord _ _ false (ends_colon _ apart) _ ⟨[], _, none⟩ rfl
    (Nat.lt_succ_self _)

/-- A name between quotes is read up to the second quote. -/
theorem quotedScalar_name :
    quotedScalar ((quote :: (name.toList ++ quote :: ':' :: rest)).length + 1) quote
      (name.toList ++ quote :: ':' :: rest) = .ok (name.toList, ':' :: rest) := by
  have letters := (isName_of_isKeyName isKey).letters
  have reads : Reads singleQuoted (name.toList ++ quote :: ':' :: rest) (name.toList ++ [])
      (':' :: rest) := by
    have word := (singleQuoted_end (':' :: rest) (by simp +decide)).word name.toList
      fun character member => ⟨(letters character member).solid,
        ne_mark_of_isWritable (letters character member).single.1⟩
    rwa [doubleQuotes_of_none fun character member => (letters character member).noQuote] at word
  rw [quotedScalar, if_neg (by decide), reads _ (by rw [List.length_cons]; omega), List.append_nil]

/-- The token of a key before its colon; the place of the key is remembered if it may begin one. -/
theorem act_of_name (inside : indent ≤ spot.column) (apart : endsWord rest = true) {last : Scan}
    (forgets : (outside (':' :: rest) (spot.right (spelledName name).length)
      (.scalar (isPlainText name) name :: tokens) indent outer false
      (if free then [placeHere spot tokens indent] else [])).forgetStale = .ok last) :
    (outside (spelledName name ++ ':' :: rest) spot tokens indent outer free []).act =
      .ok (last, false) := by
  have isName := isName_of_isKeyName isKey
  have moved := @moveTo_spelledName rest spot name isKey
  cases plainly : isPlainText name with
  | true =>
    rw [spelledName, if_pos plainly] at moved forgets ⊢
    rw [plainly] at forgets
    have isLine : IsPlainLine name.toList := isPlainLine_of_plain (by
      rw [isPlainText, Bool.and_eq_true] at plainly
      exact plainly.2)
    have unmarked : Text.mark ∉ name.toList := fun member =>
      ne_mark_of_isWritable (isLine.writable _ member) rfl
    have isToken := plainText_outside tokens outer free
      (@plainScalar_name rest indent name isKey isLine apart) moved
    rw [spelled_of_unmarked unmarked, String.ofList_toList] at isToken
    obtain ⟨first, others, isText⟩ := List.exists_cons_of_ne_nil isName.filled
    have start := (isLine.start first others isText).append (':' :: rest)
    have noMark := isName.noMark first (by rw [isText]; rfl)
    rw [isText] at isToken forgets ⊢
    rw [List.cons_append, ← token_plain start fun _ => isDocumentMark_of_ne noMark.1 noMark.2 _]
      at isToken
    exact act_outside inside isToken forgets
  | false =>
    rw [spelledName, if_neg (by rw [plainly]; exact Bool.false_ne_true)] at moved forgets ⊢
    rw [plainly] at forgets
    have sameText : quote :: (name.toList ++ [quote]) ++ ':' :: rest =
        quote :: (name.toList ++ quote :: ':' :: rest) := by
      simp
    rw [sameText] at moved ⊢
    have isToken := quotedText_outside tokens indent outer free (quotedScalar_name isKey) moved
    rw [← token_quoted (Or.inr rfl), String.ofList_toList] at isToken
    exact act_outside inside isToken forgets

/-- A key before its colon is read, and its place is kept. -/
theorem act_name (short : (spelledName name).length ≤ keyLimit) (inside : indent ≤ spot.column)
    (apart : endsWord rest = true) :
    (outside (spelledName name ++ ':' :: rest) spot tokens indent outer true []).act =
      .ok (outside (':' :: rest) (spot.right (spelledName name).length)
        (.scalar (isPlainText name) name :: tokens) indent outer false
        [placeHere spot tokens indent], false) := by
  have kept := @forgetStale_placeHere (':' :: rest) spot (.scalar (isPlainText name) name :: tokens)
    indent outer false (spot.right (spelledName name).length) rfl
    (by rw [Spot.right]; dsimp only; omega) tokens indent
  exact act_of_name isKey inside apart kept

end

/-- A key with its colon is read, and so is what follows it. -/
theorem leads_name {name : String} (isKey : isKeyName name = true)
    (short : (spelledName name).length ≤ keyLimit)
    (opens : Opens .blockMappingStart tokens indent outer spot.column opened around)
    (apart : endsWord rest = true)
    (proceeds : Proceeds (outside rest ((spot.right (spelledName name).length).right 1)
      (.value :: .scalar (isPlainText name) name :: .key :: opened) spot.column around false [])
      read) :
    Leads (outside (spelledName name ++ ':' :: rest) spot tokens indent outer true []) read := by
  have inside := opens.inside
  have behind : indent ≤ (spot.right (spelledName name).length).column := by
    rw [Spot.right]
    dsimp only
    omega
  refine Proceeds.leads ⟨_, ?_, Nat.le_refl _, leads_closingColon opens behind apart proceeds⟩
    (act_name isKey short inside apart) ?_
  · have rests : Rests (':' :: rest) := ⟨by simp, by simp, by simp +decide, rfl⟩
    have stays : (outside (':' :: rest) (spot.right (spelledName name).length)
        (.scalar (isPlainText name) name :: tokens) indent outer false
        [placeHere spot tokens indent]).toNextToken = _ := toNextToken_of_rests rests
    rw [stays]
    have near : (spot.right (spelledName name).length).index - spot.index ≤ keyLimit := by
      rw [Spot.right]
      dsimp only
      omega
    exact forgetStale_placeHere
      (show (spot.right (spelledName name).length).line = spot.line from rfl) near
  · have filled : 0 < (spelledName name).length := by
      rw [spelledName]
      split
      · exact List.length_pos_of_ne_nil (isName_of_isKeyName isKey).filled
      · exact Nat.succ_pos _
    show (':' :: rest).length < (spelledName name ++ ':' :: rest).length
    rw [List.length_append]
    omega

end Scan

end Taskbook.Yaml
