/-
Texts without quotes are read as they were written.

A text that may stand without quotes is a sentence: words with blanks between them. No word ends
with a colon, and none but the first could start with a number sign anyway. A single blank may have
become a line end with indentation, over which the sentence goes on. It ends before the colon of a
key, or at the end of a line if the next one is not further right.
-/

import Taskbook.Proofs.Yaml.Quoting
import Taskbook.Yaml.Token.Words

namespace Taskbook.Yaml

open Sheet (blanks written)

/-! ### Sentences -/

/-- Whether some characters are a word of a sentence. -/
structure IsWord (characters : List Char) : Prop where
  filled : characters ≠ []
  solid : ∀ character ∈ characters, isSpaceOrBreak character = false
  last : ∀ character ∈ characters.getLast?, character ≠ ':'

/-- Rows of words with blanks between them. -/
inductive IsSentence : List (List Char) → Prop where
  | last {characters : List Char} (word : IsWord characters) : IsSentence [characters]
  | more {characters next : List Char} {count : Nat} {rest : List (List Char)}
    (word : IsWord characters) (positive : 0 < count) (noComment : next.head? ≠ some '#')
    (others : IsSentence (next :: rest)) :
    IsSentence (characters :: blanks count :: next :: rest)

/-- Whether two characters may stand next to each other in a sentence. -/
def MayFollow (first second : Char) : Prop :=
  ¬(first = ':' ∧ isSpaceOrBreak second = true) ∧ ¬(isSpaceOrBreak first = true ∧ second = '#')

theorem isChain_of_hasInnerIndicator {previous : Char} {rest : List Char}
    (none : hasInnerIndicator previous rest = false)
    (firstFine : previous = ':' → endsWord rest = false) :
    (previous :: rest).IsChain MayFollow ∧
      ∀ character ∈ (previous :: rest).getLast?, character ≠ ':' := by
  induction rest generalizing previous with
  | nil =>
    refine ⟨.singleton previous, fun character isLast => ?_⟩
    rw [List.getLast?_singleton, Option.mem_some_iff] at isLast
    subst isLast
    rintro rfl
    cases firstFine rfl
  | cons character others inductionHypothesis =>
    simp only [hasInnerIndicator, Bool.or_eq_false_iff, Bool.and_eq_false_iff,
      decide_eq_false_iff_not] at none
    obtain ⟨⟨noKey, noComment⟩, further⟩ := none
    obtain ⟨chain, last⟩ := inductionHypothesis further fun colon =>
      noKey.resolve_left (not_not_intro colon)
    refine ⟨.cons_cons ⟨?_, ?_⟩ chain, ?_⟩
    · rintro ⟨rfl, space⟩
      have fine := firstFine rfl
      rw [endsWord, space] at fine
      cases fine
    · rintro ⟨space, rfl⟩
      rcases noComment with other | noSpace
      · exact other rfl
      · rw [space] at noSpace
        cases noSpace
    · rwa [List.getLast?_cons_cons]

/-- A sentence with blanks in front of it. -/
inductive IsSpaced : List (List Char) → Prop where
  | blanks {next : List Char} {rest : List (List Char)} (fewer : Nat)
    (noComment : next.head? ≠ some '#') (sentence : IsSentence (next :: rest)) :
    IsSpaced (blanks (fewer + 1) :: next :: rest)

theorem IsSpaced.word {characters : List Char} {rows : List (List Char)} (spaced : IsSpaced rows)
    (isWord : IsWord characters) : IsSentence (characters :: rows) := by
  obtain ⟨fewer, noComment, sentence⟩ := spaced
  exact .more isWord (Nat.succ_pos fewer) noComment sentence

theorem runKind_of_line {character : Char} (noBreak : isDataBreak character = false) :
    runKind character ≠ .breaks := by
  intro breaks
  rw [runKind, noBreak] at breaks
  split at breaks
  · cases breaks
  · cases breaks

/-- In a line, blanks follow a word and a word follows blanks. -/
theorem runKind_next {kind : RunKind} {next : Char} (apart : AreApart kind (runKind next))
    (noBreak : isDataBreak next = false) :
    (kind = .word → runKind next = .blanks) ∧ (kind ≠ .word → runKind next = .word) := by
  rcases apart with ⟨word, noWord⟩ | ⟨noWord, word⟩
  · refine ⟨fun _ => ?_, fun noWord => absurd word noWord⟩
    cases nextKind : runKind next with
    | word => exact absurd nextKind noWord
    | breaks => exact absurd nextKind (runKind_of_line noBreak)
    | blanks => rfl
  · exact ⟨fun isWord => absurd isWord noWord, fun _ => word⟩

/-- The runs of a text that may stand without quotes are a sentence, or one with blanks in front
of it. -/
theorem isSentence_of_isRow {rows : List (List Char)} (row : IsRow rows)
    (writable : ∀ character ∈ rows.flatten, isWritable ⟨true⟩ character = true)
    (line : ∀ character ∈ rows.flatten, isDataBreak character = false)
    (chain : rows.flatten.IsChain MayFollow)
    (last : ∀ character ∈ rows.flatten.getLast?, character ≠ ' ' ∧ character ≠ ':') :
    ∀ first ∈ rows.flatten.head?, (runKind first = .word → IsSentence rows) ∧
      (runKind first = .blanks → IsSpaced rows) := by
  induction row with
  | nil => nofun
  | @cons kind run others filled uniform apart othersRow inductionHypothesis =>
    rw [List.flatten_cons] at writable line chain last ⊢
    rw [List.forall_mem_append] at writable line
    obtain ⟨-, othersChain, joint⟩ := List.isChain_append.mp chain
    have goesOn := inductionHypothesis writable.2 line.2 othersChain fun character isLast =>
      last character (by rw [List.getLast?_append, isLast]; rfl)
    have solid (word : kind = .word) (character : Char) (member : character ∈ run) :
        isSpaceOrBreak character = false :=
      not_space_of_runKind (writable.1 character member) ((uniform character member).trans word)
    have someBlanks (blank : kind = .blanks) :
        ∃ fewer, run = blanks (fewer + 1) ∧ ' ' ∈ run.getLast? := by
      obtain ⟨fewer, same⟩ := exists_eq_blanks filled (blank ▸ uniform)
      exact ⟨fewer, same, by rw [same, List.getLast?_replicate]; rfl⟩
    intro first isFirst
    rw [List.head?_append_of_ne_nil _ filled] at isFirst
    rw [uniform first (List.mem_of_mem_head? isFirst)]
    cases othersRow with
    | nil =>
      rw [List.flatten_nil, List.append_nil] at last
      refine ⟨fun word => .last ⟨filled, solid word, fun character isLast =>
        (last character isLast).2⟩, fun blank => ?_⟩
      obtain ⟨-, -, isLast⟩ := someBlanks blank
      exact absurd rfl (last ' ' isLast).1
    | @cons _ next rest nextFilled _ _ _ =>
      obtain ⟨head, nextTail, rfl⟩ := List.exists_cons_of_ne_nil nextFilled
      obtain ⟨blankNext, wordNext⟩ :=
        runKind_next (apart _ rfl head rfl) (line.2 head List.mem_cons_self)
      obtain ⟨sentence, spaced⟩ := goesOn head rfl
      refine ⟨fun word => (spaced (blankNext word)).word ⟨filled, solid word, ?_⟩,
        fun blank => ?_⟩
      · intro character isLast colon
        refine (joint character isLast head rfl).1 ⟨colon, ?_⟩
        rw [eq_blank_of_runKind (blankNext word)]
        rfl
      · obtain ⟨fewer, rfl, isLast⟩ := someBlanks blank
        refine .blanks fewer (fun comment => ?_) (sentence (wordNext (by rw [blank]; nofun)))
        exact (joint ' ' isLast head rfl).2 ⟨rfl, Option.some.inj comment⟩

/-! ### Words and gaps -/

/-- Whether what follows a word ends it. -/
def stopsWord : List Char → Bool
  | [] => true
  | character :: rest => isSpaceOrBreak character || (character = ':' && endsWord rest)

theorem endsKey_outside (rest : List Char) : endsKey false rest = endsWord rest := by
  unfold endsKey
  rw [Bool.false_and, Bool.or_false]

theorem word_append {characters : List Char} (isWord : IsWord characters) {tail : List Char}
    (stops : stopsWord tail = true) : word false (characters ++ tail) = characters := by
  have stopped : word false tail = [] := by
    cases tail with
    | nil => rfl
    | cons character rest =>
      rw [stopsWord] at stops
      rw [word, endsKey_outside, Bool.false_and, Bool.or_false, stops, if_pos rfl]
  obtain ⟨-, solid, last⟩ := isWord
  induction characters with
  | nil => exact stopped
  | cons character others inductionHypothesis =>
    have noSpace := solid character List.mem_cons_self
    have goesOn : (decide (character = ':') && endsKey false (others ++ tail)) = false := by
      cases others with
      | nil => rw [decide_eq_false (last character rfl), Bool.false_and]
      | cons next further =>
        have nextSolid := solid next (List.mem_cons_of_mem _ List.mem_cons_self)
        rw [endsKey_outside, List.cons_append, endsWord, nextSolid, Bool.and_false]
    rw [List.cons_append, word, noSpace, goesOn]
    show character :: word false (others ++ tail) = _
    rw [inductionHypothesis (fun other member => solid other (List.mem_cons_of_mem _ member))]
    intro other isLast
    refine last other ?_
    cases others with
    | nil => cases isLast
    | cons next further => rwa [List.getLast?_cons_cons]

/-- A line end with indentation after it. -/
theorem furtherBreaks_blanks {bound count column : Nat} (enough : count < bound) {next : List Char}
    (noBlank : next.head? ≠ some ' ') (noBreak : lineBreak? next = none) :
    furtherBreaks bound (blanks count ++ next) column = ⟨[], next, column + count, false⟩ := by
  induction count generalizing bound column with
  | zero =>
    obtain ⟨bound, rfl⟩ := Nat.exists_eq_add_of_le' (show 1 ≤ bound by omega)
    show furtherBreaks (bound + 1) next column = _
    rw [furtherBreaks, noBreak]
    · rfl
    · rintro rest rfl
      exact noBlank rfl
  | succ count inductionHypothesis =>
    obtain ⟨bound, rfl⟩ := Nat.exists_eq_add_of_le' (show 1 ≤ bound by omega)
    show furtherBreaks (bound + 1) (' ' :: (blanks count ++ next)) column = _
    rw [furtherBreaks, inductionHypothesis (by omega), Nat.add_assoc, Nat.add_comm 1]

/-- A line end after a word is read as a blank. -/
theorem gap_line {bound count : Nat} (enough : count < bound) {next : List Char}
    (noBlank : next.head? ≠ some ' ') (noBreak : lineBreak? next = none)
    (unmarked : isDocumentMark (blanks count ++ next) = false) :
    gap bound ('\n' :: (blanks count ++ next)) = ⟨[' '], next, some count⟩ := by
  rw [gap, show ('\n' :: (blanks count ++ next)).dropWhile (· = ' ') =
    '\n' :: (blanks count ++ next) from rfl]
  dsimp only
  rw [show lineBreak? ('\n' :: (blanks count ++ next)) = some ('\n', blanks count ++ next) from rfl]
  dsimp only
  rw [unmarked, if_neg Bool.false_ne_true, furtherBreaks_blanks enough noBlank noBreak, Nat.zero_add]
  rfl

/-- Blanks between two words are read as they are. -/
theorem gap_blanks (bound count : Nat) {next : List Char} (starts : startsWord next = true) :
    gap bound (blanks count ++ next) = ⟨blanks count, next, none⟩ := by
  have onlyBlanks : ∀ character ∈ blanks count, decide (character = ' ') = true := by
    intro character member
    rw [List.eq_of_mem_replicate member]
    rfl
  have stops : next.takeWhile (· = ' ') = [] ∧ next.dropWhile (· = ' ') = next := by
    cases next with
    | nil => exact ⟨rfl, rfl⟩
    | cons first others =>
      have noBlank : first ≠ ' ' := by
        rintro rfl
        cases starts
      rw [List.takeWhile_cons, List.dropWhile_cons, decide_eq_false noBlank]
      exact ⟨rfl, rfl⟩
  rw [gap, List.takeWhile_append_of_pos onlyBlanks, List.dropWhile_append_of_pos onlyBlanks,
    stops.1, stops.2, List.append_nil]
  dsimp only
  rw [lineBreak?_of_startsWord starts]

/-- How a sentence ends: what follows its last word is no gap to a further word. -/
structure Ends (indent : Int) (tail rest : List Char) (broke : Bool) : Prop where
  stops : stopsWord tail = true
  gap : ∀ bound, tail.length < bound → ∃ text column, gap bound tail = ⟨text, rest, column⟩ ∧
    column.isSome = broke ∧ (text = [] ∨ ∃ count, column = some count ∧ (count : Int) < indent)

/-- A key ends before its colon. -/
theorem ends_colon (indent : Int) {rest : List Char} (apart : endsWord rest = true) :
    Ends indent (':' :: rest) (':' :: rest) false where
  stops := by rw [stopsWord, apart]; rfl
  gap bound _ := ⟨[], none, rfl, rfl, Or.inl rfl⟩

/-- A sentence ends at the end of a line if the next line is not further right. -/
theorem ends_line {indent : Int} {count : Nat} (outdented : (count : Int) < indent)
    {next : List Char} (noBlank : next.head? ≠ some ' ') (noBreak : lineBreak? next = none)
    (unmarked : isDocumentMark (blanks count ++ next) = false) :
    Ends indent ('\n' :: (blanks count ++ next)) next true where
  stops := rfl
  gap bound larger := by
    rw [List.length_cons, List.length_append, List.length_replicate] at larger
    exact ⟨[' '], some count, gap_line (by omega) noBlank noBreak unmarked, rfl,
      Or.inr ⟨count, rfl, outdented⟩⟩

/-! ### Reading sentences -/

/-- Whether a sentence is read, with what follows it, wherever it ends. -/
def ReadsWords (indent : Int) (text out : List Char) : Prop :=
  ∀ tail rest broke, Ends indent tail rest broke → ∀ bound before,
    before.rest = text ++ tail → (text ++ tail).length < bound →
      wordsFrom false indent bound before = ⟨before.text ++ out, rest, broke⟩

theorem readsWords_last (indent : Int) {characters : List Char} (isWord : IsWord characters) :
    ReadsWords indent characters characters := by
  intro tail rest broke ends bound before isRest larger
  obtain ⟨bound, rfl⟩ := Nat.exists_eq_add_of_le' (show 1 ≤ bound by omega)
  rw [List.length_append] at larger
  obtain ⟨text, column, after, isBroken, ended⟩ := ends.gap (bound + 1) (by omega)
  have filled : characters.isEmpty = false := by
    rw [List.isEmpty_eq_false_iff]
    exact isWord.filled
  rw [wordsFrom, isRest, word_append isWord ends.stops, filled, if_neg Bool.false_ne_true,
    List.drop_left, after]
  rcases ended with rfl | ⟨count, rfl, outdented⟩
  · exact (if_pos rfl).trans (by rw [isBroken])
  · exact (if_pos (by simp [outdented])).trans (by rw [isBroken])

/-- A word with a gap after it is read, and the sentence goes on with the next word. -/
theorem ReadsWords.more {indent : Int} {text out joint : List Char} {gapText : List Char}
    (reads : ReadsWords indent text out) {characters : List Char} (isWord : IsWord characters)
    (stops : ∀ tail, stopsWord (joint ++ (text ++ tail)) = true)
    (noComment : ∀ tail, (text ++ tail).head? ≠ some '#')
    (filled : gapText ≠ [])
    (joined : ∀ bound tail, joint.length < bound → ∃ column,
      gap bound (joint ++ (text ++ tail)) = ⟨gapText, text ++ tail, column⟩ ∧
        ∀ count, column = some count → indent ≤ count)
    (longer : joint ≠ []) :
    ReadsWords indent (characters ++ (joint ++ text)) (characters ++ (gapText ++ out)) := by
  intro tail rest broke ends bound before isRest larger
  obtain ⟨bound, rfl⟩ := Nat.exists_eq_add_of_le' (show 1 ≤ bound by omega)
  have length := List.length_pos_of_ne_nil longer
  simp only [List.length_append] at larger
  obtain ⟨column, after, inside⟩ := joined (bound + 1) tail (by omega)
  have wordFilled : characters.isEmpty = false := by
    rw [List.isEmpty_eq_false_iff]
    exact isWord.filled
  rw [List.append_assoc, List.append_assoc] at isRest
  rw [wordsFrom, isRest, word_append isWord (stops tail), wordFilled, if_neg Bool.false_ne_true,
    List.drop_left, after]
  have others := reads tail rest broke ends bound ⟨gapText, text ++ tail, column⟩ rfl
    (by rw [List.length_append]; omega)
  have goesOn : (gapText.isEmpty || decide ((text ++ tail).head? = some '#')) = false := by
    rw [List.isEmpty_eq_false_iff.mpr filled, decide_eq_false (noComment tail)]
    rfl
  dsimp only
  rw [goesOn, others, List.append_assoc]
  cases column with
  | none => rfl
  | some count => exact if_neg (by simp [inside count rfl])

theorem IsWord.exists_cons {characters : List Char} (isWord : IsWord characters) :
    ∃ first rest, characters = first :: rest ∧ isSpaceOrBreak first = false := by
  obtain ⟨first, rest, rfl⟩ := List.exists_cons_of_ne_nil isWord.filled
  exact ⟨first, rest, rfl, isWord.solid first List.mem_cons_self⟩

theorem runKind_of_solid {character : Char} (solid : isSpaceOrBreak character = false) :
    runKind character = .word := by
  simp only [isSpaceOrBreak, isSpace, isBreak, Bool.or_eq_false_iff, decide_eq_false_iff_not]
    at solid
  rw [runKind, if_neg solid.1.1, solid.2.2]
  rfl

theorem IsSentence.head {next : List Char} {rest : List (List Char)}
    (sentence : IsSentence (next :: rest)) : IsWord next := by
  cases sentence with
  | last word => exact word
  | more word _ _ _ => exact word

theorem writePlainRuns_word {column : Nat} {fold : Bool} {sheet : Sheet} {characters : List Char}
    (isWord : IsWord characters) :
    writePlainRuns column fold sheet characters = sheet.put characters := by
  obtain ⟨first, rest, rfl, solid⟩ := isWord.exists_cons
  rw [writePlainRuns, List.head?_cons, Option.map_some, runKind_of_solid solid]

theorem writePlainRuns_blanks {column : Nat} {fold : Bool} {sheet : Sheet} {count : Nat}
    (positive : 0 < count) : writePlainRuns column fold sheet (blanks count) =
      (writeBlanks sheet column fold (blanks count)).inWord := by
  obtain ⟨count, rfl⟩ := Nat.exists_eq_add_of_le' (show 1 ≤ count by omega)
  rfl

/-- Blanks are written in front of the rest of a sentence so that the sentence is read with them,
as they are or as a line end. -/
theorem readsWords_writeBlanks {column : Nat} (indented : 0 < column)
    (near : column ≤ Sheet.width) (fold : Bool) (sheet : Sheet) (fewer : Nat) :
    ∃ joint, (writeBlanks sheet column fold (blanks (fewer + 1))).written =
        sheet.written ++ joint ∧
      ∀ {indent : Int} {first : Char} {further out characters : List Char}, indent ≤ column →
        isSpaceOrBreak first = false → first ≠ '#' → IsWord characters →
        ReadsWords indent (first :: further) out →
          ReadsWords indent (characters ++ (joint ++ first :: further))
            (characters ++ (blanks (fewer + 1) ++ out)) := by
  rcases written_writeBlanks sheet (fewer + 1) fold near with plainly | ⟨one, folded⟩
  · refine ⟨_, plainly, fun {_ first further _ _} _ solid noSign isWord reads =>
      reads.more isWord (fun _ => rfl) (fun _ same => noSign (Option.some.inj same))
        (List.cons_ne_nil _ _) (fun bound tail _ => ⟨none, ?_, nofun⟩) (List.cons_ne_nil _ _)⟩
    exact gap_blanks bound (fewer + 1) (by rw [List.cons_append, startsWord, solid]; rfl)
  · obtain rfl := Nat.succ.inj one
    refine ⟨_, folded, fun {_ first further _ _} inside solid noSign isWord reads =>
      reads.more isWord (fun _ => rfl) (fun _ same => noSign (Option.some.inj same))
        (List.cons_ne_nil _ _) (fun bound tail longer => ⟨some column, ?_, ?_⟩)
        (List.cons_ne_nil _ _)⟩
    · have starts : startsWord (first :: further ++ tail) = true := by
        rw [List.cons_append, startsWord, solid]
        rfl
      have noBlank : (first :: further ++ tail).head? ≠ some ' ' := by
        intro same
        obtain rfl := Option.some.inj same
        cases solid
      rw [List.length_cons, List.length_replicate] at longer
      obtain ⟨column, rfl⟩ := Nat.exists_eq_add_of_le' (show 1 ≤ column by omega)
      exact gap_line (by omega) noBlank (lineBreak?_of_startsWord starts)
        (isDocumentMark_of_ne (by decide) (by decide) _)
    · intro count same
      rwa [← Option.some.inj same]

/-- A sentence that is written without quotes is read as it is. -/
theorem reads_writePlainRuns {column : Nat} (indented : 0 < column) (near : column ≤ Sheet.width)
    (fold : Bool) {rows : List (List Char)} (sentence : IsSentence rows) (sheet : Sheet)
    (filled : sheet.indented = false) :
    ∃ text, (rows.foldl (writePlainRuns column fold) sheet).written = sheet.written ++ text ∧
      (rows.foldl (writePlainRuns column fold) sheet).indented = false ∧
      (∀ run ∈ rows.head?, ∃ others, text = run ++ others) ∧
      ∀ indent : Int, indent ≤ column → ReadsWords indent text rows.flatten := by
  induction sentence generalizing sheet with
  | @last characters isWord =>
    rw [List.foldl_cons, List.foldl_nil, writePlainRuns_word isWord, List.flatten_singleton]
    refine ⟨characters, Sheet.written_put characters, filled, ?_, fun indent _ =>
      readsWords_last indent isWord⟩
    intro run isFirst
    rw [← Option.some.inj isFirst]
    exact ⟨[], (List.append_nil _).symm⟩
  | @more characters next count rest isWord positive noComment others inductionHypothesis =>
    obtain ⟨first, further, rfl, solid⟩ := others.head.exists_cons
    obtain ⟨fewer, rfl⟩ := Nat.exists_eq_add_of_le' (show 1 ≤ count by omega)
    obtain ⟨joint, writesGap, readsGap⟩ :=
      readsWords_writeBlanks indented near fold (sheet.put characters) fewer
    obtain ⟨text, writes, inLine, begins, reads⟩ := inductionHypothesis
      (writeBlanks (sheet.put characters) column fold (blanks (fewer + 1))).inWord rfl
    obtain ⟨more, rfl⟩ := begins _ rfl
    rw [List.foldl_cons, List.foldl_cons, writePlainRuns_word isWord,
      writePlainRuns_blanks positive]
    refine ⟨characters ++ (joint ++ (first :: further ++ more)), ?_, inLine, ?_,
      fun indent inside => ?_⟩
    · rw [writes]
      show (writeBlanks _ _ _ _).written ++ _ = _
      rw [writesGap, Sheet.written_put, List.append_assoc, List.append_assoc]
    · intro run isFirst
      rw [← Option.some.inj isFirst]
      exact ⟨_, rfl⟩
    · have noSign : first ≠ '#' := fun same => noComment (congrArg some same)
      rw [List.flatten_cons, List.flatten_cons]
      exact readsGap inside solid noSign isWord (reads indent inside)

/-! ### Texts without quotes -/

/-- Whether a text without quotes may start with a character and go on with others. -/
structure IsPlainStart (first : Char) (rest : List Char) : Prop where
  noIndicator : isIndicator first = false
  solid : isSpaceOrBreak first = false
  noMark : first ≠ byteOrderMark
  joined : first = '?' ∨ first = ':' ∨ first = '-' → endsWord rest = false

theorem endsWord_append {rest : List Char} (goesOn : endsWord rest = false) (tail : List Char) :
    endsWord (rest ++ tail) = false := by
  cases rest with
  | nil => cases goesOn
  | cons next others => exact goesOn

theorem IsPlainStart.append {first : Char} {rest : List Char} (start : IsPlainStart first rest)
    (tail : List Char) : IsPlainStart first (rest ++ tail) :=
  ⟨start.noIndicator, start.solid, start.noMark, fun mark =>
    endsWord_append (start.joined mark) tail⟩

/-- What a text that is written without quotes is like. -/
structure IsPlainLine (characters : List Char) : Prop where
  writable : ∀ character ∈ characters, isWritable ⟨true⟩ character = true
  line : ∀ character ∈ characters, isDataBreak character = false
  chain : characters.IsChain MayFollow
  last : ∀ character ∈ characters.getLast?, character ≠ ' ' ∧ character ≠ ':'
  start : ∀ first rest, characters = first :: rest → IsPlainStart first rest

theorem isPlainLine_of_plain {characters : List Char}
    (plain : (analyze ⟨true⟩ characters).plain = true) : IsPlainLine characters := by
  cases characters with
  | nil =>
    exact ⟨by simp, by simp, .nil, by simp, fun first rest same => by cases same⟩
  | cons first rest =>
    simp only [analyze, Bool.not_eq_true', Bool.or_eq_false_iff, beq_eq_false_iff_ne,
      hasIndicator, Bool.not_eq_false', List.all_eq_true, List.any_eq_false] at plain
    obtain ⟨⟨⟨⟨⟨⟨noBlank, noBreak⟩, lastBlank, -⟩, -⟩, writable, -⟩, line⟩,
      ⟨⟨-, noIndicator⟩, noMark⟩, noInner⟩ := plain
    have solid : isSpaceOrBreak first = false :=
      not_space_of_runKind (writable first List.mem_cons_self) (by
        rw [runKind, if_neg noBlank, noBreak]
        rfl)
    have goesOn (mark : first = '?' ∨ first = ':' ∨ first = '-') : endsWord rest = false := by
      simpa [mark, or_assoc] using noMark
    obtain ⟨chain, lastMark⟩ := isChain_of_hasInnerIndicator noInner fun colon =>
      goesOn (Or.inr (Or.inl colon))
    refine ⟨writable, fun character member => ?_, chain, fun character isLast => ⟨?_, ?_⟩,
      fun _ _ same => ?_⟩
    · simpa using line character member
    · rwa [Option.mem_def.mp isLast] at lastBlank
    · exact lastMark character isLast
    · obtain ⟨rfl, rfl⟩ := List.cons.inj same
      refine ⟨noIndicator, solid, ?_, goesOn⟩
      rintro rfl
      exact absurd (writable byteOrderMark List.mem_cons_self) (by decide)

/-- The runs of a text that is written without quotes are a sentence that starts with it. -/
theorem IsPlainLine.exists_sentence {first : Char} {rest : List Char}
    (isLine : IsPlainLine (first :: rest)) :
    ∃ more further, runs (first :: rest) = (first :: more) :: further ∧
      more ++ further.flatten = rest ∧ IsSentence ((first :: more) :: further) := by
  have row : IsRow (runs (first :: rest)) := isRow_runs (isChain_mayMeet_of_line isLine.line)
  have whole : (runs (first :: rest)).flatten = first :: rest := List.flatten_splitBy _ _
  cases isRows : runs (first :: rest) with
  | nil =>
    rw [isRows] at whole
    cases whole
  | cons run further =>
    rw [isRows] at row whole
    obtain ⟨initial, more, rfl⟩ : ∃ initial more, run = initial :: more := by
      cases row with
      | cons _ runFilled _ _ _ => exact List.exists_cons_of_ne_nil runFilled
    obtain ⟨rfl, isRest⟩ := List.cons.inj whole
    have start := isLine.start initial rest rfl
    rw [← whole] at isLine
    exact ⟨more, further, rfl, isRest, (isSentence_of_isRow row isLine.writable isLine.line
      isLine.chain isLine.last initial rfl).1 (runKind_of_solid start.solid)⟩

/-- How a text without quotes may start depends on its first word alone: a hyphen, a question mark
or a colon is only the first character of the word. -/
theorem IsPlainStart.of_word {first : Char} {more : List Char} {further : List (List Char)}
    (start : IsPlainStart first (more ++ further.flatten))
    (sentence : IsSentence ((first :: more) :: further)) (others : List Char) :
    IsPlainStart first (more ++ others) := by
  refine ⟨start.noIndicator, start.solid, start.noMark, fun mark => ?_⟩
  have goesOn := start.joined mark
  cases more with
  | cons next tail => exact @endsWord_append (next :: tail) goesOn others
  | nil =>
    cases sentence with
    | last => cases goesOn
    | @more _ next count _ _ positive =>
      obtain ⟨count, rfl⟩ := Nat.exists_eq_add_of_le' (show 1 ≤ count by omega)
      cases goesOn

/-- A text that is written without quotes is read as it is. -/
theorem reads_writePlain {column : Nat} (indented : 0 < column) (near : column ≤ Sheet.width)
    (fold : Bool) {characters : List Char} (isLine : IsPlainLine characters)
    (filled : characters ≠ []) (sheet : Sheet) :
    ∃ first others, (writePlain sheet column fold characters).written =
        sheet.written ++ ((if sheet.spaced then [] else [' ']) ++ first :: others) ∧
      (writePlain sheet column fold characters).indented = false ∧
      IsPlainStart first others ∧
      ∀ indent : Int, indent ≤ column → ReadsWords indent (first :: others) characters := by
  obtain ⟨first, rest, rfl⟩ := List.exists_cons_of_ne_nil filled
  obtain ⟨more, further, isRows, rfl, sentence⟩ := isLine.exists_sentence
  obtain ⟨text, writes, inLine, begins, reads⟩ := reads_writePlainRuns indented near fold sentence
    (if sheet.spaced then sheet else sheet.put [' ']).inWord rfl
  obtain ⟨others, rfl⟩ := begins _ rfl
  have written : writePlain sheet column fold (first :: (more ++ further.flatten)) =
      ((first :: more) :: further).foldl (writePlainRuns column fold)
        (if sheet.spaced then sheet else sheet.put [' ']).inWord := by
    rw [writePlain, isRows]
    rfl
  rw [written]
  refine ⟨first, more ++ others, ?_, inLine, (isLine.start _ _ rfl).of_word sentence others, reads⟩
  rw [writes]
  show (if sheet.spaced then sheet else sheet.put [' ']).written ++ _ = _
  split
  · rfl
  · rw [Sheet.written_put, List.append_assoc]
    rfl

end Taskbook.Yaml
