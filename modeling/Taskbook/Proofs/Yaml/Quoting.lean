/-
Texts between quotes are read as they were written.

Line ends between single quotes are written once more in front, since reading drops the first one,
and indentation after them is dropped too. A blank that stands alone may have become a line end,
which is read as a blank. No blank stands next to a line end between single quotes, where it would
be lost. Between double quotes every line end that is written stands behind a backslash.
-/

import Taskbook.Proofs.Outcome
import Taskbook.Proofs.Yaml.Layout
import Taskbook.Yaml.Token.Quoted

namespace Taskbook.Yaml

open Sheet (blanks written)

/-! ### Characters -/

/-- Whether a text goes on with what is no white space. -/
def startsWord : List Char → Bool
  | [] => false
  | first :: _ => !isSpaceOrBreak first

/-- Whether a character is a line end that is read as itself. -/
def IsSteadyBreak (character : Char) : Prop :=
  isDataBreak character = true ∧ character ≠ nextLine

theorem IsSteadyBreak.cases {character : Char} (steady : IsSteadyBreak character) :
    character = '\n' ∨ character = lineSeparator ∨ character = paragraphSeparator := by
  obtain ⟨ends, other⟩ := steady
  simp only [isDataBreak, Bool.or_eq_true, decide_eq_true_eq] at ends
  tauto

theorem lineBreak?_of_steady {character : Char} (steady : IsSteadyBreak character)
    (rest : List Char) : lineBreak? (character :: rest) = some (character, rest) := by
  rcases steady.cases with rfl | rfl | rfl
  · rfl
  · rfl
  · rfl

theorem lineBreak?_of_startsWord {text : List Char} (starts : startsWord text = true) :
    lineBreak? text = none := by
  cases text with
  | nil => rfl
  | cons first rest =>
    have notBreak : isBreak first = false := by
      rw [startsWord, Bool.not_eq_true', isSpaceOrBreak, Bool.or_eq_false_iff] at starts
      exact starts.2
    have others := notBreak
    simp only [isBreak, isDataBreak, Bool.or_eq_false_iff, decide_eq_false_iff_not] at others
    rw [lineBreak?]
    · simp [others, notBreak]
    · rintro _ rfl
      exact absurd rfl others.1

theorem isDocumentMark_of_ne {first : Char} (noHyphen : first ≠ '-') (noPoint : first ≠ '.')
    (rest : List Char) : isDocumentMark (first :: rest) = false := by
  rw [isDocumentMark]
  match rest with
  | [] => rfl
  | [second] => rfl
  | second :: third :: others => simp [isMark, noHyphen, noPoint]

/-! ### White space -/

theorem takeWhile_blanks (count : Nat) {rest : List Char} (starts : startsWord rest = true) :
    (blanks count ++ rest).takeWhile isSpace = blanks count ∧
      (blanks count ++ rest).dropWhile isSpace = rest := by
  have spaces : ∀ character ∈ blanks count, isSpace character = true := by
    intro character member
    rw [List.eq_of_mem_replicate member]
    rfl
  have stops : rest.takeWhile isSpace = [] ∧ rest.dropWhile isSpace = rest := by
    cases rest with
    | nil => exact ⟨rfl, rfl⟩
    | cons first others =>
      rw [startsWord, Bool.not_eq_true', isSpaceOrBreak, Bool.or_eq_false_iff] at starts
      rw [List.takeWhile_cons, List.dropWhile_cons, starts.1]
      exact ⟨rfl, rfl⟩
  rw [List.takeWhile_append_of_pos spaces, List.dropWhile_append_of_pos spaces, stops.1, stops.2,
    List.append_nil]
  exact ⟨rfl, rfl⟩

/-- Blanks that no line end follows are read as they are. -/
theorem foldedSpace_blanks (bound count : Nat) {rest : List Char}
    (starts : startsWord rest = true) :
    foldedSpace bound (blanks count ++ rest) = .ok (blanks count, rest) := by
  obtain ⟨taken, dropped⟩ := takeWhile_blanks count starts
  rw [foldedSpace, taken, dropped]
  cases rest with
  | nil => cases starts
  | cons first others =>
    dsimp only
    rw [lineBreak?_of_startsWord starts]

/-- Line ends and the indentation after them. -/
theorem foldedLines_breaks {bound column : Nat} (indented : 0 < column) {breaks : List Char}
    (steady : ∀ character ∈ breaks, IsSteadyBreak character) {rest : List Char}
    (starts : startsWord rest = true) (enough : breaks.length < bound) :
    foldedLines bound (breaks ++ (blanks column ++ rest)) = .ok (breaks, rest) := by
  induction breaks generalizing bound with
  | nil =>
    obtain ⟨bound, rfl⟩ := Nat.exists_eq_add_of_le' (show 1 ≤ bound by
      rw [List.length_nil] at enough; omega)
    obtain ⟨column, rfl⟩ := Nat.exists_eq_add_of_le' (show 1 ≤ column by omega)
    have unmarked : isDocumentMark (blanks (column + 1) ++ rest) = false :=
      isDocumentMark_of_ne (by decide) (by decide) _
    rw [List.nil_append, foldedLines, (takeWhile_blanks _ starts).2, unmarked]
    dsimp only
    rw [lineBreak?_of_startsWord starts]
    rfl
  | cons first others inductionHypothesis =>
    obtain ⟨bound, rfl⟩ := Nat.exists_eq_add_of_le' (show 1 ≤ bound by
      rw [List.length_cons] at enough; omega)
    have firstSteady := steady first List.mem_cons_self
    have notSpace : isSpace first = false ∧ first ≠ '-' ∧ first ≠ '.' := by
      rcases firstSteady.cases with rfl | rfl | rfl <;> decide
    rw [List.cons_append, foldedLines, isDocumentMark_of_ne notSpace.2.1 notSpace.2.2,
      List.dropWhile_cons, notSpace.1, if_neg Bool.false_ne_true, if_neg Bool.false_ne_true]
    dsimp only
    rw [lineBreak?_of_steady firstSteady]
    show (foldedLines bound _ >>= fun result => Except.ok (first :: result.1, result.2)) = _
    rw [inductionHypothesis (fun other member => steady other (List.mem_cons_of_mem _ member))
      (by rw [List.length_cons] at enough; omega)]
    rfl

/-- Line ends after a first one are read as they are, except that a single line feed is read as a
blank. -/
theorem foldedSpace_breaks {bound column : Nat} (indented : 0 < column) {first : Char}
    {breaks : List Char} (steady : ∀ character ∈ first :: breaks, IsSteadyBreak character)
    {rest : List Char} (starts : startsWord rest = true) (enough : breaks.length < bound) :
    foldedSpace bound (first :: (breaks ++ (blanks column ++ rest))) =
      .ok (foldBreaks first breaks, rest) := by
  have firstSteady := steady first List.mem_cons_self
  have notSpace : isSpace first = false := by
    rcases firstSteady.cases with rfl | rfl | rfl <;> decide
  rw [foldedSpace, List.dropWhile_cons, notSpace, if_neg Bool.false_ne_true]
  dsimp only
  rw [lineBreak?_of_steady firstSteady]
  show (foldedLines bound _ >>= fun result =>
    Except.ok (foldBreaks first result.1, result.2)) = _
  rw [foldedLines_breaks indented
    (fun other member => steady other (List.mem_cons_of_mem _ member)) starts enough]
  rfl

/-! ### Single quotes -/

/-- Whether a lexer reads a scalar and what follows it, however large its bound. -/
def Reads (lexer : Nat → List Char → Lexed) (text out after : List Char) : Prop :=
  ∀ bound, text.length < bound → lexer bound text = .ok (out, after)

/-- The single quote. -/
abbrev quote : Char := Char.ofNat 39

variable {rest out after : List Char}

theorem singleQuoted_end (after : List Char) (ended : after.head? ≠ some quote) :
    Reads singleQuoted (quote :: after) [] after := by
  intro bound larger
  obtain ⟨bound, rfl⟩ := Nat.exists_eq_add_of_le' (show 1 ≤ bound by omega)
  rw [singleQuoted.eq_def]
  dsimp only
  rw [if_pos rfl]
  cases after with
  | nil => rfl
  | cons next further =>
    have other : next ≠ Char.ofNat 39 := fun same => ended (congrArg some same)
    dsimp only
    rw [if_neg other]

theorem Reads.doubledQuote (reads : Reads singleQuoted rest out after) :
    Reads singleQuoted (quote :: quote :: rest) (quote :: out) after := by
  intro bound larger
  rw [List.length_cons, List.length_cons] at larger
  obtain ⟨bound, rfl⟩ := Nat.exists_eq_add_of_le' (show 1 ≤ bound by omega)
  rw [singleQuoted.eq_def]
  dsimp only
  rw [if_pos rfl, if_pos rfl, reads bound (by omega)]
  rfl

theorem Reads.letter (reads : Reads singleQuoted rest out after) {character : Char}
    (noQuote : character ≠ quote) (noSpace : isSpaceOrBreak character = false)
    (unmarked : character ≠ Text.mark) :
    Reads singleQuoted (character :: rest) (character :: out) after := by
  intro bound larger
  rw [List.length_cons] at larger
  obtain ⟨bound, rfl⟩ := Nat.exists_eq_add_of_le' (show 1 ≤ bound by omega)
  rw [singleQuoted.eq_def]
  dsimp only
  rw [if_neg noQuote, noSpace, if_neg Bool.false_ne_true, Text.spelling, if_neg unmarked]
  show (singleQuoted bound rest >>= fun result => Except.ok ([character] ++ result.1, result.2)) = _
  rw [reads bound (by omega)]
  rfl

/-- White space is read as the lexer for it says. -/
theorem Reads.space (reads : Reads singleQuoted rest out after) {first : Char}
    {text unit : List Char} (space : isSpaceOrBreak first = true)
    (folded : ∀ bound, (first :: text).length ≤ bound →
      foldedSpace bound (first :: text) = .ok (unit, rest))
    (shorter : rest.length ≤ text.length) :
    Reads singleQuoted (first :: text) (unit ++ out) after := by
  intro bound larger
  rw [List.length_cons] at larger
  obtain ⟨bound, rfl⟩ := Nat.exists_eq_add_of_le' (show 1 ≤ bound by omega)
  have noQuote : first ≠ Char.ofNat 39 := by
    rintro rfl
    cases space
  rw [singleQuoted.eq_def]
  dsimp only
  rw [if_neg noQuote, space, if_pos rfl, folded (bound + 1) (by rw [List.length_cons]; omega)]
  show (singleQuoted bound rest >>= fun result => Except.ok (unit ++ result.1, result.2)) = _
  rw [reads bound (by omega)]
  rfl

/-- A word with its quotes doubled is read as the word. -/
theorem Reads.word (reads : Reads singleQuoted rest out after) (word : List Char)
    (noSpaces : ∀ character ∈ word, isSpaceOrBreak character = false ∧ character ≠ Text.mark) :
    Reads singleQuoted (doubleQuotes word ++ rest) (word ++ out) after := by
  induction word with
  | nil => exact reads
  | cons character others inductionHypothesis =>
    have readsOthers := inductionHypothesis fun other member =>
      noSpaces other (List.mem_cons_of_mem _ member)
    obtain ⟨noSpace, unmarked⟩ := noSpaces character List.mem_cons_self
    rw [doubleQuotes, List.flatMap_cons]
    by_cases isQuote : character = quote
    · subst isQuote
      rw [if_pos rfl]
      exact readsOthers.doubledQuote
    · rw [if_neg isQuote]
      exact readsOthers.letter isQuote noSpace unmarked

theorem Reads.blanks (reads : Reads singleQuoted rest out after) (starts : startsWord rest = true)
    {count : Nat} (some : 0 < count) :
    Reads singleQuoted (blanks count ++ rest) (blanks count ++ out) after := by
  obtain ⟨count, rfl⟩ := Nat.exists_eq_add_of_le' (show 1 ≤ count by omega)
  have shorter : rest.length ≤ (Sheet.blanks count ++ rest).length := by
    rw [List.length_append]
    omega
  exact reads.space rfl (fun bound _ => foldedSpace_blanks bound (count + 1) starts) shorter

/-- A line end that takes the place of a blank is read as the blank. -/
theorem Reads.foldedBlank (reads : Reads singleQuoted rest out after)
    (starts : startsWord rest = true) {column : Nat} (indented : 0 < column) :
    Reads singleQuoted ('\n' :: (Sheet.blanks column ++ rest)) (' ' :: out) after := by
  have shorter : rest.length ≤ (Sheet.blanks column ++ rest).length := by
    rw [List.length_append]
    omega
  show Reads singleQuoted ('\n' :: (Sheet.blanks column ++ rest)) ([' '] ++ out) after
  refine reads.space (show isSpaceOrBreak '\n' = true from rfl) (fun bound larger => ?_) shorter
  refine @foldedSpace_breaks _ _ indented '\n' [] ?_ _ starts ?_
  · intro character member
    rw [List.mem_singleton.mp member]
    exact ⟨rfl, by decide⟩
  · rw [List.length_cons] at larger
    rw [List.length_nil]
    omega

/-- Line ends, the first of them doubled if it is a line feed, are read as they are. -/
theorem Reads.breaks (reads : Reads singleQuoted rest out after)
    (starts : startsWord rest = true) {column : Nat} (indented : 0 < column) {breaks : List Char}
    (filled : breaks ≠ []) (steady : ∀ character ∈ breaks, IsSteadyBreak character) :
    Reads singleQuoted ((if breaks.head? = some '\n' then ['\n'] else []) ++
      (breaks ++ (Sheet.blanks column ++ rest))) (breaks ++ out) after := by
  obtain ⟨first, others, rfl⟩ := List.exists_cons_of_ne_nil filled
  have firstSteady := steady first List.mem_cons_self
  have space : isSpaceOrBreak first = true := by
    rw [isSpaceOrBreak, isBreak, firstSteady.1, Bool.or_true, Bool.or_true]
  have shorter (front : List Char) :
      rest.length ≤ (front ++ (Sheet.blanks column ++ rest)).length := by
    rw [List.length_append, List.length_append]
    omega
  by_cases feed : first = '\n'
  · subst feed
    show Reads singleQuoted ('\n' :: ('\n' :: others ++ (Sheet.blanks column ++ rest))) _ _
    refine reads.space space (fun bound larger => ?_) (shorter ('\n' :: others))
    rw [List.length_cons, List.length_append] at larger
    refine @foldedSpace_breaks _ _ indented '\n' ('\n' :: others) ?_ _ starts (by omega)
    exact List.forall_mem_cons.mpr ⟨firstSteady, steady⟩
  · have folded : foldBreaks first others = first :: others := if_pos feed
    rw [List.head?_cons, if_neg fun same => feed (Option.some.inj same), List.nil_append]
    show Reads singleQuoted (first :: (others ++ (Sheet.blanks column ++ rest))) _ _
    refine reads.space space (fun bound larger => ?_) (shorter others)
    rw [List.length_cons, List.length_append] at larger
    rw [← folded]
    exact foldedSpace_breaks indented steady starts (by omega)

theorem foldl_newline (sheet : Sheet) (breaks : List Char) :
    (breaks.foldl Sheet.newline sheet).written = sheet.written ++ breaks ∧
      (breaks ≠ [] → (breaks.foldl Sheet.newline sheet).IsAt 0) := by
  induction breaks generalizing sheet with
  | nil => exact ⟨(List.append_nil _).symm, fun filled => absurd rfl filled⟩
  | cons first rest inductionHypothesis =>
    obtain ⟨written, isAt⟩ := inductionHypothesis (sheet.newline first)
    refine ⟨?_, fun _ => ?_⟩
    · rw [List.foldl_cons, written, Sheet.written_newline, List.append_assoc]
      rfl
    · rw [List.foldl_cons]
      cases rest with
      | nil => exact ⟨rfl, rfl, rfl⟩
      | cons next others => exact isAt (List.cons_ne_nil _ _)

theorem written_writeBreaks {sheet : Sheet} {column : Nat} {breaks : List Char}
    (filled : breaks ≠ []) :
    (writeBreaks sheet column breaks).written = sheet.written ++
      ((if breaks.head? = some '\n' then ['\n'] else []) ++ (breaks ++ blanks column)) := by
  have padded (start : Sheet) : ((breaks.foldl Sheet.newline start).indent column).written =
      start.written ++ (breaks ++ blanks column) := by
    obtain ⟨onPage, atMargin⟩ := foldl_newline start breaks
    have isAt := atMargin filled
    have near : (breaks.foldl Sheet.newline start).column < column ∨
        (breaks.foldl Sheet.newline start).column = column ∧
          (breaks.foldl Sheet.newline start).spaced = true := by
      rw [isAt.column_eq]
      rcases Nat.eq_zero_or_pos column with rfl | positive
      · exact Or.inr ⟨rfl, isAt.spaced⟩
      · exact Or.inl positive
    rw [(Sheet.indent_here isAt.indented column near).1, onPage, isAt.column_eq, Nat.sub_zero,
      List.append_assoc]
  rw [writeBreaks, padded]
  split
  · rw [Sheet.written_newline, List.append_assoc]
  · rw [List.nil_append]

/-- A run of blanks is written as it is, or as a line end if it is a single one. -/
theorem written_writeBlanks (sheet : Sheet) {column : Nat} (count : Nat) (fold : Bool)
    (near : column ≤ Sheet.width) :
    (writeBlanks sheet column fold (blanks count)).written = sheet.written ++ blanks count ∨
      count = 1 ∧ (writeBlanks sheet column fold (blanks count)).written =
        sheet.written ++ '\n' :: blanks column := by
  rw [writeBlanks]
  split
  · rename_i folds
    simp only [Bool.and_eq_true, decide_eq_true_eq, List.length_replicate] at folds
    exact Or.inr ⟨folds.1.2, (Sheet.indent_newline column (Or.inr (by omega))).1⟩
  · exact Or.inl (Sheet.written_put _)

/-- Whether a character may stand between single quotes. -/
def IsSingle (character : Char) : Prop :=
  isWritable ⟨true⟩ character = true ∧ character ≠ nextLine

theorem IsSingle.steady {character : Char} (single : IsSingle character)
    (ends : runKind character = .breaks) : IsSteadyBreak character := by
  refine ⟨?_, single.2⟩
  rw [runKind] at ends
  split at ends
  · cases ends
  · split at ends
    · assumption
    · cases ends

theorem eq_blank_of_runKind {character : Char} (blank : runKind character = .blanks) :
    character = ' ' := by
  rw [runKind] at blank
  split at blank
  · assumption
  · split at blank
    · cases blank
    · cases blank

/-- The characters of words are no white space. -/
theorem not_space_of_runKind {character : Char} (writable : isWritable ⟨true⟩ character = true)
    (word : runKind character = .word) : isSpaceOrBreak character = false := by
  have noBlank : character ≠ ' ' := by
    rintro rfl
    cases word
  have noBreak : isDataBreak character = false := by
    rw [runKind, if_neg noBlank] at word
    cases ends : isDataBreak character with
    | false => rfl
    | true =>
      rw [ends] at word
      cases word
  have noControl : character ≠ '\t' ∧ character ≠ '\r' := by
    constructor
    · rintro rfl
      cases writable
    · rintro rfl
      cases writable
  rw [isSpaceOrBreak, isSpace, isBreak, noBreak, decide_eq_false noBlank,
    decide_eq_false noControl.1, decide_eq_false noControl.2]
  rfl

theorem ne_mark_of_isWritable {character : Char} (writable : isWritable ⟨true⟩ character = true) :
    character ≠ Text.mark := by
  rintro rfl
  exact absurd writable (by decide)

theorem startsWord_doubleQuotes {character : Char} {others rest : List Char}
    (solid : isSpaceOrBreak character = false) :
    startsWord (doubleQuotes (character :: others) ++ rest) = true := by
  rw [doubleQuotes, List.flatMap_cons]
  split
  · rw [List.append_assoc, List.cons_append, startsWord, solid]
    rfl
  · rw [List.append_assoc, List.cons_append, startsWord, solid]
    rfl

/-- A run of blanks is as many blanks as it is long. -/
theorem exists_eq_blanks {run : List Char} (filled : run ≠ [])
    (uniform : ∀ character ∈ run, runKind character = .blanks) :
    ∃ fewer, run = blanks (fewer + 1) := by
  refine ⟨run.length - 1, ?_⟩
  rw [Nat.sub_add_cancel (List.length_pos_of_ne_nil filled)]
  exact List.eq_replicate_of_mem fun character member =>
    eq_blank_of_runKind (uniform character member)

/-- Writes a run of some kind between single quotes. -/
def writeSingleRun (column : Nat) (fold : Bool) (sheet : Sheet) (run : List Char) : RunKind → Sheet
  | .blanks => writeBlanks sheet column fold run
  | .breaks => writeBreaks sheet column run
  | .word => sheet.put (doubleQuotes run)

variable {column : Nat} {kind : RunKind} {run : List Char}

theorem writeSingleRuns_cons (fold : Bool) (sheet : Sheet) (first : Bool)
    (others : List (List Char)) (filled : run ≠ [])
    (uniform : ∀ character ∈ run, runKind character = kind) :
    writeSingleRuns column fold sheet first (run :: others) =
      writeSingleRuns column fold
        (writeSingleRun column (fold && !first && !others.isEmpty) sheet run kind) false
        others := by
  have headKind : run.head?.map runKind = some kind := by
    obtain ⟨character, tail, rfl⟩ := List.exists_cons_of_ne_nil filled
    exact congrArg some (uniform character List.mem_cons_self)
  rw [writeSingleRuns, headKind]
  cases kind <;> rfl

/-- Whether a text between single quotes is read as a run of some kind in front of what follows.
White space is read so if no more of it follows. -/
def IsReadAs (kind : RunKind) (run text : List Char) : Prop :=
  ∀ rest out after, (kind ≠ .word → startsWord rest = true) → Reads singleQuoted rest out after →
    Reads singleQuoted (text ++ rest) (run ++ out) after ∧
      (kind = .word → startsWord (text ++ rest) = true)

/-- A run that is written between single quotes is read as it is. -/
theorem isReadAs_writeSingleRun (indented : 0 < column) (near : column ≤ Sheet.width)
    (fold : Bool) (sheet : Sheet) (filled : run ≠ [])
    (uniform : ∀ character ∈ run, runKind character = kind)
    (single : ∀ character ∈ run, IsSingle character) :
    ∃ text, (writeSingleRun column fold sheet run kind).written = sheet.written ++ text ∧
      IsReadAs kind run text := by
  cases kind with
  | word =>
    have solid (character : Char) (member : character ∈ run) : isSpaceOrBreak character = false :=
      not_space_of_runKind (single character member).1 (uniform character member)
    refine ⟨doubleQuotes run, Sheet.written_put _, fun rest out after _ reads => ⟨?_, fun _ => ?_⟩⟩
    · exact reads.word run fun character member =>
        ⟨solid character member, ne_mark_of_isWritable (single character member).1⟩
    · obtain ⟨character, tail, rfl⟩ := List.exists_cons_of_ne_nil filled
      exact startsWord_doubleQuotes (solid character List.mem_cons_self)
  | blanks =>
    obtain ⟨fewer, rfl⟩ := exists_eq_blanks filled uniform
    rcases written_writeBlanks sheet (fewer + 1) fold near with plainly | ⟨one, folded⟩
    · refine ⟨blanks (fewer + 1), plainly, fun rest out after starts reads => ⟨?_, nofun⟩⟩
      exact reads.blanks (starts nofun) (Nat.succ_pos fewer)
    · obtain rfl := Nat.succ.inj one
      refine ⟨'\n' :: blanks column, folded, fun rest out after starts reads => ⟨?_, nofun⟩⟩
      exact reads.foldedBlank (starts nofun) indented
  | breaks =>
    refine ⟨_, written_writeBreaks filled, fun rest out after starts reads => ⟨?_, nofun⟩⟩
    rw [List.append_assoc, List.append_assoc]
    exact reads.breaks (starts nofun) indented filled fun character member =>
      (single character member).steady (uniform character member)

/-- Runs that are written between single quotes are read as they are. -/
theorem reads_writeSingleRuns (indented : 0 < column) (near : column ≤ Sheet.width)
    (fold : Bool) {rows : List (List Char)} (row : IsRow rows)
    (single : ∀ run ∈ rows, ∀ character ∈ run, IsSingle character) (sheet : Sheet)
    (first : Bool) :
    ∃ text, (writeSingleRuns column fold sheet first rows).written = sheet.written ++ text ∧
      ∀ rest out after, startsWord rest = true → Reads singleQuoted rest out after →
        Reads singleQuoted (text ++ rest) (rows.flatten ++ out) after ∧
          ((∀ next ∈ rows.head?, ∀ character ∈ next.head?, runKind character = .word) →
            startsWord (text ++ rest) = true) := by
  induction row generalizing sheet first with
  | nil =>
    exact ⟨[], (List.append_nil _).symm, fun rest out after starts reads => ⟨reads, fun _ => starts⟩⟩
  | @cons kind run others filled uniform apart _ inductionHypothesis =>
    obtain ⟨runText, writesRun, readsRun⟩ := isReadAs_writeSingleRun indented near
      (fold && !first && !others.isEmpty) sheet filled uniform (single run List.mem_cons_self)
    obtain ⟨text, writes, readsOthers⟩ := inductionHypothesis
      (fun other member => single other (List.mem_cons_of_mem _ member))
      (writeSingleRun column (fold && !first && !others.isEmpty) sheet run kind) false
    -- White space is followed by a word or by the quote at the end.
    have wordNext (space : kind ≠ .word) (next : List Char) (isNext : next ∈ others.head?)
        (character : Char) (isFirst : character ∈ next.head?) : runKind character = .word := by
      rcases apart next isNext character isFirst with ⟨word, -⟩ | ⟨-, word⟩
      · exact absurd word space
      · exact word
    refine ⟨runText ++ text, ?_, fun rest out after starts reads => ?_⟩
    · rw [writeSingleRuns_cons fold sheet first others filled uniform, writes, writesRun,
        List.append_assoc]
    · obtain ⟨readsText, startsText⟩ := readsOthers rest out after starts reads
      obtain ⟨readsAll, startsAll⟩ := readsRun (text ++ rest) (others.flatten ++ out) after
        (fun space => startsText (wordNext space)) readsText
      rw [List.append_assoc, List.flatten_cons, List.append_assoc]
      refine ⟨readsAll, fun words => startsAll ?_⟩
      obtain ⟨character, tail, rfl⟩ := List.exists_cons_of_ne_nil filled
      exact (uniform character List.mem_cons_self).symm.trans (words _ rfl character rfl)

/-- What is written between single quotes is read as it is. -/
theorem reads_writeSingle (indented : 0 < column) (near : column ≤ Sheet.width)
    (fold : Bool) {characters : List Char} (meet : characters.IsChain MayMeet)
    (single : ∀ character ∈ characters, IsSingle character) (sheet : Sheet) :
    ∃ text, (writeSingle sheet column fold characters).written =
        sheet.written ++ ((if sheet.spaced then [] else [' ']) ++ quote :: text) ∧
      ∀ after, after.head? ≠ some quote → Reads singleQuoted (text ++ after) characters after := by
  obtain ⟨text, writes, reads⟩ := reads_writeSingleRuns indented near fold (isRow_runs meet)
    (fun run member character inRun => single character (by
      rw [← List.flatten_splitBy (fun left right => runKind left == runKind right) characters]
      exact List.mem_flatten.mpr ⟨run, member, inRun⟩))
    (sheet.mark (String.ofList [quote]) true false false) true
  refine ⟨text ++ [quote], ?_, fun after ended => ?_⟩
  · rw [writeSingle, Sheet.written_mark, writes, Sheet.written_mark, String.toList_ofList]
    simp
  · have whole := (reads (quote :: after) [] after rfl (singleQuoted_end after ended)).1
    rw [runs, List.flatten_splitBy, List.append_nil] at whole
    rw [List.append_assoc]
    exact whole

end Taskbook.Yaml
