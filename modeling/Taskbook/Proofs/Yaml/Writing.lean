/-
What is written can be read, and is kept by a file.

Everything that a document is written with is either a mark of the notation, a character of a
text that may stand for itself, or part of an escape. All of these may stand in a text, and none is
a carriage return or the mark of a half. So a sheet that only holds what files keep does so whatever
is written on it.
-/

import Mathlib.Data.List.SplitBy
import Taskbook.Proofs.Text
import Taskbook.Yaml.Writer

namespace Taskbook.Yaml

/-! ### The sheet -/

/-- Whether a character may stand in a text that is read, and a file gives it back. -/
def isPrinted (character : Char) : Bool :=
  isAllowed character && Text.isKept character

theorem isPrinted_of_code {character : Char} (allowed : isAllowed character = true)
    (noReturn : character ≠ '\r') (unmarked : character ≠ Text.mark) :
    isPrinted character = true := by
  rw [isPrinted, allowed, Text.isKept_iff.mpr ⟨noReturn, unmarked⟩]
  rfl

/-- Whether all that is on a sheet can be read, and is kept by a file. -/
def Sheet.IsPrinted (sheet : Sheet) : Prop :=
  ∀ character ∈ sheet.text.toList, isPrinted character = true

namespace Sheet

variable {sheet : Sheet}

theorem isPrinted_put {characters : List Char} (kept : sheet.IsPrinted)
    (added : ∀ character ∈ characters, isPrinted character = true) :
    (sheet.put characters).IsPrinted := by
  intro character member
  rw [put, String.toList_append, String.toList_ofList] at member
  rcases List.mem_append.mp member with before | new
  · exact kept character before
  · exact added character new

theorem isPrinted_newline {character : Char} (kept : sheet.IsPrinted)
    (added : isPrinted character = true) : (sheet.newline character).IsPrinted := by
  intro other member
  rw [newline, String.toList_push] at member
  rcases List.mem_append.mp member with before | new
  · exact kept other before
  · rwa [List.mem_singleton.mp new]

theorem isPrinted_blanks (count : Nat) :
    ∀ character ∈ List.replicate count ' ', isPrinted character = true := by
  intro character member
  rw [(List.mem_replicate.mp member).2]
  rfl

/-- Blanks up to a column. -/
theorem isPrinted_padding (kept : sheet.IsPrinted) (column : Nat) :
    (if sheet.column < column then
      { sheet.put (List.replicate (column - sheet.column) ' ') with spaced := true }
    else sheet).IsPrinted := by
  split
  · exact isPrinted_put kept (isPrinted_blanks _)
  · exact kept

theorem isPrinted_indent (kept : sheet.IsPrinted) (column : Nat) : (sheet.indent column).IsPrinted := by
  unfold indent
  generalize (!sheet.indented || decide (sheet.column > column) ||
    (decide (sheet.column = column) && !sheet.spaced)) = onNewLine
  cases onNewLine with
  | true => exact isPrinted_padding (isPrinted_newline kept rfl) column
  | false => exact isPrinted_padding kept column

theorem isPrinted_mark {mark : String} (kept : sheet.IsPrinted)
    (added : ∀ character ∈ mark.toList, isPrinted character = true) (apart spaced indented : Bool) :
    (sheet.mark mark apart spaced indented).IsPrinted := by
  have withBlank : ∀ character ∈ ' ' :: mark.toList, isPrinted character = true := by
    intro character member
    rcases List.mem_cons.mp member with rfl | inMark
    · rfl
    · exact added character inMark
  unfold Sheet.mark
  generalize (sheet.spaced || !apart) = bare
  cases bare with
  | true => exact isPrinted_put kept added
  | false => exact isPrinted_put kept withBlank

theorem isPrinted_inWord (kept : sheet.IsPrinted) : sheet.inWord.IsPrinted :=
  kept

end Sheet

/-! ### Runs of characters -/

theorem isPrinted_writeBreaks {sheet : Sheet} (kept : sheet.IsPrinted) (column : Nat)
    {breaks : List Char} (added : ∀ character ∈ breaks, isPrinted character = true) :
    (writeBreaks sheet column breaks).IsPrinted := by
  have onLines (start : Sheet) (startKept : start.IsPrinted) :
      (breaks.foldl Sheet.newline start).IsPrinted := by
    induction breaks generalizing start with
    | nil => exact startKept
    | cons first rest inductionHypothesis =>
      exact inductionHypothesis (fun other member => added other (List.mem_cons_of_mem _ member))
        _ (Sheet.isPrinted_newline startKept (added first List.mem_cons_self))
  rw [writeBreaks]
  split
  · exact Sheet.isPrinted_indent (onLines _ (Sheet.isPrinted_newline kept rfl)) column
  · exact Sheet.isPrinted_indent (onLines _ kept) column

theorem isPrinted_writeBlanks {sheet : Sheet} (kept : sheet.IsPrinted) (column : Nat) (fold : Bool)
    {blanks : List Char} (added : ∀ character ∈ blanks, isPrinted character = true) :
    (writeBlanks sheet column fold blanks).IsPrinted := by
  rw [writeBlanks]
  split
  · exact Sheet.isPrinted_indent kept column
  · exact Sheet.isPrinted_put kept added

/-- The runs of printed characters are printed. -/
theorem isPrinted_runs {text : List Char} (kept : ∀ character ∈ text, isPrinted character = true) :
    ∀ run ∈ runs text, ∀ character ∈ run, isPrinted character = true := by
  intro run member character inRun
  refine kept character ?_
  rw [← List.flatten_splitBy (fun left right => runKind left == runKind right) text]
  exact List.mem_flatten.mpr ⟨run, member, inRun⟩

theorem isPrinted_writePlain {sheet : Sheet} (kept : sheet.IsPrinted) (column : Nat) (fold : Bool)
    {text : List Char} (added : ∀ character ∈ text, isPrinted character = true) :
    (writePlain sheet column fold text).IsPrinted := by
  have oneRun (start : Sheet) (startKept : start.IsPrinted) (run : List Char)
      (runKept : ∀ character ∈ run, isPrinted character = true) :
      (writePlainRuns column fold start run).IsPrinted := by
    rw [writePlainRuns]
    split
    · exact isPrinted_writeBlanks startKept column fold runKept
    · exact isPrinted_writeBreaks startKept column runKept
    · exact Sheet.isPrinted_put startKept runKept
  have allRuns (parts : List (List Char))
      (partsKept : ∀ run ∈ parts, ∀ character ∈ run, isPrinted character = true) (start : Sheet)
      (startKept : start.IsPrinted) :
      (parts.foldl (writePlainRuns column fold) start).IsPrinted := by
    induction parts generalizing start with
    | nil => exact startKept
    | cons first rest inductionHypothesis =>
      exact inductionHypothesis
        (fun run member => partsKept run (List.mem_cons_of_mem _ member)) _
        (oneRun start startKept first (partsKept first List.mem_cons_self))
  rw [writePlain]
  split
  · exact kept
  · refine allRuns _ (isPrinted_runs added) _ (Sheet.isPrinted_inWord ?_)
    split
    · exact kept
    · exact Sheet.isPrinted_put kept (Sheet.isPrinted_blanks 1)

theorem isPrinted_doubleQuotes {text : List Char}
    (kept : ∀ character ∈ text, isPrinted character = true) :
    ∀ character ∈ doubleQuotes text, isPrinted character = true := by
  intro character member
  obtain ⟨other, inText, written⟩ := List.mem_flatMap.mp member
  split at written
  · rcases List.mem_cons.mp written with rfl | again
    · exact kept character inText
    · rw [List.mem_singleton.mp again]
      exact kept other inText
  · rw [List.mem_singleton.mp written]
    exact kept other inText

theorem isPrinted_writeSingle {sheet : Sheet} (kept : sheet.IsPrinted) (column : Nat) (fold : Bool)
    {text : List Char} (added : ∀ character ∈ text, isPrinted character = true) :
    (writeSingle sheet column fold text).IsPrinted := by
  have allRuns (parts : List (List Char))
      (partsKept : ∀ run ∈ parts, ∀ character ∈ run, isPrinted character = true) (start : Sheet)
      (startKept : start.IsPrinted) (first : Bool) :
      (writeSingleRuns column fold start first parts).IsPrinted := by
    induction parts generalizing start first with
    | nil => exact startKept
    | cons run rest inductionHypothesis =>
      have runKept := partsKept run List.mem_cons_self
      rw [writeSingleRuns]
      refine inductionHypothesis
        (fun other member => partsKept other (List.mem_cons_of_mem _ member)) _ ?_ false
      split
      · exact isPrinted_writeBlanks startKept column _ runKept
      · exact isPrinted_writeBreaks startKept column runKept
      · exact Sheet.isPrinted_put startKept (isPrinted_doubleQuotes runKept)
  have quoteKept : ∀ character ∈ (String.ofList [Char.ofNat 39]).toList,
      isPrinted character = true := by
    exact List.all_eq_true.mp (by decide)
  rw [writeSingle]
  exact Sheet.isPrinted_mark
    (allRuns _ (isPrinted_runs added) _ (Sheet.isPrinted_mark kept quoteKept _ _ _) true) quoteKept _ _ _

/-! ### Escapes -/

theorem exists_of_mem_toDigitsCore {base fuel number : Nat} {digits : List Char} {character : Char}
    (member : character ∈ Nat.toDigitsCore base fuel number digits) :
    character ∈ digits ∨ ∃ digit, character = Nat.digitChar digit := by
  induction fuel generalizing number digits with
  | zero => exact Or.inl member
  | succ fuel inductionHypothesis =>
    rw [Nat.toDigitsCore] at member
    have front (inFront : character ∈ Nat.digitChar (number % base) :: digits) :
        character ∈ digits ∨ ∃ digit, character = Nat.digitChar digit := by
      rcases List.mem_cons.mp inFront with rfl | before
      · exact Or.inr ⟨_, rfl⟩
      · exact Or.inl before
    split at member
    · exact front member
    · rcases inductionHypothesis member with inFront | isDigit
      · exact front inFront
      · exact Or.inr isDigit

theorem isPrinted_digitChar (digit : Nat) :
    isPrinted (Nat.digitChar digit) = true ∧ isPrinted (Nat.digitChar digit).toUpper = true :=
  match digit with
  | 0 | 1 | 2 | 3 | 4 | 5 | 6 | 7 | 8 | 9 | 10 | 11 | 12 | 13 | 14 | 15 => by decide
  | _ + 16 => by
    simp only [Nat.digitChar, Nat.reduceEqDiff]
    decide

theorem isPrinted_upperHex (width number : Nat) :
    ∀ character ∈ upperHex width number, isPrinted character = true := by
  intro character member
  rcases List.mem_append.mp member with zeros | digits
  · rw [(List.mem_replicate.mp zeros).2]
    rfl
  · obtain ⟨lower, inDigits, rfl⟩ := List.mem_map.mp digits
    rcases exists_of_mem_toDigitsCore inDigits with none | ⟨digit, rfl⟩
    · cases none
    · exact (isPrinted_digitChar digit).2

theorem isPrinted_letterEscape {character name : Char} (named : letterEscape? character = some name) :
    isPrinted name = true := by
  unfold letterEscape? at named
  split at named <;> first
    | (obtain rfl := Option.some.inj named; rfl)
    | cases named

theorem isPrinted_escape (letter : Text.Letter) :
    ∀ character ∈ escape letter, isPrinted character = true := by
  have numbered (sign : Char) (signKept : isPrinted sign = true) (width : Nat) :
      ∀ character ∈ '\\' :: sign :: upperHex width letter.number, isPrinted character = true := by
    intro character member
    rcases List.mem_cons.mp member with rfl | member
    · rfl
    · rcases List.mem_cons.mp member with rfl | inHex
      · exact signKept
      · exact isPrinted_upperHex width letter.number character inHex
  unfold escape
  dsimp only
  split
  · rename_i name found
    obtain ⟨plain, -, named⟩ := Option.bind_eq_some_iff.mp found
    intro character member
    rcases List.mem_cons.mp member with rfl | last
    · rfl
    · rw [List.mem_singleton.mp last]
      exact isPrinted_letterEscape named
  · split
    · exact numbered 'x' rfl 2
    · split
      · exact numbered 'u' rfl 4
      · exact numbered 'U' rfl 8

/-- What need not be escaped is printed. -/
theorem isPrinted_of_unescaped? {charset : Charset} {letter : Text.Letter} {character : Char}
    (stands : unescaped? charset letter = some character) : isPrinted character = true := by
  have plain : (!isEscaped charset character) = true := (Option.filter_eq_some_iff.mp stands).2
  refine isPrinted_of_code ?_ ?_ ?_
  · simp only [isEscaped, Bool.not_eq_true', Bool.or_eq_false_iff, Bool.not_eq_false',
      Bool.or_eq_true, Bool.and_eq_true, decide_eq_true_eq] at plain
    simp only [isAllowed, Bool.or_eq_true, Bool.and_eq_true, decide_eq_true_eq]
    omega
  · rintro rfl
    cases charset with
    | mk unicode => cases unicode <;> exact absurd plain (by decide)
  · rintro rfl
    cases charset with
    | mk unicode => cases unicode <;> exact absurd plain (by decide)

theorem isPrinted_breakDouble {sheet : Sheet} (kept : sheet.IsPrinted) (column : Nat)
    {pending : List Char} (pendingKept : ∀ character ∈ pending, isPrinted character = true)
    (next : Option Char) : (breakDouble sheet column pending next).IsPrinted := by
  have broken : (((sheet.put (pending ++ ['\\'])).indent column).inWord).IsPrinted := by
    refine Sheet.isPrinted_inWord (Sheet.isPrinted_indent (Sheet.isPrinted_put kept ?_) column)
    intro character member
    rcases List.mem_append.mp member with before | last
    · exact pendingKept character before
    · rw [List.mem_singleton.mp last]
      rfl
  rw [breakDouble]
  split
  · exact Sheet.isPrinted_put broken (List.all_eq_true.mp (by decide))
  · exact broken

theorem isPrinted_writeDoubleFrom (charset : Charset) (column : Nat) (fold : Bool) {sheet : Sheet}
    (kept : sheet.IsPrinted) (first : Bool) {pending : List Char}
    (pendingKept : ∀ character ∈ pending, isPrinted character = true)
    (letters : List Text.Letter) :
    (writeDoubleFrom charset column fold sheet first pending letters).IsPrinted := by
  induction letters generalizing sheet first pending with
  | nil => exact Sheet.isPrinted_put kept pendingKept
  | cons letter rest inductionHypothesis =>
    rw [writeDoubleFrom]
    split
    · have written : ((sheet.put pending).put (escape letter)).IsPrinted :=
        Sheet.isPrinted_put (Sheet.isPrinted_put kept pendingKept) (isPrinted_escape letter)
      refine inductionHypothesis ?_ false (by simp)
      split
      · exact isPrinted_breakDouble written column (by simp) _
      · exact written
    · rename_i character stands
      have characterKept := isPrinted_of_unescaped? stands
      have oneKept : ∀ other ∈ [character], isPrinted other = true := by
        intro other member
        rwa [List.mem_singleton.mp member]
      split
      · exact inductionHypothesis (isPrinted_breakDouble kept column pendingKept _) false oneKept
      · refine inductionHypothesis kept false fun other member => ?_
        rcases List.mem_append.mp member with before | last
        · exact pendingKept other before
        · exact oneKept other last

theorem isPrinted_writeDouble (charset : Charset) {sheet : Sheet} (kept : sheet.IsPrinted)
    (column : Nat) (fold : Bool) (letters : List Text.Letter) :
    (writeDouble charset sheet column fold letters).IsPrinted := by
  have quoteKept : ∀ character ∈ "\"".toList, isPrinted character = true := 
    List.all_eq_true.mp (by decide)
  rw [writeDouble]
  exact Sheet.isPrinted_mark (isPrinted_writeDoubleFrom charset column fold
    (Sheet.isPrinted_mark kept quoteKept _ _ _) true (by simp) letters) quoteKept _ _ _

/-! ### Scalars -/

theorem isPrinted_of_isWritable {charset : Charset} {character : Char}
    (writable : isWritable charset character = true) : isPrinted character = true := by
  refine isPrinted_of_code ?_ ?_ ?_
  · simp only [isWritable, Bool.or_eq_true, Bool.and_eq_true, decide_eq_true_eq] at writable
    simp only [isAllowed, Bool.or_eq_true, Bool.and_eq_true, decide_eq_true_eq]
    rcases writable with (rfl | ascii) | further
    · decide
    · omega
    · omega
  · rintro rfl
    cases charset with
    | mk unicode => cases unicode <;> exact absurd writable (by decide)
  · rintro rfl
    cases charset with
    | mk unicode => cases unicode <;> exact absurd writable (by decide)

/-- A text that may be written without escapes is printed. -/
theorem isPrinted_of_analyze (charset : Charset) {text : List Char}
    (unescaped : (analyze charset text).plain = true ∨ (analyze charset text).single = true ∨
      (analyze charset text).literal = true) :
    ∀ character ∈ text, isPrinted character = true := by
  cases text with
  | nil => simp
  | cons first rest =>
    have writable : (first :: rest).all (isWritable charset) = true := by
      simp only [analyze, Bool.not_eq_true', Bool.or_eq_false_iff, Bool.not_eq_false'] at unescaped
      rcases unescaped with plain | single | literal
      · exact plain.1.1.2.1
      · exact single.2.1
      · exact literal.2.1
    intro character member
    exact isPrinted_of_isWritable (List.all_eq_true.mp writable character member)

/-- Only a scalar between double quotes may need escapes. -/
theorem isPrinted_of_chooseStyle {charset : Charset} {tag : Tag} {text : String} {key : Bool}
    (style : chooseStyle tag text (analyze charset text.toList) key ≠ .double) :
    ∀ character ∈ text.toList, isPrinted character = true := by
  apply isPrinted_of_analyze charset
  unfold chooseStyle at style
  split at style
  · split at style
    · rename_i literal
      rw [Bool.and_eq_true] at literal
      exact Or.inr (Or.inr literal.2)
    · exact (style rfl).elim
  · split at style
    · rename_i plain
      rw [Bool.and_eq_true] at plain
      exact Or.inl plain.2
    · split at style
      · rename_i single
        rw [Bool.and_eq_true] at single
        exact Or.inr (Or.inl single.1)
      · exact (style rfl).elim

theorem mem_of_mem_pieces {separator character : Char} {text : List Char} {piece : List Char}
    (isPiece : piece ∈ pieces separator text) (member : character ∈ piece) : character ∈ text := by
  induction text generalizing piece with
  | nil =>
    rw [pieces, List.mem_singleton] at isPiece
    subst isPiece
    cases member
  | cons first rest inductionHypothesis =>
    rw [pieces] at isPiece
    split at isPiece
    · rcases List.mem_cons.mp isPiece with rfl | later
      · cases member
      · exact List.mem_cons_of_mem _ (inductionHypothesis later member)
    · split at isPiece
      · obtain rfl := List.mem_singleton.mp isPiece
        obtain rfl := List.mem_singleton.mp member
        exact List.mem_cons_self
      · rename_i head others split
        rcases List.mem_cons.mp isPiece with rfl | later
        · rcases List.mem_cons.mp member with rfl | inHead
          · exact List.mem_cons_self
          · refine List.mem_cons_of_mem _ (inductionHypothesis ?_ inHead)
            rw [split]
            exact List.mem_cons_self
        · refine List.mem_cons_of_mem _ (inductionHypothesis ?_ member)
          rw [split]
          exact List.mem_cons_of_mem _ later

theorem isPrinted_writeLiteral {sheet : Sheet} (kept : sheet.IsPrinted) (column : Nat)
    {text : List Char} (added : ∀ character ∈ text, isPrinted character = true) :
    (writeLiteral sheet column text).IsPrinted := by
  have allLines (lines : List (List Char))
      (linesKept : ∀ line ∈ lines, ∀ character ∈ line, isPrinted character = true) (start : Sheet)
      (startKept : start.IsPrinted) :
      (lines.foldl (fun sheet line => ((sheet.indent column).put line).newline '\n')
        start).IsPrinted := by
    induction lines generalizing start with
    | nil => exact startKept
    | cons line rest inductionHypothesis =>
      refine inductionHypothesis
        (fun other member => linesKept other (List.mem_cons_of_mem _ member)) _ ?_
      exact Sheet.isPrinted_newline (Sheet.isPrinted_put (Sheet.isPrinted_indent startKept column)
        (linesKept line List.mem_cons_self)) rfl
  rw [writeLiteral]
  refine allLines _ (fun line member character inLine => ?_) _
    (Sheet.isPrinted_newline (Sheet.isPrinted_mark kept (List.all_eq_true.mp (by decide)) _ _ _) rfl)
  exact added character (mem_of_mem_pieces (List.dropLast_subset _ member) inLine)

/-- Whether a tag is one of the standard's. -/
def Tag.isStandard : Tag → Bool
  | .other _ => false
  | _ => true

theorem isPrinted_shorthand {tag : Tag} (standard : tag.isStandard = true) :
    ∀ character ∈ tag.shorthand.toList, isPrinted character = true := by
  cases tag with
  | other name => cases standard
  | _ => exact List.all_eq_true.mp (by decide)

theorem isPrinted_writeScalar (charset : Charset) {sheet : Sheet} (kept : sheet.IsPrinted)
    (column : Nat) (key : Bool) {tag : Tag} (standard : tag.isStandard = true) (text : String) :
    (writeScalar charset sheet column key tag text).IsPrinted := by
  have tagged (needed : Bool) :
      (if needed then sheet.mark tag.shorthand true false false else sheet).IsPrinted := by
    cases needed with
    | true => exact Sheet.isPrinted_mark kept (isPrinted_shorthand standard) _ _ _
    | false => exact kept
  unfold writeScalar
  dsimp only
  have textKept := @isPrinted_of_chooseStyle charset tag text key
  generalize chooseStyle tag text (analyze charset text.toList) key = style at textKept ⊢
  have started := tagged (needsTag tag text style)
  generalize (if needsTag tag text style then _ else sheet) = opened at started ⊢
  cases style with
  | plain => exact isPrinted_writePlain started column _ (textKept (by simp))
  | single => exact isPrinted_writeSingle started column _ (textKept (by simp))
  | double => exact isPrinted_writeDouble charset started column _ _
  | literal => exact isPrinted_writeLiteral started column (textKept (by simp))

/-! ### Nodes -/

/-- Whether a file keeps a name. -/
def NameIsPrinted (name : String) : Prop :=
  ∀ character ∈ name.toList, isPrinted character = true

namespace Node

mutual

/-- Whether a node has standard tags, and anchors and aliases that a file keeps. -/
def IsPrinted : Node → Prop
  | scalar anchor tag _ => (∀ name ∈ anchor, NameIsPrinted name) ∧ tag.isStandard = true
  | sequence anchor tag items =>
    (∀ name ∈ anchor, NameIsPrinted name) ∧ tag.isStandard = true ∧ ArePrinted items
  | mapping anchor tag entries =>
    (∀ name ∈ anchor, NameIsPrinted name) ∧ tag.isStandard = true ∧ HasPrintedEntries entries
  | reference name => NameIsPrinted name

def ArePrinted : List Node → Prop
  | [] => True
  | item :: rest => item.IsPrinted ∧ ArePrinted rest

def HasPrintedEntries : List (Node × Node) → Prop
  | [] => True
  | (key, value) :: rest => key.IsPrinted ∧ value.IsPrinted ∧ HasPrintedEntries rest

end

theorem arePrinted_iff {items : List Node} : ArePrinted items ↔ ∀ item ∈ items, item.IsPrinted := by
  induction items with
  | nil => simp [ArePrinted]
  | cons item rest inductionHypothesis => rw [ArePrinted, inductionHypothesis, List.forall_mem_cons]

theorem hasPrintedEntries_iff {entries : List (Node × Node)} :
    HasPrintedEntries entries ↔ ∀ entry ∈ entries, entry.1.IsPrinted ∧ entry.2.IsPrinted := by
  induction entries with
  | nil => simp [HasPrintedEntries]
  | cons entry rest inductionHypothesis =>
    rw [HasPrintedEntries, inductionHypothesis, List.forall_mem_cons, and_assoc]

mutual

/-- A node is printed under other names that are printed. -/
theorem IsPrinted.rename {names : String → Option String}
    (namesKept : ∀ name other, names name = some other → NameIsPrinted other) {node : Node}
    (kept : node.IsPrinted) : (node.rename names).IsPrinted := by
  have anchorKept (anchor : Option String) : ∀ name ∈ anchor.bind names, NameIsPrinted name := by
    intro name member
    obtain ⟨before, -, renamed⟩ := Option.bind_eq_some_iff.mp member
    exact namesKept before name renamed
  cases node with
  | scalar anchor tag text => exact ⟨anchorKept anchor, kept.2⟩
  | sequence anchor tag items =>
    exact ⟨anchorKept anchor, kept.2.1, ArePrinted.rename namesKept kept.2.2⟩
  | mapping anchor tag entries =>
    exact ⟨anchorKept anchor, kept.2.1, HasPrintedEntries.rename namesKept kept.2.2⟩
  | reference name =>
    show NameIsPrinted ((names name).getD name)
    cases renamed : names name with
    | none => exact kept
    | some other => exact namesKept name other renamed

theorem ArePrinted.rename {names : String → Option String}
    (namesKept : ∀ name other, names name = some other → NameIsPrinted other) {items : List Node}
    (kept : ArePrinted items) : ArePrinted (renameItems names items) := by
  cases items with
  | nil => trivial
  | cons item rest => exact ⟨kept.1.rename namesKept, ArePrinted.rename namesKept kept.2⟩

theorem HasPrintedEntries.rename {names : String → Option String}
    (namesKept : ∀ name other, names name = some other → NameIsPrinted other)
    {entries : List (Node × Node)} (kept : HasPrintedEntries entries) :
    HasPrintedEntries (renameEntries names entries) := by
  cases entries with
  | nil => trivial
  | cons entry rest =>
    obtain ⟨key, value⟩ := entry
    exact ⟨kept.1.rename namesKept, kept.2.1.rename namesKept,
      HasPrintedEntries.rename namesKept kept.2.2⟩

end

mutual

/-- Whether a node has standard tags and nothing in it is referred to. -/
def IsAnonymous : Node → Prop
  | scalar anchor tag _ => anchor = none ∧ tag.isStandard = true
  | sequence anchor tag items => anchor = none ∧ tag.isStandard = true ∧ AreAnonymous items
  | mapping anchor tag entries =>
    anchor = none ∧ tag.isStandard = true ∧ HasAnonymousEntries entries
  | reference _ => False

def AreAnonymous : List Node → Prop
  | [] => True
  | item :: rest => item.IsAnonymous ∧ AreAnonymous rest

def HasAnonymousEntries : List (Node × Node) → Prop
  | [] => True
  | (key, value) :: rest => key.IsAnonymous ∧ value.IsAnonymous ∧ HasAnonymousEntries rest

end

mutual

/-- Names are of no account where there are none. -/
theorem rename_of_isAnonymous (names : String → Option String) {node : Node}
    (anonymous : node.IsAnonymous) : node.rename names = node := by
  cases node with
  | scalar anchor tag text =>
    obtain ⟨rfl, -⟩ := anonymous
    rfl
  | sequence anchor tag items =>
    obtain ⟨rfl, -, inside⟩ := anonymous
    rw [rename, renameItems_of_areAnonymous names inside]
    rfl
  | mapping anchor tag entries =>
    obtain ⟨rfl, -, inside⟩ := anonymous
    rw [rename, renameEntries_of_hasAnonymousEntries names inside]
    rfl
  | reference name => exact anonymous.elim

theorem renameItems_of_areAnonymous (names : String → Option String) {items : List Node}
    (anonymous : AreAnonymous items) : renameItems names items = items := by
  cases items with
  | nil => rfl
  | cons item rest =>
    obtain ⟨first, others⟩ := anonymous
    rw [renameItems, rename_of_isAnonymous names first, renameItems_of_areAnonymous names others]

theorem renameEntries_of_hasAnonymousEntries (names : String → Option String)
    {entries : List (Node × Node)} (anonymous : HasAnonymousEntries entries) :
    renameEntries names entries = entries := by
  cases entries with
  | nil => rfl
  | cons entry rest =>
    obtain ⟨key, value⟩ := entry
    obtain ⟨keyAnonymous, valueAnonymous, others⟩ := anonymous
    rw [renameEntries, rename_of_isAnonymous names keyAnonymous,
      rename_of_isAnonymous names valueAnonymous,
      renameEntries_of_hasAnonymousEntries names others]

end

end Node

theorem isPrinted_withName {name : String} (sign : Char) (signKept : isPrinted sign = true)
    (kept : NameIsPrinted name) :
    ∀ character ∈ (String.ofList [sign] ++ name).toList, isPrinted character = true := by
  rw [String.toList_append, String.toList_ofList]
  intro character member
  rcases List.mem_cons.mp member with rfl | inName
  · exact signKept
  · exact kept character inName

theorem isPrinted_writeAnchor {sheet : Sheet} (kept : sheet.IsPrinted) {anchor : Option String}
    (nameKept : ∀ name ∈ anchor, NameIsPrinted name) : (writeAnchor sheet anchor).IsPrinted := by
  cases anchor with
  | none => exact kept
  | some name =>
    exact Sheet.isPrinted_mark kept (isPrinted_withName '&' rfl (nameKept name rfl)) _ _ _

theorem isPrinted_writeHead {sheet : Sheet} (kept : sheet.IsPrinted) {anchor : Option String}
    (nameKept : ∀ name ∈ anchor, NameIsPrinted name) {tag : Tag}
    (standard : tag.isStandard = true) (usual : Tag) :
    (writeHead sheet anchor tag usual).IsPrinted := by
  have named := isPrinted_writeAnchor kept nameKept
  rw [writeHead, writeTag]
  split
  · exact named
  · exact Sheet.isPrinted_mark named (isPrinted_shorthand standard) _ _ _

mutual

theorem isPrinted_writeNode (charset : Charset) {sheet : Sheet} (kept : sheet.IsPrinted)
    (column : Nat) (inMapping key : Bool) {node : Node} (nodeKept : node.IsPrinted) :
    (writeNode charset sheet column inMapping key node).IsPrinted := by
  cases node with
  | reference name => exact Sheet.isPrinted_mark kept (isPrinted_withName '*' rfl nodeKept) _ _ _
  | scalar anchor tag text =>
    obtain ⟨named, standard⟩ := nodeKept
    exact isPrinted_writeScalar charset (isPrinted_writeAnchor kept named) _ key standard text
  | sequence anchor tag items =>
    obtain ⟨named, standard, inside⟩ := nodeKept
    have headed := isPrinted_writeHead kept named standard .seq
    cases items with
    | nil =>
      exact Sheet.isPrinted_mark (Sheet.isPrinted_mark headed (List.all_eq_true.mp (by decide)) _ _ _)
        (List.all_eq_true.mp (by decide)) _ _ _
    | cons item rest =>
      rw [writeNode]
      · exact isPrinted_writeItems charset headed _ inside
      · simp
  | mapping anchor tag entries =>
    obtain ⟨named, standard, inside⟩ := nodeKept
    have headed := isPrinted_writeHead kept named standard .map
    cases entries with
    | nil =>
      exact Sheet.isPrinted_mark (Sheet.isPrinted_mark headed (List.all_eq_true.mp (by decide)) _ _ _)
        (List.all_eq_true.mp (by decide)) _ _ _
    | cons entry rest =>
      rw [writeNode]
      · exact isPrinted_writeEntries charset headed _ inside
      · simp

theorem isPrinted_writeItems (charset : Charset) {sheet : Sheet} (kept : sheet.IsPrinted)
    (column : Nat) {items : List Node} (itemsKept : Node.ArePrinted items) :
    (writeItems charset sheet column items).IsPrinted := by
  cases items with
  | nil => exact kept
  | cons item rest =>
    obtain ⟨first, others⟩ := itemsKept
    have dashKept : ∀ character ∈ "-".toList, isPrinted character = true :=
      List.all_eq_true.mp (by decide)
    have marked := Sheet.isPrinted_mark (Sheet.isPrinted_indent kept column) dashKept true false true
    rw [writeItems]
    exact isPrinted_writeItems charset (isPrinted_writeNode charset marked column false false first)
      column others

theorem isPrinted_writeEntries (charset : Charset) {sheet : Sheet} (kept : sheet.IsPrinted)
    (column : Nat) {entries : List (Node × Node)}
    (entriesKept : Node.HasPrintedEntries entries) :
    (writeEntries charset sheet column entries).IsPrinted := by
  cases entries with
  | nil => exact kept
  | cons entry rest =>
    obtain ⟨key, value⟩ := entry
    obtain ⟨keyKept, valueKept, others⟩ := entriesKept
    have started := Sheet.isPrinted_indent kept column
    have colonKept : ∀ character ∈ ":".toList, isPrinted character = true :=
      List.all_eq_true.mp (by decide)
    have questionKept : ∀ character ∈ "?".toList, isPrinted character = true :=
      List.all_eq_true.mp (by decide)
    have asked := Sheet.isPrinted_mark started questionKept true false true
    rw [writeEntries]
    refine isPrinted_writeEntries charset
      (isPrinted_writeNode charset ?_ column true false valueKept) column others
    split
    · exact Sheet.isPrinted_mark
        (isPrinted_writeNode charset started column true true keyKept) colonKept _ _ _
    · exact Sheet.isPrinted_mark (Sheet.isPrinted_indent
        (isPrinted_writeNode charset asked column true false keyKept) column) colonKept _ _ _

end

/-- A file keeps the text of a document whose names it keeps. -/
theorem isPrinted_writeDocument (charset : Charset) {node : Node} (nodeKept : node.IsPrinted) :
    ∀ character ∈ ((writeDocument charset node).indent 0).text.toList,
      isPrinted character = true := by
  have empty : Sheet.empty.IsPrinted := by
    intro character member
    cases member
  have written : (writeDocument charset node).IsPrinted := by
    unfold writeDocument
    split
    · obtain ⟨named, standard, inside⟩ := nodeKept
      exact isPrinted_writeEntries charset (isPrinted_writeHead empty named standard .map) 0 inside
    · obtain ⟨named, standard, inside⟩ := nodeKept
      exact isPrinted_writeItems charset (isPrinted_writeHead empty named standard .seq) 0 inside
    · exact isPrinted_writeNode charset empty 0 false false nodeKept
  exact Sheet.isPrinted_indent written 0

end Taskbook.Yaml
