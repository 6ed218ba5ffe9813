/-
How the nodes of an outline are written, line by line, and how what is written is read.

A value stands behind the colon of its key or behind the mark of an item. There it is alone in its
column or goes on in the line of the key. Entries and items begin in the column of their block,
each on a line of its own, so that the text resumes behind each of them. What a value is written as
is read as its words wherever the text resumes behind it.
-/

import Taskbook.Proofs.Text
import Taskbook.Proofs.Yaml.Escaping
import Taskbook.Proofs.Yaml.Naming

namespace Taskbook.Yaml

open Scan (Leads Opens Proceeds Rests Resumes outside)
open Sheet (blanks written)

/-! ### Values -/

/-- Whether a sheet is ready for a value: behind the colon of a key, or behind a mark that is alone
in its column. -/
structure IsBehindMark (sheet : Sheet) (column : Nat) : Prop where
  close : sheet.spaced = false
  place : sheet.indented = true → sheet.column = column + 1

/-- Whether the text of a value in a block is read as some tokens. -/
def ReadsValue (alone : Bool) (column : Nat) (words : List Token) (text : List Char) : Prop :=
  ∀ (tail : List Char) (spot : Spot) (tokens : List Token) (outer : List Int) (free : Bool)
    (read : List Token), column ≤ spot.column →
    (alone = true → free = true ∧ spot.column = column + 1) →
    Resumes tail (words.reverse ++ tokens) column outer read →
    Proceeds (outside (text ++ tail) spot tokens column outer free []) read

/-- Whether a value of these tokens is written between two sheets. -/
def WritesValue (sheet final : Sheet) (column : Nat) (words : List Token) : Prop :=
  ∃ first text, final.written = sheet.written ++ first :: text ∧ final.indented = false ∧
    isSpaceOrBreak first = true ∧ (sheet.indented = true → first = ' ') ∧
    ReadsValue sheet.indented column words (first :: text)

variable {sheet final : Sheet} {column : Nat}

theorem rests_of_solid {first : Char} (solid : isSpaceOrBreak first = false)
    (noComment : first ≠ '#') (noMark : first ≠ byteOrderMark) (rest : List Char) :
    Rests (first :: rest) where
  noBlank same := by
    obtain rfl := Option.some.inj same
    cases solid
  noComment same := noComment (Option.some.inj same)
  noMark same := noMark (Option.some.inj same)
  noBreak := lineBreak?_of_startsWord (by rw [startsWord, solid]; rfl)

/-- A value that is one token on the line of its mark. -/
theorem writesValue_of_leads {first : Char} {text : List Char} {words : List Token}
    (writes : final.written = sheet.written ++ ' ' :: first :: text)
    (inLine : final.indented = false)
    (rests : ∀ tail, Rests (first :: (text ++ tail)))
    (leads : ∀ (tail : List Char) (spot : Spot) (tokens : List Token) (outer : List Int)
      (free : Bool) (read : List Token), (column : Int) < spot.column →
      Resumes tail (words.reverse ++ tokens) column outer read →
      Leads (outside (first :: (text ++ tail)) spot tokens column outer free []) read) :
    WritesValue sheet final column words := by
  refine ⟨' ', first :: text, writes, inLine, rfl, fun _ => rfl, ?_⟩
  intro tail spot tokens outer free read inside _ resumes
  refine (leads tail (spot.right 1) tokens outer free read ?_ resumes).blanks (rests tail)
  show (column : Int) < (spot.column + 1 : Nat)
  omega

/-! ### Texts -/

theorem single_of_readable {text : String} (restorable : IsRestorable text)
    (single : (analyze ⟨true⟩ text.toList).single = true) :
    text.toList.IsChain MayMeet ∧ ∀ character ∈ text.toList, IsSingle character := by
  have noNextLine : nextLine ∉ text.toList := fun member => by
    rw [restorable.readable member] at single
    cases single
  cases isText : text.toList with
  | nil => exact ⟨.nil, by simp⟩
  | cons first rest =>
    rw [isText] at single noNextLine
    simp only [analyze, Bool.not_eq_true', Bool.or_eq_false_iff, Bool.not_eq_false',
      List.all_eq_true] at single
    obtain ⟨breakBlank, writable, blankBreak⟩ := single
    refine ⟨isChain_mayMeet blankBreak breakBlank, fun character member => ⟨writable character member, ?_⟩⟩
    rintro rfl
    exact noNextLine member

theorem quote_rests {first : Char} (isQuote : first = '"' ∨ first = quote) (rest : List Char) :
    Rests (first :: rest) := by
  rcases isQuote with rfl | rfl
  · exact rests_of_solid rfl (by decide) (by decide) rest
  · exact rests_of_solid rfl (by decide) (by decide) rest

section

variable {text : String} (near : column + 2 + 2 ≤ Sheet.width) (behind : IsBehindMark sheet column)
include near behind

/-- A text that may stand without quotes is written and read without them. -/
theorem writes_plain (plainly : isPlainText text = true) :
    WritesValue sheet (writePlain sheet (column + 2) true text.toList) column
      [.scalar true text] := by
  have isLine : IsPlainLine text.toList := isPlainLine_of_plain (by
    rw [isPlainText, Bool.and_eq_true] at plainly
    exact plainly.2)
  have unmarked : Text.mark ∉ text.toList := fun member =>
    ne_mark_of_isWritable (isLine.writable _ member) rfl
  obtain ⟨first, others, writes, inLine, start, reads⟩ :=
    reads_writePlain (Nat.succ_pos _) (show column + 2 ≤ Sheet.width by omega) true isLine
      (toList_ne_nil_of_isPlainText plainly) sheet
  rw [behind.close] at writes
  refine writesValue_of_leads writes inLine (fun tail => ?_) ?_
  · have noIndicator := start.noIndicator
    simp [isIndicator] at noIndicator
    exact rests_of_solid start.solid (by tauto) start.noMark _
  · intro tail spot tokens outer free read inside resumes
    refine Scan.leads_plain start (reads (column + 1) (by omega)) unmarked inside (by omega) ?_
    rw [String.ofList_toList]
    exact resumes

/-- A text that may stand between single quotes is written and read between them. -/
theorem writes_single (meet : text.toList.IsChain MayMeet)
    (single : ∀ character ∈ text.toList, IsSingle character) :
    WritesValue sheet (writeSingle sheet (column + 2) true text.toList) column
      [.scalar false text] := by
  obtain ⟨body, writes, reads⟩ :=
    reads_writeSingle (Nat.succ_pos _) (show column + 2 ≤ Sheet.width by omega) true meet single
      sheet
  rw [behind.close] at writes
  refine writesValue_of_leads writes (Bool.and_false _) (fun tail => quote_rests (Or.inr rfl) _) ?_
  intro tail spot tokens outer free read inside resumes
  refine Scan.leads_quoted (Or.inr rfl) (fun bound larger => ?_) inside
    (by rw [String.ofList_toList]; exact resumes)
  rw [quotedScalar, if_neg (by decide)]
  exact reads tail (by rw [resumes.head?]; simp +decide) bound larger

/-- Any text is written and read between double quotes. -/
theorem writes_double (spelled : Text.ofLetters (Text.letters text) = text) :
    WritesValue sheet (writeDouble ⟨true⟩ sheet (column + 2) true (Text.letters text)) column
      [.scalar false text] := by
  obtain ⟨body, writes, reads⟩ := reads_writeDouble (Nat.succ_pos _) near true spelled sheet
  rw [behind.close] at writes
  refine writesValue_of_leads writes (Bool.and_false _) (fun tail => quote_rests (Or.inl rfl) _) ?_
  intro tail spot tokens outer free read inside resumes
  refine Scan.leads_quoted (Or.inl rfl) (fun bound larger => ?_) inside
    (by rw [String.ofList_toList]; exact resumes)
  rw [quotedScalar, if_pos rfl]
  exact reads tail bound larger

end

/-- A text is written so that it is read as it was. -/
theorem writes_text {text : String} (restorable : IsRestorable text)
    (near : column + 2 ≤ Node.lastColumn) (behind : IsBehindMark sheet column) :
    WritesValue sheet (writeScalar ⟨true⟩ sheet (column + 2) false .str text) column
      [.scalar (isPlainText text) text] := by
  unfold Node.lastColumn at near
  have nearWidth : column + 2 + 2 ≤ Sheet.width := by
    unfold Sheet.width
    omega
  rw [writeScalar]
  cases plainly : isPlainText text with
  | true =>
    have isText : plainTag text = .str := by
      rw [isPlainText, Bool.and_eq_true, decide_eq_true_eq] at plainly
      exact plainly.1
    rw [chooseStyle_of_isPlainText plainly, needsTag_str text fun _ => isText]
    exact writes_plain nearWidth behind plainly
  | false =>
    rw [chooseStyle_of_not plainly (Or.inl rfl)]
    cases single : (analyze ⟨true⟩ text.toList).single with
    | true =>
      rw [if_pos rfl, needsTag_str text fun never => by cases never]
      obtain ⟨meet, singles⟩ := single_of_readable restorable single
      exact writes_single nearWidth behind meet singles
    | false =>
      rw [if_neg Bool.false_ne_true, needsTag_str text fun never => by cases never]
      exact writes_double nearWidth behind restorable.spelled

/-- A pair of brackets is written and read as two tokens. -/
theorem writes_pair {first last : Char} {start ending : Token}
    (pair : Scan.IsPair first last start ending) (behind : IsBehindMark sheet column) :
    WritesValue sheet ((sheet.mark (String.ofList [first]) true true false).mark
      (String.ofList [last]) false false false) column [start, ending] := by
  refine @writesValue_of_leads _ _ _ first [last] _ ?_ (Bool.and_false _) (fun tail => ?_)
    fun tail spot tokens outer free read inside resumes => Scan.leads_pair pair inside resumes
  · rw [Sheet.written_mark, Sheet.written_mark, String.toList_ofList, String.toList_ofList,
      behind.close]
    simp
  · cases pair with
    | sequence => exact rests_of_solid rfl (by decide) (by decide) _
    | mapping => exact rests_of_solid rfl (by decide) (by decide) _

/-! ### Lines -/

/-- Whether a text can stand at the start of a line, behind its indentation. -/
def StartsLine (column : Nat) (text : List Char) : Prop :=
  ∀ tail, Rests (text ++ tail) ∧ isDocumentMark (blanks column ++ (text ++ tail)) = false

theorem startsLine_of_solid {first : Char} (solid : isSpaceOrBreak first = false)
    (noComment : first ≠ '#') (noMark : first ≠ byteOrderMark) (noHyphen : first ≠ '-')
    (noPoint : first ≠ '.') (rest : List Char) : StartsLine column (first :: rest) := by
  refine fun tail => ⟨rests_of_solid solid noComment noMark _, ?_⟩
  cases column with
  | zero => exact isDocumentMark_of_ne noHyphen noPoint _
  | succ column => exact isDocumentMark_of_ne (by decide) (by decide) _

/-- Whether what is left of a block in a column is read as some tokens: the text resumes in front of
it if it resumes behind it. -/
def ReadsMore (column : Nat) (words : List Token) (text : List Char) : Prop :=
  ∀ (tail : List Char) (tokens : List Token) (outer : List Int) (read : List Token),
    Resumes tail (words.reverse ++ tokens) column outer read →
    Resumes (text ++ tail) tokens column outer read

/-- Whether lines of these tokens are written between two sheets. -/
def WritesMore (sheet final : Sheet) (column : Nat) (words : List Token) : Prop :=
  ∃ text, final.written = sheet.written ++ text ∧ final.indented = false ∧
    (words ≠ [] → text.head? = some '\n') ∧ ReadsMore column words text

theorem writesMore_nil (inLine : sheet.indented = false) : WritesMore sheet sheet column [] :=
  ⟨[], (List.append_nil _).symm, inLine, fun filled => absurd rfl filled,
    fun _ _ _ _ resumes => resumes⟩

/-- Whether entries in a column are read as some tokens, whether or not they open a block. -/
def ReadsEntries (column : Nat) (words : List Token) (text : List Char) : Prop :=
  ∀ (tail : List Char) (spot : Spot) (tokens opened : List Token) (indent : Int)
    (outer around : List Int) (read : List Token), spot.column = column →
    Opens .blockMappingStart tokens indent outer column opened around →
    Resumes tail (words.reverse ++ opened) column around read →
    Leads (outside (text ++ tail) spot tokens indent outer true []) read

/-- Whether entries of these tokens are written between two sheets, of which the first one is in
the column of the entries. -/
def WritesEntries (sheet final : Sheet) (column : Nat) (words : List Token) : Prop :=
  ∃ text, final.written = sheet.written ++ text ∧ final.indented = false ∧
    StartsLine column text ∧ ReadsEntries column words text

/-- Entries that go on with a block are lines of it. -/
theorem WritesEntries.more {words : List Token} (inLine : sheet.indented = false)
    (entries : WritesEntries (sheet.indent column) final column words) :
    WritesMore sheet final column words := by
  obtain ⟨text, writes, ended, starts, reads⟩ := entries
  refine ⟨'\n' :: (blanks column ++ text), ?_, ended, fun _ => rfl,
    fun tail tokens outer read resumes => ?_⟩
  · rw [writes, (Sheet.indent_newline column (Or.inl inLine)).1, List.append_assoc]
    rfl
  · refine ⟨column, text ++ tail, ?_, Int.le_refl _, (starts tail).1, (starts tail).2,
      fun spot here => reads tail spot tokens tokens column outer outer read here (.same rfl) resumes⟩
    rw [List.cons_append, List.append_assoc]

/-! ### Blocks -/

/-- The entries of a mapping are a block further right. -/
theorem writes_mapping {words : List Token} (behind : IsBehindMark sheet column)
    (entries : (sheet.indent (column + 2)).IsAt (column + 2) →
      WritesEntries (sheet.indent (column + 2)) final (column + 2) words) :
    WritesValue sheet final column (.blockMappingStart :: (words ++ [.blockEnd])) := by
  -- The block opens before the first of its entries and ends where the text resumes further left.
  have opens {text tail : List Char} {spot : Spot} {tokens : List Token} {outer : List Int}
      {read : List Token} (reads : ReadsEntries (column + 2) words text)
      (here : spot.column = column + 2)
      (resumes : Resumes tail ((.blockMappingStart :: (words ++ [.blockEnd])).reverse ++ tokens)
        column outer read) :
      Leads (outside (text ++ tail) spot tokens column outer true []) read := by
    refine reads tail spot tokens _ column outer _ read here (.deeper (by omega)) ?_
    refine Resumes.close ?_ (by omega)
    simpa using resumes
  cases indented : sheet.indented with
  | false =>
    obtain ⟨padded, isAt⟩ := Sheet.indent_newline (column + 2) (Or.inl indented)
    obtain ⟨text, writes, ended, starts, reads⟩ := entries isAt
    refine ⟨'\n', blanks (column + 2) ++ text, ?_, ended, rfl, fun alone => ?_, ?_⟩
    · rw [writes, padded, List.append_assoc]
      rfl
    · rw [indented] at alone
      cases alone
    · intro tail spot tokens outer free read inside _ resumes
      rw [List.cons_append, List.append_assoc]
      exact Scan.proceeds_line (starts tail).1 (fun later here => opens reads here resumes)
        fun place member => by cases member
  | true =>
    have place := behind.place indented
    obtain ⟨padded, isAt⟩ := Sheet.indent_here indented (column + 2) (by omega)
    obtain ⟨text, writes, ended, starts, reads⟩ := entries isAt
    refine ⟨' ', text, ?_, ended, rfl, fun _ => rfl, ?_⟩
    · rw [writes, padded, place, show column + 2 - (column + 1) = 1 by omega, List.append_assoc]
      rfl
    · intro tail spot tokens outer free read inside alone resumes
      obtain ⟨rfl, here⟩ := alone indented
      refine Leads.blanks (starts tail).1 1 (opens reads ?_ resumes)
      show spot.column + 1 = column + 2
      omega

/-- The items of a sequence under a key are lines of its block. -/
theorem WritesMore.value {words : List Token} (more : WritesMore sheet final column words)
    (filled : words ≠ []) (inLine : sheet.indented = false) :
    WritesValue sheet final column words := by
  obtain ⟨text, writes, ended, begins, reads⟩ := more
  obtain ⟨others, rfl⟩ := List.head?_eq_some_iff.mp (begins filled)
  refine ⟨'\n', others, writes, ended, rfl, fun alone => ?_, ?_⟩
  · rw [inLine] at alone
    cases alone
  · intro tail spot tokens outer free read _ _ resumes
    exact (reads tail tokens outer read resumes).proceeds fun place member => by cases member

/-- An item is written behind its mark, and the others after it. -/
theorem writes_item {marked behindItem : Sheet} {words others : List Token}
    (isMarked : marked = (sheet.indent column).mark "-" true false true)
    (inLine : sheet.indented = false)
    (item : IsBehindMark marked column → marked.indented = true →
      WritesValue marked behindItem column words)
    (more : behindItem.indented = false → WritesMore behindItem final column others) :
    WritesMore sheet final column (.blockEntry :: (words ++ others)) := by
  obtain ⟨padded, isAt⟩ := Sheet.indent_newline column (Or.inl inLine)
  have alone : marked.indented = true := by
    rw [isMarked, Sheet.mark]
    exact (Bool.and_true _).trans isAt.indented
  have mark : marked.written = sheet.written ++ '\n' :: (blanks column ++ ['-']) := by
    rw [isMarked, Sheet.written_mark, padded, isAt.spaced]
    simp
  have place : marked.column = column + 1 := by
    rw [isMarked, Sheet.mark, isAt.spaced]
    exact congrArg (· + 1) isAt.column_eq
  obtain ⟨first, text, writes, ended, -, blank, reads⟩ := item ⟨by rw [isMarked]; rfl, fun _ => place⟩
    alone
  obtain ⟨rest, writesRest, finalOver, -, readsRest⟩ := more ended
  obtain rfl := blank alone
  refine ⟨'\n' :: (blanks column ++ '-' :: ' ' :: (text ++ rest)), ?_, finalOver, fun _ => rfl,
    fun tail tokens outer read resumes => ?_⟩
  · rw [writesRest, writes, mark]
    simp
  · refine ⟨column, '-' :: ' ' :: (text ++ (rest ++ tail)), by simp, Int.le_refl _,
      rests_of_solid rfl (by decide) (by decide) _, ?_, fun spot here => ?_⟩
    · cases column with
      | zero =>
        show isDocumentMark ('-' :: ' ' :: (text ++ (rest ++ tail))) = false
        rw [isDocumentMark, Scan.isMark_hyphen, Scan.isMark_hyphen]
        rfl
      | succ column => exact isDocumentMark_of_ne (by decide) (by decide) _
    · refine Scan.leads_hyphen (by rw [here]) (reads (rest ++ tail) (spot.right 1) _ outer true read
        ?_ (fun _ => ⟨rfl, congrArg (· + 1) here⟩) (readsRest tail _ outer read ?_))
      · show column ≤ spot.column + 1
        omega
      · simpa using resumes

/-! ### Entries -/

/-- Whether what stands before a value is read as a key. -/
def ReadsKey (alone : Bool) (column : Nat) (name : String) (front : List Char) : Prop :=
  ∀ (first : Char) (rest : List Char) (spot : Spot) (tokens opened : List Token) (indent : Int)
    (outer around : List Int) (read : List Token), spot.column = column →
    Opens .blockMappingStart tokens indent outer column opened around →
    isSpaceOrBreak first = true → (alone = true → first = ' ') →
    (∀ (later : Spot) (free : Bool), column ≤ later.column →
      (alone = true → free = true ∧ later.column = column + 1) →
      Proceeds (outside (first :: rest) later
        (.value :: .scalar (isPlainText name) name :: .key :: opened) column around free []) read) →
    Leads (outside (front ++ first :: rest) spot tokens indent outer true []) read

/-- Whether a key is written between two sheets, of which the first one is in its column. -/
def WritesKey (sheet final : Sheet) (column : Nat) (name : String) : Prop :=
  ∃ front, final.written = sheet.written ++ front ∧ IsBehindMark final column ∧
    StartsLine column front ∧ ReadsKey final.indented column name front

theorem isKept_of_isKeyName {name : String} (isKey : isKeyName name = true) :
    ∀ character ∈ name.toList, Text.isKept character = true := by
  intro character member
  have letter := (isName_of_isKeyName isKey).letters character member
  refine Text.isKept_iff.mpr ⟨?_, ne_mark_of_isWritable letter.single.1⟩
  rintro rfl
  exact absurd letter.solid (by decide)

theorem isRestorable_of_isKeyName {name : String} (isKey : isKeyName name = true) :
    IsRestorable name where
  spelled := Text.ofLetters_of_kept (isKept_of_isKeyName isKey)
  readable member := absurd rfl ((isName_of_isKeyName isKey).letters nextLine member).single.2

theorem length_spelledName {name : String} (isKey : isKeyName name = true)
    (simple : isSimpleKey ⟨true⟩ (.scalar none .str name) = true) :
    (spelledName name).length ≤ keyLimit := by
  simp only [isSimpleKey, Bool.and_eq_true, decide_eq_true_eq] at simple
  have letters : Text.length name = name.toList.length := by
    rw [Text.length, Text.letters, Text.lettersOf_of_kept (isKept_of_isKeyName isKey),
      List.length_map]
  have limit := simple.2
  rw [letters] at limit
  unfold simpleKeyLimit at limit
  rw [spelledName, keyLimit]
  split
  · omega
  · rw [List.length_cons, List.length_append, List.length_singleton]
    omega

theorem startsLine_spelledName {name : String} (isKey : isKeyName name = true) (rest : List Char) :
    StartsLine column (spelledName name ++ rest) := by
  obtain ⟨filled, letters, noMark⟩ := isName_of_isKeyName isKey
  rw [spelledName]
  split
  · obtain ⟨first, others, isText⟩ := List.exists_cons_of_ne_nil filled
    rw [isText] at letters noMark ⊢
    have letter := letters first List.mem_cons_self
    have unmarked := noMark first rfl
    exact startsLine_of_solid letter.solid letter.noComment letter.inLine.2 unmarked.1 unmarked.2 _
  · exact startsLine_of_solid rfl (by decide) (by decide) (by decide) (by decide) _

/-- A short name is a key on its line. -/
theorem writes_simpleKey {name : String} (isKey : isKeyName name = true)
    (simple : isSimpleKey ⟨true⟩ (.scalar none .str name) = true) (isAt : sheet.IsAt column) :
    WritesKey sheet ((writeNode ⟨true⟩ sheet column true true (.scalar none .str name)).mark ":"
      false false false) column name := by
  have short := length_spelledName isKey simple
  obtain ⟨writes, ended⟩ := written_writeScalar_name isKey sheet (column + 2) true
  rw [isAt.spaced] at writes
  have colon : ((writeNode ⟨true⟩ sheet column true true (.scalar none .str name)).mark ":" false
      false false).written = sheet.written ++ (spelledName name ++ [':']) := by
    rw [Sheet.written_mark, Bool.not_false, Bool.or_true, if_pos rfl, writeNode, writeAnchor, writes]
    simp
  refine ⟨spelledName name ++ [':'], colon, ⟨rfl, fun alone => ?_⟩, ?_, ?_⟩
  · rw [Sheet.mark, Bool.and_false] at alone
    cases alone
  · exact startsLine_spelledName isKey [':']
  · intro first rest spot tokens opened indent outer around read here opens space _ proceeds
    subst here
    rw [List.append_assoc]
    refine Scan.leads_name isKey short opens space (proceeds _ false ?_ fun alone => ?_)
    · rw [Spot.right, Spot.right]
      dsimp only
      omega
    · rw [Sheet.mark, Bool.and_false] at alone
      cases alone

/-- A long name is a key behind a question mark. -/
theorem writes_complexKey {name : String} (isKey : isKeyName name = true)
    (near : column + 2 ≤ Node.lastColumn) (isAt : sheet.IsAt column) :
    WritesKey sheet (((writeNode ⟨true⟩ (sheet.mark "?" true false true) column true false
      (.scalar none .str name)).indent column).mark ":" true false true) column name := by
  have alone : (sheet.mark "?" true false true).indented = true :=
    (Bool.and_true _).trans isAt.indented
  have place : (sheet.mark "?" true false true).column = column + 1 := by
    rw [Sheet.mark, isAt.spaced]
    exact congrArg (· + 1) isAt.column_eq
  obtain ⟨first, text, writes, ended, -, blank, reads⟩ :=
    writes_text (isRestorable_of_isKeyName isKey) near
      (⟨rfl, fun _ => place⟩ : IsBehindMark (sheet.mark "?" true false true) column)
  obtain rfl := blank alone
  obtain ⟨padded, isBack⟩ := Sheet.indent_newline column (Or.inl ended)
  have question : (sheet.mark "?" true false true).written = sheet.written ++ ['?'] := by
    rw [Sheet.written_mark, isAt.spaced]
    rfl
  refine ⟨'?' :: ' ' :: (text ++ '\n' :: (blanks column ++ [':'])), ?_, ⟨rfl, fun _ => ?_⟩,
    startsLine_of_solid rfl (by decide) (by decide) (by decide) (by decide) _, ?_⟩
  · rw [Sheet.written_mark, writeNode, writeAnchor, padded, isBack.spaced, writes, question]
    simp
  · rw [Sheet.mark, writeNode, writeAnchor, isBack.spaced]
    exact congrArg (· + 1) isBack.column_eq
  · intro next rest spot tokens opened indent outer around read here opens _ blankNext proceeds
    obtain rfl := blankNext ((Bool.and_true _).trans isBack.indented)
    have behindQuestion : column ≤ (spot.right 1).column ∧ (spot.right 1).column = column + 1 := by
      rw [Spot.right]
      dsimp only
      omega
    have colon : Resumes ('\n' :: (blanks column ++ ':' :: ' ' :: rest))
        (.scalar (isPlainText name) name :: .key :: opened) column around read := by
      have starts : StartsLine column (':' :: ' ' :: rest) :=
        startsLine_of_solid rfl (by decide) (by decide) (by decide) (by decide) _
      have startsHere := starts []
      rw [List.append_nil] at startsHere
      refine ⟨column, ':' :: ' ' :: rest, rfl, Int.le_refl _, startsHere.1, startsHere.2,
        fun later isColumn => ?_⟩
      refine Scan.leads_colon (by rw [isColumn]) (proceeds (later.right 1) true ?_ fun _ => ⟨rfl, ?_⟩)
      · show column ≤ later.column + 1
        omega
      · exact congrArg (· + 1) isColumn
    have key := reads ('\n' :: (blanks column ++ ':' :: ' ' :: rest)) (spot.right 1) (.key :: opened)
      around true read behindQuestion.1 (fun _ => ⟨rfl, behindQuestion.2⟩) colon
    rw [← here] at key opens
    have leads := Scan.leads_question opens key
    rw [here] at leads
    simpa using leads

/-- An entry is written in its column, and the others after it. -/
theorem writes_entry {name : String} {separated behindValue : Sheet} {words others : List Token}
    (key : WritesKey sheet separated column name)
    (value : IsBehindMark separated column → WritesValue separated behindValue column words)
    (more : behindValue.indented = false → WritesMore behindValue final column others) :
    WritesEntries sheet final column
      (.key :: .scalar (isPlainText name) name :: .value :: (words ++ others)) := by
  obtain ⟨front, writesKey, behind, starts, readsKey⟩ := key
  obtain ⟨first, text, writesValue, ended, space, blank, readsValue⟩ := value behind
  obtain ⟨rest, writesRest, finalOver, -, readsRest⟩ := more ended
  refine ⟨front ++ (first :: (text ++ rest)), ?_, finalOver, fun tail => ?_, ?_⟩
  · rw [writesRest, writesValue, writesKey]
    simp
  · rw [List.append_assoc]
    exact starts _
  · intro tail spot tokens opened indent outer around read here opens resumes
    rw [List.append_assoc, List.cons_append, List.append_assoc]
    refine readsKey first (text ++ (rest ++ tail)) spot tokens opened indent outer around read here
      opens space blank fun later free inside alone => ?_
    refine readsValue (rest ++ tail) later _ around free read inside alone
      (readsRest tail _ around read ?_)
    simpa using resumes

/-! ### Nodes -/

section

open Node

theorem near_of_isOutline {node : Node} (outline : node.IsOutline column) :
    column + 2 ≤ lastColumn := by
  cases node with
  | reference name => exact outline.elim
  | scalar anchor tag text => exact outline.2.2.2
  | sequence anchor tag items => exact outline.2.2.1
  | mapping anchor tag entries => exact outline.2.2.1

mutual

/-- A value of an outline is written so that it is read as its words. -/
theorem writes_node {column : Nat} {node : Node} (outline : node.IsOutline column) {sheet : Sheet}
    (behind : IsBehindMark sheet column) (inMapping : Bool)
    (listed : node.isSequence = true → inMapping = true ∧ sheet.indented = false) :
    WritesValue sheet (writeNode ⟨true⟩ sheet column inMapping false node) column node.words := by
  cases node with
  | reference name => exact outline.elim
  | scalar anchor tag text =>
    obtain ⟨rfl, rfl, restorable, near⟩ := outline
    rw [writeNode]
    exact writes_text restorable near behind
  | sequence anchor tag items =>
    obtain ⟨rfl, rfl, near, records⟩ := outline
    cases items with
    | nil =>
      rw [writeNode]
      exact writes_pair .sequence behind
    | cons item others =>
      obtain ⟨rfl, inLine⟩ := listed rfl
      rw [writeNode]
      · have inner : (if (true && !(writeHead sheet none .seq .seq).indented) = true then column
            else column + 2) = column := by
          show (if (true && !sheet.indented) = true then column else column + 2) = column
          rw [inLine]
          rfl
        rw [inner]
        exact (writes_items records inLine).value (List.cons_ne_nil _ _) inLine
      · exact List.cons_ne_nil _ _
  | mapping anchor tag entries =>
    obtain ⟨rfl, rfl, near, outlines⟩ := outline
    cases entries with
    | nil =>
      rw [writeNode]
      exact writes_pair .mapping behind
    | cons entry others =>
      rw [writeNode]
      · exact writes_mapping behind fun isAt =>
          writes_entries (List.cons_ne_nil _ _) outlines isAt
      · exact List.cons_ne_nil _ _

/-- The items of a sequence are lines of the block around it. -/
theorem writes_items {column : Nat} {items : List Node} (records : AreRecords column items)
    {sheet : Sheet} (inLine : sheet.indented = false) :
    WritesMore sheet (writeItems ⟨true⟩ sheet column items) column (itemWords items) := by
  cases items with
  | nil => exact writesMore_nil inLine
  | cons item others =>
    obtain ⟨record, outline, further⟩ := records
    rw [writeItems]
    exact writes_item rfl inLine
      (fun behind _ => writes_node outline behind false fun sequence =>
        absurd sequence (Node.not_isSequence_of_isRecord record))
      fun ended => writes_items further ended

/-- The entries of a mapping are written from the column of their block on. -/
theorem writes_entries {column : Nat} {entries : List (Node × Node)} (filled : entries ≠ [])
    (outlines : HasOutlines column entries) {sheet : Sheet}
    (isAt : (sheet.indent column).IsAt column) :
    WritesEntries (sheet.indent column) (writeEntries ⟨true⟩ sheet column entries) column
      (entryWords entries) := by
  cases entries with
  | nil => exact absurd rfl filled
  | cons entry others =>
  obtain ⟨key, value⟩ := entry
  obtain ⟨⟨name, rfl, isKey⟩, outline, listed, -, further⟩ := outlines
  have more {behindValue : Sheet} (ended : behindValue.indented = false) : WritesMore behindValue
      (writeEntries ⟨true⟩ behindValue column others) column (entryWords others) := by
    by_cases none : others = []
    · rw [none]
      exact writesMore_nil ended
    · exact (writes_entries none further (Sheet.indent_newline column (Or.inl ended)).2).more ended
  rw [writeEntries]
  dsimp only
  by_cases simple : isSimpleKey ⟨true⟩ (scalar none .str name) = true
  · rw [if_pos simple]
    exact writes_entry (writes_simpleKey isKey simple isAt)
      (fun behind => writes_node outline behind true fun _ => ⟨rfl, Bool.and_false _⟩) more
  · rw [if_neg simple]
    exact writes_entry (writes_complexKey isKey (near_of_isOutline outline) isAt)
      (fun behind => writes_node outline behind true fun sequence => absurd (listed sequence) simple)
      more

end

end

end Taskbook.Yaml
