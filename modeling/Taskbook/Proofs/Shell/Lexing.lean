/-
How the shell reads a text, as far as its parentheses go.

The text is read character by character. A character may stand outside quotes, between single or
double quotes, or in a comment; outside quotes it matters whether a word may start, since only there
a number sign begins a comment. A backslash hides the next character, but not between single quotes
and not in a comment. Parentheses count outside quotes and comments only.

A text that stands between two parentheses ends at the one that closes more than it has opened. So
the lexer has no state behind that parenthesis, and `behind?` gives what is left of the text there.
Reading goes on in the same way wherever more parentheses are open, and hence a text can be looked
at by itself.
-/

import Mathlib.Tactic.SplitIfs
import Taskbook.Env
import Taskbook.Shell.Word

namespace Taskbook.Shell

/-! ### Reading to an end -/

section

variable {State : Type} {read? : State → Char → Option State}

/-- What stands behind the first character that a reader has no state behind. -/
def restBehind? (read? : State → Char → Option State) : State → List Char → Option (List Char)
  | _, [] => none
  | state, character :: rest =>
    match read? state character with
    | some next => restBehind? read? next rest
    | none => some rest

theorem restBehind?_append {state last : State} {text : List Char}
    (scanned : text.foldlM read? state = some last) (rest : List Char) :
    restBehind? read? state (text ++ rest) = restBehind? read? last rest := by
  induction text generalizing state with
  | nil =>
    obtain rfl := Option.some.inj scanned
    rfl
  | cons character others inductionHypothesis =>
    rw [List.foldlM_cons] at scanned
    obtain ⟨next, read, scanned⟩ := Option.bind_eq_some_iff.mp scanned
    rw [List.cons_append, restBehind?, read]
    exact inductionHypothesis scanned

/-- Reading that ends in a text ends before whatever stands behind the text. -/
theorem restBehind?_append_of_none {state : State} {text : List Char}
    (scanned : text.foldlM read? state = none) (rest : List Char) :
    ∃ inside, restBehind? read? state (text ++ rest) = some (inside ++ rest) := by
  induction text generalizing state with
  | nil => cases scanned
  | cons character others inductionHypothesis =>
    rw [List.cons_append, restBehind?]
    cases read : read? state character with
    | none => exact ⟨others, rfl⟩
    | some next =>
      rw [List.foldlM_cons, read] at scanned
      exact inductionHypothesis scanned

theorem length_lt_of_restBehind? {state : State} {text rest : List Char}
    (ended : restBehind? read? state text = some rest) : rest.length < text.length := by
  induction text generalizing state with
  | nil => cases ended
  | cons character others inductionHypothesis =>
    rw [restBehind?] at ended
    split at ended
    · exact Nat.lt_succ_of_lt (inductionHypothesis ended)
    · obtain rfl := Option.some.inj ended
      exact Nat.lt_succ_self _

end

/-! ### Reading one character -/

/-- What the shell is in the middle of. -/
inductive Region where
  /-- A word may start here. -/
  | between
  | word
  | single
  | double
  | comment
  deriving DecidableEq, Repr

/-- How the next character is read: what it is in the middle of, and whether a backslash hides
it. -/
structure Mode where
  region : Region
  hides : Bool
  deriving DecidableEq, Repr

/-- The characters outside quotes behind which a word may start. -/
def breaks : List Char :=
  [' ', '\t', '\n', ';', '&', '|', '<', '>', '(', ')']

namespace Mode

/-- Whether a character is outside quotes and comments, and nothing hides it. -/
def isLive (mode : Mode) : Bool :=
  (mode.region = .between || mode.region = .word) && !mode.hides

/-- The mode behind a character. A line that is continued goes on as it was. -/
def after (mode : Mode) (character : Char) : Mode :=
  match mode.region with
  | .comment => if character = '\n' then ⟨.between, false⟩ else mode
  | .single => if character = singleQuote then ⟨.word, false⟩ else mode
  | .double =>
    if mode.hides then ⟨.double, false⟩
    else if character = '\\' then ⟨.double, true⟩
    else if character = doubleQuote then ⟨.word, false⟩
    else mode
  | region =>
    if mode.hides then ⟨if character = '\n' then region else .word, false⟩
    else if character = '\\' then ⟨region, true⟩
    else if character = singleQuote then ⟨.single, false⟩
    else if character = doubleQuote then ⟨.double, false⟩
    else if character = '#' ∧ region = .between then ⟨.comment, false⟩
    else if character ∈ breaks then ⟨.between, false⟩
    else ⟨.word, false⟩

end Mode

/-- How far the shell has read a text: its mode, and how many parentheses are open that were
opened in the text. -/
structure Lexer where
  mode : Mode
  depth : Nat
  deriving DecidableEq, Repr

namespace Lexer

/-- The start of a text. -/
def initial : Lexer :=
  ⟨⟨.between, false⟩, 0⟩

/-- The lexer behind a character. There is none behind the parenthesis that closes what was open
before the text. -/
def read? (lexer : Lexer) (character : Char) : Option Lexer :=
  let next := lexer.mode.after character
  if lexer.mode.isLive ∧ character = '(' then some ⟨next, lexer.depth + 1⟩
  else if lexer.mode.isLive ∧ character = ')' then
    match lexer.depth with
    | 0 => none
    | depth + 1 => some ⟨next, depth⟩
  else some ⟨next, lexer.depth⟩

/-- The lexer behind a text. -/
def scan? (lexer : Lexer) (text : List Char) : Option Lexer :=
  text.foldlM read? lexer

/-- What stands behind the parenthesis that closes what was open before a text. -/
def behind? (lexer : Lexer) (text : List Char) : Option (List Char) :=
  restBehind? read? lexer text

theorem scan?_append (lexer : Lexer) (first second : List Char) :
    lexer.scan? (first ++ second) = (lexer.scan? first).bind (·.scan? second) :=
  List.foldlM_append

theorem scan?_cons (lexer : Lexer) (character : Char) (rest : List Char) :
    lexer.scan? (character :: rest) = (lexer.read? character).bind (·.scan? rest) :=
  List.foldlM_cons

theorem behind?_append {lexer last : Lexer} {text : List Char}
    (scanned : lexer.scan? text = some last) (rest : List Char) :
    lexer.behind? (text ++ rest) = last.behind? rest :=
  restBehind?_append scanned rest

/-- Parentheses that are open already make no difference to what is read. -/
theorem read?_deeper {mode : Mode} {own : Nat} {character : Char} {next : Lexer}
    (read : read? ⟨mode, own⟩ character = some next) (depth : Nat) :
    read? ⟨mode, own + depth⟩ character = some ⟨next.mode, next.depth + depth⟩ := by
  simp only [read?] at read ⊢
  by_cases opens : mode.isLive ∧ character = '('
  · rw [if_pos opens] at read ⊢
    obtain rfl := Option.some.inj read
    rw [Nat.add_right_comm]
  · rw [if_neg opens] at read ⊢
    by_cases closes : mode.isLive ∧ character = ')'
    · rw [if_pos closes] at read ⊢
      cases own with
      | zero => cases read
      | succ own =>
        obtain rfl := Option.some.inj read
        rw [Nat.add_right_comm]
    · rw [if_neg closes] at read ⊢
      obtain rfl := Option.some.inj read
      rfl

theorem scan?_deeper {mode : Mode} {own : Nat} {text : List Char} {last : Lexer}
    (scanned : scan? ⟨mode, own⟩ text = some last) (depth : Nat) :
    scan? ⟨mode, own + depth⟩ text = some ⟨last.mode, last.depth + depth⟩ := by
  induction text generalizing mode own with
  | nil =>
    obtain rfl := Option.some.inj scanned
    rfl
  | cons character rest inductionHypothesis =>
    rw [scan?_cons] at scanned ⊢
    obtain ⟨next, read, scanned⟩ := Option.bind_eq_some_iff.mp scanned
    rw [read?_deeper read, Option.bind_some]
    exact inductionHypothesis scanned

end Lexer

/-- Only a number sign begins a comment. -/
theorem Mode.region_after_ne_comment {mode : Mode} (outside : mode.region ≠ .comment)
    {character : Char} (other : character ≠ '#') : (mode.after character).region ≠ .comment := by
  obtain ⟨region, hides⟩ := mode
  cases region with
  | comment => exact absurd rfl outside
  | single =>
    simp only [after]
    split <;> simp
  | double =>
    simp only [after]
    split_ifs <;> simp
  | between =>
    simp only [after]
    split_ifs <;> simp_all
  | word =>
    simp only [after]
    split_ifs <;> simp_all

theorem Lexer.mode_of_read? {lexer next : Lexer} {character : Char}
    (read : lexer.read? character = some next) : next.mode = lexer.mode.after character := by
  unfold read? at read
  dsimp only at read
  split at read
  · exact congrArg mode (Option.some.inj read).symm
  · split at read
    · split at read
      · cases read
      · exact congrArg mode (Option.some.inj read).symm
    · exact congrArg mode (Option.some.inj read).symm

theorem Lexer.region_of_scan?_ne_comment {lexer last : Lexer} {text : List Char}
    (outside : lexer.mode.region ≠ .comment) (without : ∀ character ∈ text, character ≠ '#')
    (scanned : lexer.scan? text = some last) : last.mode.region ≠ .comment := by
  induction text generalizing lexer with
  | nil =>
    obtain rfl := Option.some.inj scanned
    exact outside
  | cons character rest inductionHypothesis =>
    rw [scan?_cons] at scanned
    obtain ⟨next, read, scanned⟩ := Option.bind_eq_some_iff.mp scanned
    refine inductionHypothesis ?_
      (fun other member => without other (List.mem_cons_of_mem _ member)) scanned
    rw [mode_of_read? read]
    exact Mode.region_after_ne_comment outside (without character List.mem_cons_self)

/-! ### Words and quoted texts -/

/-- A region outside quotes and comments. -/
def Region.IsBare (region : Region) : Prop :=
  region = .between ∨ region = .word

/-- The characters that mean nothing outside quotes, wherever they stand. -/
def isOrdinary (character : Char) : Bool :=
  !(['\\', singleQuote, doubleQuote, '#'] ++ breaks).contains character

theorem after_ordinary {region : Region} (bare : region.IsBare) {character : Char}
    (ordinary : isOrdinary character = true) :
    (Mode.mk region false).after character = ⟨.word, false⟩ := by
  rcases bare with rfl | rfl
  · simp_all [isOrdinary, Mode.after]
  · simp_all [isOrdinary, Mode.after]

namespace Lexer

theorem read?_ordinary {region : Region} (bare : region.IsBare) {character : Char}
    (ordinary : isOrdinary character = true) (depth : Nat) :
    read? ⟨⟨region, false⟩, depth⟩ character = some ⟨⟨.word, false⟩, depth⟩ := by
  have opens : character ≠ '(' := by
    rintro rfl
    cases ordinary
  have closes : character ≠ ')' := by
    rintro rfl
    cases ordinary
  rw [read?, if_neg fun live => opens live.2, if_neg fun live => closes live.2,
    after_ordinary bare ordinary]

/-- Characters that mean nothing make a word. -/
theorem scan?_ordinary {region : Region} (bare : region.IsBare) {text : List Char}
    (ordinary : ∀ character ∈ text, isOrdinary character = true) (some : text ≠ []) (depth : Nat) :
    scan? ⟨⟨region, false⟩, depth⟩ text = .some ⟨⟨.word, false⟩, depth⟩ := by
  induction text generalizing region with
  | nil => exact absurd rfl some
  | cons character rest inductionHypothesis =>
    rw [scan?_cons, read?_ordinary bare (ordinary character List.mem_cons_self), Option.bind_some]
    by_cases last : rest = []
    · rw [last]
      rfl
    · exact inductionHypothesis (Or.inr rfl)
        (fun other member => ordinary other (List.mem_cons_of_mem _ member)) last

/-- Between double quotes nothing ends them but a double quote, or hides one but a backslash. -/
theorem scan?_double {text : List Char}
    (quotable : ∀ character ∈ text, character ≠ doubleQuote ∧ character ≠ '\\') (depth : Nat) :
    scan? ⟨⟨.double, false⟩, depth⟩ text = some ⟨⟨.double, false⟩, depth⟩ := by
  induction text with
  | nil => rfl
  | cons character rest inductionHypothesis =>
    obtain ⟨noQuote, noBackslash⟩ := quotable character List.mem_cons_self
    have read : read? ⟨⟨.double, false⟩, depth⟩ character = some ⟨⟨.double, false⟩, depth⟩ := by
      simp [read?, Mode.isLive, Mode.after, noQuote, noBackslash]
    rw [scan?_cons, read, Option.bind_some]
    exact inductionHypothesis fun other member => quotable other (List.mem_cons_of_mem _ member)

/-- Between single quotes nothing ends them but a single quote, and that is spelled outside. -/
theorem scan?_single (text : List Char) (depth : Nat) :
    scan? ⟨⟨.single, false⟩, depth⟩ (text.flatMap wordCharacter) =
      some ⟨⟨.single, false⟩, depth⟩ := by
  induction text with
  | nil => rfl
  | cons character rest inductionHypothesis =>
    have read : scan? ⟨⟨.single, false⟩, depth⟩ (wordCharacter character) =
        some ⟨⟨.single, false⟩, depth⟩ := by
      by_cases quote : character = singleQuote
      · subst quote
        rfl
      · rw [wordCharacter, if_neg quote]
        simp [scan?, read?, Mode.isLive, Mode.after, quote]
    rw [List.flatMap_cons, scan?_append, read, Option.bind_some, inductionHypothesis]

end Lexer

/-- A class of characters in which none is special holds ordinary ones only. -/
theorem isOrdinary_of_class {kind : Char → Bool}
    (none : ((['\\', singleQuote, doubleQuote, '#'] ++ breaks).all fun character =>
      !kind character) = true) {character : Char} (member : kind character = true) :
    isOrdinary character = true := by
  unfold isOrdinary
  rw [Bool.not_eq_true', ← Bool.not_eq_true, List.contains_iff_mem]
  intro special
  have outside := List.all_eq_true.mp none character special
  rw [member] at outside
  cases outside

theorem isOrdinary_of_isPlain {character : Char} (plain : isPlain character = true) :
    isOrdinary character = true :=
  isOrdinary_of_class (by decide) plain

theorem isOrdinary_of_continuesVariableName {character : Char}
    (continues : continuesVariableName character = true) : isOrdinary character = true :=
  isOrdinary_of_class (by decide) continues

theorem isOrdinary_of_isVariableName {name : String} (named : isVariableName name = true) :
    ∀ character ∈ name.toList, isOrdinary character = true :=
  fun character member =>
    isOrdinary_of_continuesVariableName (continues_of_isVariableName named character member)

theorem toList_ne_nil_of_isVariableName {name : String} (named : isVariableName name = true) :
    name.toList ≠ [] := by
  intro empty
  rw [isVariableName, empty] at named
  cases named

/-- Whatever a label is, as a word it is read as one. -/
theorem scan?_word (label : String) (depth : Nat) :
    Lexer.scan? ⟨⟨.between, false⟩, depth⟩ (word label).toList =
      some ⟨⟨.word, false⟩, depth⟩ := by
  unfold word
  dsimp only
  split
  · rfl
  · rename_i filled
    split
    · rename_i plain
      have ordinary : ∀ character ∈ label.toList, isOrdinary character = true :=
        fun character member => isOrdinary_of_isPlain (List.all_eq_true.mp plain character member)
      exact Lexer.scan?_ordinary (Or.inl rfl) ordinary (by simpa using filled) depth
    · rw [String.toList_ofList, List.cons_append, Lexer.scan?_cons]
      show (Lexer.scan? ⟨⟨.single, false⟩, depth⟩ _) = _
      rw [Lexer.scan?_append, Lexer.scan?_single]
      rfl

end Taskbook.Shell
