/-
Texts between double quotes.

Between double quotes the shell looks for the double quote that closes them. A backslash hides the
next character. A backquote, and a dollar sign before an opening parenthesis or brace, begins a
substitution, which is passed over as a whole. Two dollar signs are a variable of the shell and
begin nothing, and a line that is continued is as if it went on.

How far a substitution goes is up to the shell, which reads shell text in it, with quotes and
substitutions of its own. All that counts here is that it is read from left to right. So a shell is
what it is in the middle of in a substitution, and how a character takes it further or ends the
substitution.

A text stays between the quotes that are written around it if the reader is directly between them at
its end, and a backslash does not hide the quote behind it. In any other case that quote does not
close the one before the text: it is another one that does, or there is none.
-/

import Mathlib.Tactic.SplitIfs
import Taskbook.Proofs.Shell.Lexing

namespace Taskbook.Shell

/-! ### Substitutions -/

/-- How a shell passes over what it substitutes. -/
structure Substituting where
  /-- What it can be in the middle of. -/
  State : Type
  /-- Behind a backquote. -/
  backquoted : State
  /-- Behind a dollar sign and an opening parenthesis. -/
  command : State
  /-- Behind a dollar sign and an opening brace. -/
  parameter : State
  /-- Behind a dollar sign and another character, if a substitution begins with them too. -/
  other? : Char → Option State
  /-- What it is in the middle of behind a character; nothing if the substitution ends with it. -/
  pass? : State → Char → Option State

/-- How far a text between double quotes has been read. -/
inductive QuoteReader (shell : Substituting) where
  /-- Directly between the quotes. Behind a dollar sign a substitution can begin. -/
  | between (dollar : Bool)
  /-- Behind a backslash, which may continue a line behind a dollar sign. -/
  | escaping (dollar : Bool)
  | substituting (state : shell.State)

namespace QuoteReader

variable {shell : Substituting}

/-- Behind the double quote that opens. -/
def opened : QuoteReader shell :=
  between false

/-- What begins with a character behind a dollar sign. -/
def begun? (shell : Substituting) : Char → Option shell.State
  | '(' => some shell.command
  | '{' => some shell.parameter
  | character => shell.other? character

/-- Reads a character between the quotes that begins no substitution behind a dollar sign. There is
no reader behind the double quote that closes the quotation. -/
def readQuoted (dollar : Bool) (character : Char) : Option (QuoteReader shell) :=
  if character = doubleQuote then none
  else if character = '\\' then some (escaping dollar)
  else if character = '`' then some (substituting shell.backquoted)
  else some (between (character = '$' && !dollar))

/-- Reads a character. -/
def read? : QuoteReader shell → Char → Option (QuoteReader shell)
  | between dollar, character =>
    if dollar ∧ character ∉ [doubleQuote, '\\', '`', '$'] then
      some (((begun? shell character).map substituting).getD (between false))
    else readQuoted dollar character
  | escaping dollar, character => some (between (dollar && character = '\n'))
  | substituting state, character =>
    some (((shell.pass? state character).map substituting).getD (between false))

/-- What stands behind the double quote that closes the quotation. -/
def behind? (reader : QuoteReader shell) (text : List Char) : Option (List Char) :=
  restBehind? read? reader text

/-- Whether the reader is directly between the quotes, and nothing hides the next character. -/
def isBetween : QuoteReader shell → Bool
  | between _ => true
  | _ => false

/-- A double quote closes the quotation exactly if the reader is directly between the quotes. -/
theorem read?_doubleQuote (reader : QuoteReader shell) :
    reader.read? doubleQuote = none ↔ reader.isBetween = true := by
  cases reader with
  | between dollar =>
    have begins : ¬ (dollar = true ∧ doubleQuote ∉ [doubleQuote, '\\', '`', '$']) := fun begins =>
      begins.2 List.mem_cons_self
    rw [read?, if_neg begins]
    exact iff_of_true rfl rfl
  | escaping dollar => exact iff_of_false nofun nofun
  | substituting state => exact iff_of_false nofun nofun

end QuoteReader

/-- Whether a text stays between the double quotes around it. -/
def staysQuoted (shell : Substituting) (text : String) : Bool :=
  match text.toList.foldlM QuoteReader.read? (QuoteReader.opened : QuoteReader shell) with
  | some reader => reader.isBetween
  | none => false

variable {shell : Substituting}

/-- The double quote behind a text closes the one before it exactly if the text stays between
them. -/
theorem behind?_quote_iff (text : String) (rest : List Char) :
    (QuoteReader.opened : QuoteReader shell).behind? (text.toList ++ doubleQuote :: rest) =
      some rest ↔ staysQuoted shell text = true := by
  unfold staysQuoted QuoteReader.behind?
  cases scanned : text.toList.foldlM QuoteReader.read? (QuoteReader.opened : QuoteReader shell) with
  | none =>
    obtain ⟨inside, ended⟩ := restBehind?_append_of_none scanned (doubleQuote :: rest)
    rw [ended]
    constructor
    · intro same
      have lengths := congrArg List.length (Option.some.inj same)
      rw [List.length_append, List.length_cons] at lengths
      omega
    · intro stays
      cases stays
  | some reader =>
    rw [restBehind?_append scanned, restBehind?]
    dsimp only
    rw [← reader.read?_doubleQuote]
    cases read : reader.read? doubleQuote with
    | none => exact iff_of_true rfl rfl
    | some next =>
      refine iff_of_false ?_ (Option.some_ne_none next)
      intro ended
      exact absurd (length_lt_of_restBehind? ended) (Nat.lt_irrefl _)

/-! ### A shell that goes by nesting -/

/-- What a text in a substitution can be inside of. -/
inductive Enclosure where
  | quotes
  | literal
  | backquotes
  | parentheses
  | braces
  deriving DecidableEq, Repr

/-- The character that closes an enclosure. -/
def Enclosure.closer : Enclosure → Char
  | quotes => doubleQuote
  | literal => singleQuote
  | backquotes => '`'
  | parentheses => ')'
  | braces => '}'

/-- What a character opens inside of an enclosure, perhaps behind a dollar sign. -/
def Enclosure.opened? (enclosure : Enclosure) (dollar : Bool) (character : Char) :
    Option Enclosure :=
  if enclosure ∈ [.literal, .backquotes] then none
  else if character = '`' then some .backquotes
  else if character = '(' ∧ (dollar ∨ enclosure = .parentheses) then some .parentheses
  else if character = '{' ∧ dollar then some .braces
  else if character = doubleQuote then some .quotes
  else if character = singleQuote ∧ enclosure = .parentheses then some .literal
  else none

/-- What is open in a substitution, the innermost first, and whether a backslash hides the next
character and a dollar sign stands before it. -/
structure Nesting where
  inside : List Enclosure
  hides : Bool
  dollar : Bool
  deriving DecidableEq, Repr

/-- Reads a character of a substitution, which ends with what it began with. -/
def Nesting.pass? (nesting : Nesting) (character : Char) : Option Nesting :=
  match nesting.inside with
  | [] => none
  | enclosure :: outer =>
    if nesting.hides then some ⟨nesting.inside, false, false⟩
    else if character = '\\' ∧ enclosure ≠ .literal then some ⟨nesting.inside, true, false⟩
    else if character = enclosure.closer then
      if outer.isEmpty then none else some ⟨outer, false, false⟩
    else
      match enclosure.opened? nesting.dollar character with
      | some inner => some ⟨inner :: nesting.inside, false, false⟩
      | none => some ⟨nesting.inside, false, character = '$' && !nesting.dollar⟩

/-- A shell that goes by quotes and nesting alone, and so passes over every command that has
neither comments nor case patterns. -/
def Substituting.byNesting : Substituting where
  State := Nesting
  backquoted := ⟨[.backquotes], false, false⟩
  command := ⟨[.parentheses], false, false⟩
  parameter := ⟨[.braces], false, false⟩
  other? _ := none
  pass? := Nesting.pass?

/-! ### Texts without substitutions -/

/-- Whether a backslash hides each double quote of a text, and none hides what comes behind the
text. A backslash that is hidden itself hides nothing. -/
def hidesQuotes : List Char → Bool
  | [] => true
  | ['\\'] => false
  | '\\' :: _ :: rest => hidesQuotes rest
  | character :: rest => character ≠ doubleQuote && hidesQuotes rest

theorem staysQuoted_ofList {characters : List Char}
    (plain : ∀ character ∈ characters, character ≠ '`' ∧ character ≠ '$') :
    staysQuoted shell (String.ofList characters) = hidesQuotes characters := by
  induction characters using hidesQuotes.induct with
  | case1 => rfl
  | case2 => rfl
  | case3 hidden rest inductionHypothesis =>
    rw [hidesQuotes, ← inductionHypothesis fun character member =>
      plain character (List.mem_cons_of_mem _ (List.mem_cons_of_mem _ member))]
    simp only [staysQuoted, String.toList_ofList]
    rfl
  | case4 character rest notLast notHiding inductionHypothesis =>
    obtain ⟨noBackquote, noDollar⟩ := plain character List.mem_cons_self
    have noBackslash : character ≠ '\\' := by
      rintro rfl
      cases rest with
      | nil => exact notLast rfl rfl
      | cons hidden others => exact notHiding hidden others rfl rfl
    have further := inductionHypothesis fun other member =>
      plain other (List.mem_cons_of_mem _ member)
    by_cases quote : character = doubleQuote
    · subst quote
      simp only [staysQuoted, String.toList_ofList]
      rfl
    · have read : (QuoteReader.opened : QuoteReader shell).read? character =
          some QuoteReader.opened := by
        simp [QuoteReader.read?, QuoteReader.readQuoted, QuoteReader.opened, noBackslash, quote,
          noBackquote, noDollar]
      simp only [staysQuoted, String.toList_ofList] at further
      simp only [staysQuoted, String.toList_ofList, List.foldlM_cons, read]
      simp [hidesQuotes, quote, ← further]

/-- A text in which nothing can be substituted stays between double quotes exactly if a backslash
hides each of its double quotes, and none hides its end. -/
theorem staysQuoted_eq_hidesQuotes {text : String}
    (plain : ∀ character ∈ text.toList, character ≠ '`' ∧ character ≠ '$') :
    staysQuoted shell text = hidesQuotes text.toList := by
  rw [← staysQuoted_ofList plain, String.ofList_toList]

/-! ### Quotations in a text -/

/-- A text between double quotes in a text, with what is before these and behind them. -/
structure Quotation where
  before : String
  inside : String
  behind : String

namespace Quotation

/-- The whole text. -/
def text (quotation : Quotation) : String :=
  quotation.before ++ "\"" ++ quotation.inside ++ "\"" ++ quotation.behind

/-- Whether the first double quote is closed by the second one. -/
def IsExact (shell : Substituting) (quotation : Quotation) : Prop :=
  (QuoteReader.opened : QuoteReader shell).behind?
      (quotation.inside ++ "\"" ++ quotation.behind).toList = some quotation.behind.toList

instance (quotation : Quotation) : Decidable (quotation.IsExact shell) :=
  inferInstanceAs (Decidable (_ = _))

theorem isExact_iff (quotation : Quotation) :
    quotation.IsExact shell ↔ staysQuoted shell quotation.inside = true := by
  rw [← behind?_quote_iff quotation.inside quotation.behind.toList, IsExact, String.toList_append,
    String.toList_append, List.append_assoc]
  rfl

end Quotation

end Taskbook.Shell
