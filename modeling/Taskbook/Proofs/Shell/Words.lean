/-
The words that the shell splits a text into.

A text is split where blanks stand outside quotes, and the quotes themselves are taken out of the
words. What else may happen outside single quotes is none of a word's own doing: an operator ends
the command, a comment swallows the rest, and an expansion puts other text in the place of its own.
So there is a reader that gives the words of a text only if none of these occurs in it.

Between single quotes every character is part of the word but the single quote itself. A text that
is written as one word leaves the single quotes at each of its own, has that one between double
quotes, and goes back between single quotes. Whatever the text is, the reader is where it was before
after each of its characters, and at the end of the word it has read the text.
-/

import Taskbook.Proofs.Shell.Lexing
import Taskbook.Shell.Script

namespace Taskbook.Shell

/-! ### Reading words -/

/-- What a character is to the word that is being read. -/
inductive Role where
  /-- It puts characters into the word, or none where it only quotes. -/
  | part (characters : List Char)
  /-- It ends the word. -/
  | gap
  /-- It begins an operator, an expansion or a comment, or belongs to one. -/
  | active
  deriving DecidableEq, Repr

/-- The characters that operators are made of. A line that ends ends its command. -/
def operators : List Char :=
  ['\n', ';', '&', '|', '<', '>', '(', ')']

/-- The characters that begin an expansion also between double quotes. -/
def substitutions : List Char :=
  ['$', '`']

/-- The characters that stand for other characters in the names of files. -/
def wildcards : List Char :=
  ['*', '?', '[']

/-- The characters that mean something at the start of a word only: there one begins a comment, and
one stands for a home directory. -/
def leads : List Char :=
  ['#', '~']

namespace Mode

/-- What a character outside quotes is to the word. -/
def bareRole (mode : Mode) (character : Char) : Role :=
  if mode.hides then .part (if character = '\n' then [] else [character])
  else if character ∈ ['\\', singleQuote, doubleQuote] then .part []
  else if character ∈ operators ++ substitutions ++ wildcards then .active
  else if mode.region = .between ∧ character ∈ leads then .active
  else if character ∈ [' ', '\t'] then .gap
  else .part [character]

/-- What a character between double quotes is to the word. A backslash hides only what would mean
something there, and before all else it is a character itself. -/
def quotedRole (mode : Mode) (character : Char) : Role :=
  if mode.hides then
    if character = '\n' then .part []
    else if character ∈ ['\\', doubleQuote] ++ substitutions then .part [character]
    else .part ['\\', character]
  else if character ∈ ['\\', doubleQuote] then .part []
  else if character ∈ substitutions then .active
  else .part [character]

/-- What a character is to the word that is being read. -/
def role (mode : Mode) (character : Char) : Role :=
  match mode.region with
  | .between => mode.bareRole character
  | .word => mode.bareRole character
  | .single => .part (if character = singleQuote then [] else [character])
  | .double => mode.quotedRole character
  | .comment => .active

end Mode

/-- The words of a text of which the first has been read in part. There are none if something in the
text is active, or if the text ends inside quotes or behind a backslash. -/
def wordsFrom? (mode : Mode) (reading : List Char) : List Char → Option (List String)
  | [] =>
    match mode with
    | ⟨.between, false⟩ => some []
    | ⟨.word, false⟩ => some [String.ofList reading]
    | _ => none
  | character :: rest =>
    match mode.role character with
    | .part characters => wordsFrom? (mode.after character) (reading ++ characters) rest
    | .gap =>
      let further := wordsFrom? (mode.after character) [] rest
      if mode.region = .between then further else further.map (String.ofList reading :: ·)
    | .active => none

/-- The words that a text consists of, if it consists of nothing but words. -/
def words? (text : String) : Option (List String) :=
  wordsFrom? Lexer.initial.mode [] text.toList

/-! ### Words that are written -/

section

variable {mode : Mode} {region : Region} {reading characters rest : List Char} {character : Char}

theorem wordsFrom?_part (part : mode.role character = .part characters) :
    wordsFrom? mode reading (character :: rest) =
      wordsFrom? (mode.after character) (reading ++ characters) rest := by
  rw [wordsFrom?, part]

/-- A character that means nothing to the shell is itself, wherever it stands in a word. -/
theorem role_of_isPlain (bare : region.IsBare) (plain : isPlain character = true) :
    (Mode.mk region false).role character = .part [character] := by
  have apart (special : List Char) (none : (special.all fun other => !isPlain other) = true) :
      character ∉ special := by
    intro member
    have outside := List.all_eq_true.mp none character member
    rw [plain] at outside
    cases outside
  have role : (Mode.mk region false).bareRole character = .part [character] := by
    rw [Mode.bareRole, if_neg Bool.false_ne_true, if_neg (apart _ (by decide)),
      if_neg (apart _ (by decide)), if_neg fun leading => apart leads (by decide) leading.2,
      if_neg (apart _ (by decide))]
  rcases bare with rfl | rfl <;> exact role

theorem wordsFrom?_plain (bare : region.IsBare)
    (plain : ∀ character ∈ characters, isPlain character = true) (some : characters ≠ []) :
    wordsFrom? ⟨region, false⟩ reading (characters ++ rest) =
      wordsFrom? ⟨.word, false⟩ (reading ++ characters) rest := by
  induction characters generalizing region reading with
  | nil => exact absurd rfl some
  | cons character others inductionHypothesis =>
    have first := plain character List.mem_cons_self
    rw [List.cons_append, wordsFrom?_part (role_of_isPlain bare first),
      after_ordinary bare (isOrdinary_of_isPlain first)]
    by_cases last : others = []
    · rw [last]
      rfl
    · rw [inductionHypothesis (Or.inr rfl)
        (fun other member => plain other (List.mem_cons_of_mem _ member)) last]
      simp only [List.append_assoc, List.singleton_append]

/-- Whatever a text is, between single quotes it is read as it is, and the quotes are open again
behind it. -/
theorem wordsFrom?_single :
    wordsFrom? ⟨.single, false⟩ reading (characters.flatMap wordCharacter ++ rest) =
      wordsFrom? ⟨.single, false⟩ (reading ++ characters) rest := by
  induction characters generalizing reading with
  | nil => rw [List.flatMap_nil, List.nil_append, List.append_nil]
  | cons character others inductionHypothesis =>
    have read (behind : List Char) :
        wordsFrom? ⟨.single, false⟩ reading (wordCharacter character ++ behind) =
          wordsFrom? ⟨.single, false⟩ (reading ++ [character]) behind := by
      by_cases quote : character = singleQuote
      · -- Out of the single quotes, between double quotes and back again.
        subst quote
        simp [wordCharacter, wordsFrom?, Mode.role, Mode.bareRole, Mode.quotedRole, Mode.after,
          singleQuote, doubleQuote, substitutions]
      · rw [wordCharacter, if_neg quote]
        simp [wordsFrom?, Mode.role, Mode.after, quote]
    rw [List.flatMap_cons, List.append_assoc, read, inductionHypothesis, List.append_assoc,
      List.singleton_append]

/-- A text that is written as a word is read as one. -/
theorem wordsFrom?_word (text : String) :
    wordsFrom? ⟨.between, false⟩ [] ((word text).toList ++ rest) =
      wordsFrom? ⟨.word, false⟩ text.toList rest := by
  have opens (behind : List Char) : wordsFrom? ⟨.between, false⟩ [] (singleQuote :: behind) =
      wordsFrom? ⟨.single, false⟩ [] behind := rfl
  have closes (reading behind : List Char) :
      wordsFrom? ⟨.single, false⟩ reading (singleQuote :: behind) =
        wordsFrom? ⟨.word, false⟩ reading behind := by
    have part : (Mode.mk .single false).role singleQuote = .part [] := rfl
    rw [wordsFrom?_part part, List.append_nil]
    rfl
  unfold word
  dsimp only
  split
  · rename_i empty
    rw [List.isEmpty_iff.mp empty, String.toList_ofList]
    exact (opens _).trans (closes [] rest)
  · rename_i filled
    split
    · rename_i plain
      exact wordsFrom?_plain (Or.inl rfl) (List.all_eq_true.mp plain) (by simpa using filled)
    · rw [String.toList_ofList, List.cons_append, List.cons_append, List.append_assoc,
        opens, wordsFrom?_single, List.nil_append, List.singleton_append, closes]

end

/-- A command that shows a label consists of two words, and the second one is the label. -/
theorem words?_echo (label : String) :
    words? (Leaf.echo label).print = some ["echo", label] := by
  have named (rest : List Char) : wordsFrom? ⟨.between, false⟩ [] ("echo ".toList ++ rest) =
      (wordsFrom? ⟨.between, false⟩ [] rest).map ("echo" :: ·) := rfl
  have whole := @wordsFrom?_word [] label
  rw [List.append_nil] at whole
  rw [Leaf.print, words?, String.toList_append]
  refine (named _).trans ?_
  rw [whole, wordsFrom?, Option.map_some, String.ofList_toList]

example : words? (Leaf.echo "it's $HOME").print = some ["echo", "it's $HOME"] ∧
    words? "echo it's $HOME" = none := by
  decide +kernel

end Taskbook.Shell
