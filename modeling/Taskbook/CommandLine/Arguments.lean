/-
Arguments of commands.

Arguments are options and positional arguments. An option has a spelling of two hyphens
and a name; some are flags, others take a value, which is the text after an equals sign
or else the next argument, whatever it looks like. Some flags also have a letter, and
letters can be written together after one hyphen. Two hyphens alone end the options. A
hyphen alone is a positional argument. Unknown options, flags with a value and options
without one are misused.
-/

import Taskbook.CommandLine.Pairs

namespace Taskbook.CommandLine

/-- What an option says. -/
inductive OptionKind where
  /-- The option takes a value. -/
  | valued
  /-- The option stands for a truth value. -/
  | flag (truth : Bool)
  deriving DecidableEq, Repr

/-- An option that may be given. -/
structure OptionRule where
  spelling : String
  letter : Option Char
  field : String
  kind : OptionKind
  deriving DecidableEq, Repr

/-- What is given on a command line: texts and truth values by field, and positional
arguments, each in the order in which they were given. -/
structure Given where
  texts : List (String × String)
  truths : List (String × Bool)
  positionals : List String
  deriving DecidableEq, Repr

namespace Given

/-- Nothing. -/
def nothing : Given :=
  ⟨[], [], []⟩

def addText (given : Given) (field text : String) : Given :=
  { given with texts := given.texts ++ [(field, text)] }

def addTruth (given : Given) (field : String) (truth : Bool) : Given :=
  { given with truths := given.truths ++ [(field, truth)] }

def addPositionals (given : Given) (arguments : List String) : Given :=
  { given with positionals := given.positionals ++ arguments }

/-- All texts that are given for a field. -/
def textsOf (given : Given) (field : String) : List String :=
  (given.texts.filter fun entry => entry.1 = field).map Prod.snd

/-- The last text that is given for a field. -/
def text? (given : Given) (field : String) : Option String :=
  (given.textsOf field).getLast?

/-- The last truth value that is given for a field, or the usual one. -/
def truth (given : Given) (field : String) (usual : Bool) : Bool :=
  (((given.truths.filter fun entry => entry.1 = field).map Prod.snd).getLast?).getD usual

end Given

/-- What one argument is by its looks. -/
inductive Shape where
  /-- The end of the options. -/
  | ending
  /-- An option with the text after its equals sign, if it has one. -/
  | long (spelling : String) (attached : Option String)
  /-- Letters of flags. -/
  | letters (letters : List Char)
  | positional

/-- What an argument is by its looks. -/
def shapeOf (argument : String) : Shape :=
  match argument.toList with
  | ['-', '-'] => .ending
  | '-' :: '-' :: _ =>
    match splitPair? argument.toList with
    | some (spelling, text) => .long (String.ofList spelling) (some (String.ofList text))
    | none => .long argument none
  | '-' :: first :: rest => .letters (first :: rest)
  | _ => .positional

/-- Adds the flag of a letter. -/
def addLetter (rules : List OptionRule) (given : Given) (letter : Char) : Option Given := do
  let rule ← rules.find? fun rule => rule.letter = some letter
  match rule.kind with
  | .flag truth => some (given.addTruth rule.field truth)
  | .valued => none

/-- Reads arguments one after the other; none if they are misused. Where options and positional
arguments do not mix, the first positional argument ends the options. -/
def scan (rules : List OptionRule) (mixed : Bool) (given : Given) (arguments : List String) :
    Option Given :=
  match arguments with
  | [] => some given
  | argument :: rest =>
    match shapeOf argument with
    | .ending => some (given.addPositionals rest)
    | .positional =>
      if mixed then scan rules mixed (given.addPositionals [argument]) rest
      else some (given.addPositionals (argument :: rest))
    | .letters letters =>
      match letters.foldlM (addLetter rules) given with
      | some extended => scan rules mixed extended rest
      | none => none
    | .long spelling attached =>
      match rules.find? fun rule => rule.spelling = spelling with
      | none => none
      | some rule =>
        match rule.kind, attached with
        | .flag truth, none => scan rules mixed (given.addTruth rule.field truth) rest
        | .flag _, some _ => none
        | .valued, some text => scan rules mixed (given.addText rule.field text) rest
        | .valued, none =>
          match rest with
          | text :: others => scan rules mixed (given.addText rule.field text) others
          | [] => none

/-- The arguments that a command takes. -/
structure Usage where
  options : List OptionRule
  required : Nat
  optional : Nat

/-- The option that asks for help. -/
def helpRule : OptionRule :=
  ⟨"--help", none, "help", .flag true⟩

/-- Arguments that were understood: a request for help, or what was given. -/
inductive Understood where
  | help
  | given (given : Given)

/-- Reads the arguments of a command; none if they are misused. Who asks for help may leave out
arguments or give too many. -/
def understand (usage : Usage) (arguments : List String) : Option Understood := do
  let given ← scan (helpRule :: usage.options) true .nothing arguments
  if given.truth "help" false then some .help
  else
    let count := given.positionals.length
    if usage.required ≤ count && count ≤ usage.required + usage.optional then
      some (.given given)
    else none

end Taskbook.CommandLine
