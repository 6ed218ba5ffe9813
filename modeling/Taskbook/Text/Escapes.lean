/-
Control sequences of terminals.

A control sequence starts with an escape and an opening bracket, goes on with digits,
semicolons and question marks, and ends in a letter. Where the output is no terminal,
control sequences are left out of it. What starts like one and does not end like one is
kept.
-/

namespace Taskbook.Text

/-- The character that starts a control sequence. -/
def escape : Char := Char.ofNat 27

/-- The characters inside a control sequence. -/
def isParameter (character : Char) : Bool :=
  character = ';' || character = '?' || character.isDigit

/-- How far into a control sequence the characters read so far are. -/
inductive SequenceState where
  | outside
  | escaped
  | inside (parameters : List Char)

/-- The characters that have been read and may yet turn out to be kept. -/
def SequenceState.held : SequenceState → List Char
  | outside => []
  | escaped => [escape]
  | inside parameters => escape :: '[' :: parameters

/-- Characters without the control sequences among them, after a state. -/
def withoutSequences (state : SequenceState) : List Char → List Char
  | [] => state.held
  | character :: rest =>
    if character = escape then state.held ++ withoutSequences .escaped rest
    else
      match state with
      | .outside => character :: withoutSequences .outside rest
      | .escaped =>
        if character = '[' then withoutSequences (.inside []) rest
        else escape :: character :: withoutSequences .outside rest
      | .inside parameters =>
        if isParameter character then withoutSequences (.inside (parameters ++ [character])) rest
        else if character.isAlpha then withoutSequences .outside rest
        else SequenceState.held state ++ character :: withoutSequences .outside rest

/-- A text without control sequences. -/
def withoutEscapes (text : String) : String :=
  String.ofList (withoutSequences .outside text.toList)

end Taskbook.Text
