/-
The names of tasks and of environment variables.

A task's name starts with an ASCII letter or digit and goes on with those, the colon,
the point, the low line and the hyphen. A variable's name is an identifier of the
shell: ASCII letters, digits and low lines, with no digit at its start.
-/

namespace Taskbook

/-- The letters A to Z and a to z. -/
def isLetter (character : Char) : Bool :=
  ('a' ≤ character && character ≤ 'z') || ('A' ≤ character && character ≤ 'Z')

/-- The digits 0 to 9. -/
def isDigit (character : Char) : Bool :=
  '0' ≤ character && character ≤ '9'

/-- The characters a task's name may start with. -/
def startsTaskName (character : Char) : Bool :=
  isLetter character || isDigit character

/-- The characters a task's name may go on with. -/
def continuesTaskName (character : Char) : Bool :=
  startsTaskName character || character = ':' || character = '.' || character = '_' ||
    character = '-'

/-- Whether a text can name a task. -/
def isTaskName (name : String) : Bool :=
  match name.toList with
  | [] => false
  | first :: rest => startsTaskName first && rest.all continuesTaskName

/-- The characters a variable's name may start with. -/
def startsVariableName (character : Char) : Bool :=
  isLetter character || character = '_'

/-- The characters a variable's name may go on with. -/
def continuesVariableName (character : Char) : Bool :=
  startsVariableName character || isDigit character

/-- Whether a text can name an environment variable. -/
def isVariableName (name : String) : Bool :=
  match name.toList with
  | [] => false
  | first :: rest => startsVariableName first && rest.all continuesVariableName

/-- A name of a variable has nothing but characters that it may go on with. -/
theorem continues_of_isVariableName {name : String} (named : isVariableName name = true) :
    ∀ character ∈ name.toList, continuesVariableName character = true := by
  unfold isVariableName at named
  split at named
  · cases named
  · rename_i first rest spelled
    obtain ⟨starts, continues⟩ := Bool.and_eq_true_iff.mp named
    rw [spelled]
    refine List.forall_mem_cons.mpr ⟨?_, List.all_eq_true.mp continues⟩
    rw [continuesVariableName, starts, Bool.true_or]

end Taskbook
