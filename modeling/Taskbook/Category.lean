/-
The priority bands of tasks.

A category is written in a manifest by its code, which sorts in the order of the bands.
It may be given by its code or by its name in any case, with blanks around it.
-/

import Taskbook.Error
import Taskbook.Text.Blank
import Taskbook.Text.Capitals

namespace Taskbook

/-- The bands in order. -/
inductive Category where
  | build
  | test
  | release
  | maintain
  | misc
  deriving DecidableEq, Repr

namespace Category

/-- All bands in order. -/
def all : List Category :=
  [build, test, release, maintain, misc]

/-- How a band is written in a manifest. -/
def code : Category → String
  | build => "00.build"
  | test => "10.test"
  | release => "20.release"
  | maintain => "30.maintain"
  | misc => "99.misc"

def name : Category → String
  | build => "build"
  | test => "test"
  | release => "release"
  | maintain => "maintain"
  | misc => "misc"

/-- The name in capitals. -/
def capitals : Category → String
  | build => "BUILD"
  | test => "TEST"
  | release => "RELEASE"
  | maintain => "MAINTAIN"
  | misc => "MISC"

/-- The place of a band. -/
def rank : Category → Nat
  | build => 0
  | test => 1
  | release => 2
  | maintain => 3
  | misc => 4

/-- Whether a token is the code of a band or its name in any case. -/
def accepts (category : Category) (token : String) : Bool :=
  token = category.code || Text.capitalize token = category.capitals

/-- The band that a value names; null names none. -/
def parse (given : Value) : Except Error (Option Category) :=
  if given.isNull then .ok none
  else do
    let token := Text.strip (← given.text)
    match all.find? (·.accepts token) with
    | some category => return some category
    | none => throw (.category given)

/-- The place of a task's band among the bands, after all of them if it has none. -/
def rankOf : Option Category → Nat
  | some category => category.rank
  | none => all.length

/-- How a task's band is shown. -/
def label : Option Category → String
  | some category => category.name
  | none => "-"

/-- The style that a task's band is shown in. -/
def style : Option Category → String
  | some build => "bold cyan"
  | some test => "green"
  | some release => "bold magenta"
  | some maintain => "yellow"
  | some misc => "dim"
  | none => "white"

/-- A task's band as a value of a manifest. -/
def toValue : Option Category → Value
  | some category => .str category.code
  | none => .null

end Category

end Taskbook
