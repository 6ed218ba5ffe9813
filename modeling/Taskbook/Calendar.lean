/-
Days and moments of the Gregorian calendar.

A day has a year from 1 to 9999. A moment is a day with a time of that day to the
microsecond, and perhaps the offset of its clock from universal time in seconds. Two
moments with offsets are compared by the instant they name, two without by what their
clocks show; a moment with an offset and one without are never equal.
-/

namespace Taskbook

/-- A day of the calendar. -/
structure Day where
  year : Nat
  month : Nat
  day : Nat
  deriving DecidableEq, Repr, Inhabited

/-- A time on a day, with the clock's offset from universal time where it is known. -/
structure Moment where
  date : Day
  hour : Nat
  minute : Nat
  second : Nat
  microsecond : Nat
  offset : Option Int
  deriving DecidableEq, Repr, Inhabited

namespace Day

def isLeap (year : Nat) : Bool :=
  year % 4 = 0 && (year % 100 ≠ 0 || year % 400 = 0)

/-- The days of a month; zero for a number that is no month. -/
def daysIn (year month : Nat) : Nat :=
  match month with
  | 1 | 3 | 5 | 7 | 8 | 10 | 12 => 31
  | 4 | 6 | 9 | 11 => 30
  | 2 => if isLeap year then 29 else 28
  | _ => 0

/-- The day with the given numbers, if the calendar has it. -/
def make? (year month day : Nat) : Option Day :=
  if 1 ≤ year ∧ year ≤ 9999 ∧ 1 ≤ day ∧ day ≤ daysIn year month then some ⟨year, month, day⟩
  else none

/-- The number of days from the start of year 1 to the start of this day. -/
def ordinal (date : Day) : Nat :=
  let past := date.year - 1
  let months := (List.range (date.month - 1)).map fun index => daysIn date.year (index + 1)
  past * 365 + past / 4 - past / 100 + past / 400 + months.foldl (· + ·) 0 + (date.day - 1)

end Day

/-- A number in decimal with zeros in front up to a width. -/
def padded (width number : Nat) : String :=
  let digits := Nat.toDigits 10 number
  String.ofList (List.replicate (width - digits.length) '0' ++ digits)

/-- Year, month and day with hyphens between them. -/
def Day.text (date : Day) : String :=
  padded 4 date.year ++ "-" ++ padded 2 date.month ++ "-" ++ padded 2 date.day

namespace Moment

/-- Whether an offset, if there is one, stays below one day. -/
def offsetIsSmall : Option Int → Bool
  | none => true
  | some seconds => seconds.natAbs < 86400

/-- The moment with the given numbers, if there is one. -/
def make? (date : Day) (hour minute second microsecond : Nat) (offset : Option Int) :
    Option Moment :=
  if hour < 24 ∧ minute < 60 ∧ second < 60 ∧ microsecond < 1000000 ∧
      offsetIsSmall offset = true then
    some ⟨date, hour, minute, second, microsecond, offset⟩
  else none

/-- What the clock shows, in microseconds from the start of year 1. -/
def clock (moment : Moment) : Int :=
  let seconds := (moment.date.ordinal * 24 + moment.hour) * 3600 + moment.minute * 60 +
    moment.second
  (seconds * 1000000 + moment.microsecond : Nat)

/-- The instant that a moment with an offset names, in microseconds of universal time. -/
def instant (moment : Moment) : Int :=
  moment.clock - moment.offset.getD 0 * 1000000

/-- Whether two moments are the same point in time. -/
def same (first second : Moment) : Bool :=
  first.offset.isSome == second.offset.isSome && first.instant == second.instant

/-- An offset as a sign, hours and minutes, and seconds where there are any. -/
def offsetText (offset : Int) : String :=
  let size := offset.natAbs
  let seconds := if size % 60 = 0 then "" else ":" ++ padded 2 (size % 60)
  (if offset < 0 then "-" else "+") ++ padded 2 (size / 3600) ++ ":" ++
    padded 2 (size / 60 % 60) ++ seconds

/-- Day and time with a space between them, the fraction only where it is not zero. -/
def text (moment : Moment) : String :=
  let fraction := if moment.microsecond = 0 then "" else "." ++ padded 6 moment.microsecond
  let offset := match moment.offset with
    | none => ""
    | some seconds => offsetText seconds
  moment.date.text ++ " " ++ padded 2 moment.hour ++ ":" ++ padded 2 moment.minute ++ ":" ++
    padded 2 moment.second ++ fraction ++ offset

end Moment

end Taskbook
