/-!
# Dates and instants

Days of the Gregorian calendar, counted from 1970, and instants in universal time. A leap second is
the second before it with more than a thousand million nanoseconds.
-/

namespace Playtest.Calendar

/-- Whether a year has a 29th of February. -/
def isLeapYear (year : Int) : Bool := year % 4 == 0 && (year % 100 != 0 || year % 400 == 0)

/-- How many days a month has. -/
def daysInMonth (year : Int) (month : Nat) : Nat :=
  if month = 2 then if isLeapYear year then 29 else 28
  else if month = 4 ∨ month = 6 ∨ month = 9 ∨ month = 11 then 30
  else 31

/-- How many days lie before a month of a year that begins in March. -/
def daysBeforeMonth (fromMarch : Nat) : Nat := (153 * fromMarch + 2) / 5

/-- The day of a date, counted from the first of January 1970. Years are taken from March on, so
that the day that is sometimes missing is the last one. -/
def dayNumber (year : Int) (month day : Nat) : Int :=
  let y := if month ≤ 2 then year - 1 else year
  let m := (month + 9) % 12
  365 * y + y / 4 - y / 100 + y / 400 + daysBeforeMonth m + day - 1 - 719468

/-- The first and the last year that dates can have. -/
def yearRange : Int × Int := (-262143, 262142)

/-- The day of a date, if there is such a date. -/
def dayNumber? (year : Int) (month day : Nat) : Option Int :=
  if yearRange.1 ≤ year ∧ year ≤ yearRange.2 ∧ 1 ≤ month ∧ month ≤ 12 ∧ 1 ≤ day
      ∧ day ≤ daysInMonth year month then
    some (dayNumber year month day)
  else none

/-- An **instant**: seconds since 1970 and nanoseconds after that. -/
structure Instant where
  seconds : Int
  nanoseconds : Nat
  deriving Repr, DecidableEq

namespace Instant

/-- The beginning of 1970. -/
def epoch : Instant := ⟨0, 0⟩

/-- Whether an instant is not later than another. -/
def notAfter (a b : Instant) : Bool :=
  a.seconds < b.seconds || (a.seconds == b.seconds && a.nanoseconds ≤ b.nanoseconds)

/-- The first and the last second that instants can have. -/
def secondRange : Int × Int :=
  (dayNumber yearRange.1 1 1 * 86400, dayNumber yearRange.2 12 31 * 86400 + 86399)

/-- The instant some milliseconds later, if it can be represented. -/
def addMilliseconds? (t : Instant) (ms : Int) : Option Instant :=
  let total := (t.seconds * 1000000000 + t.nanoseconds) + ms * 1000000
  let seconds := total / 1000000000
  if secondRange.1 ≤ seconds ∧ seconds ≤ secondRange.2 then
    some ⟨seconds, (total % 1000000000).toNat⟩
  else none

end Instant

end Playtest.Calendar
