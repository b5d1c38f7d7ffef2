/-!
# The calendar

Days of the proleptic Gregorian calendar, counted from the first day of the year 1.

## Main definitions

* `Calendar.ordinal` — the number of a day, the first of all being 1.
* `Calendar.weekOrdinal?` — the number of a day given by its week.
-/

namespace NodeKeeper.Calendar

/-- A year with a 29th of February. -/
def isLeap (year : Nat) : Bool := year % 4 == 0 && (year % 100 != 0 || year % 400 == 0)

/-- How many days a month has. -/
def daysInMonth (year month : Nat) : Nat :=
  if month = 2 then if isLeap year then 29 else 28
  else if [4, 6, 9, 11].contains month then 30
  else 31

/-- How many days lie before a year, which is at least 1. -/
def daysBeforeYear (year : Nat) : Nat :=
  let y := year - 1
  y * 365 + y / 4 - y / 100 + y / 400

/-- How many days of a year lie before a month. -/
def daysBeforeMonth (year month : Nat) : Nat :=
  (List.range (month - 1)).foldl (fun days m => days + daysInMonth year (m + 1)) 0

/-- The number of a day. -/
def ordinal (year month day : Nat) : Nat :=
  daysBeforeYear year + daysBeforeMonth year month + day

/-- The number of the last day of the year 9999. -/
def lastOrdinal : Nat := ordinal 9999 12 31

/-- The number of the day from which epoch seconds are counted. -/
def epochOrdinal : Nat := ordinal 1970 1 1

/-- The weekday of a day, Monday being 0. -/
def weekday (day : Nat) : Nat := (day + 6) % 7

/-- A year has a 53rd week if it begins on a Thursday, or if it is a leap year that begins on a
Wednesday. -/
def hasWeek53 (year : Nat) : Bool :=
  let first := weekday (ordinal year 1 1)
  first == 3 || (first == 2 && isLeap year)

/-- The Monday of the first week of a year, which is the week that holds its first Thursday. -/
def firstMonday (year : Nat) : Int :=
  let first := ordinal year 1 1
  let back := weekday first
  if 3 < back then (first : Int) - back + 7 else (first : Int) - back

/-- The number of a day given by its week and its place in it, both from 1, if there is such a
week. -/
def weekOrdinal? (year week day : Nat) : Option Int :=
  let weekExists := 1 ≤ week && (week ≤ 52 || (week == 53 && hasWeek53 year))
  if weekExists && 1 ≤ day && day ≤ 7 then
    some (firstMonday year + (week - 1) * 7 + (day - 1))
  else none

end NodeKeeper.Calendar
