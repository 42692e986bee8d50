/-!
# Timestamps

A timestamp is what a calendar and a wall clock show, in microseconds, together with the offset of that clock
from universal time. A store may keep timestamps without their offset. Two timestamps with offsets are
compared as instants.

Days are counted with the proleptic Gregorian calendar in years that start in March, so that the leap day is
the last day of a year; an era is 400 such years.
-/
namespace ReviewDesk

/-- A calendar date. -/
structure Date where
  year : Int
  month : Int
  day : Int
  deriving Repr, DecidableEq

namespace Date

/-- Days from 1 January 1970 to the date. -/
def toDays (d : Date) : Int :=
  let y := if d.month ≤ 2 then d.year - 1 else d.year
  let era := y / 400
  let yearOfEra := y - era * 400
  let monthFromMarch := (d.month + 9) % 12
  let dayOfYear := (153 * monthFromMarch + 2) / 5 + d.day - 1
  let dayOfEra := yearOfEra * 365 + yearOfEra / 4 - yearOfEra / 100 + dayOfYear
  era * 146097 + dayOfEra - 719468

/-- Days from 1 January 1970 to a day of a week, both numbered from 1. The first week of a year is the one with
4 January in it, and weeks begin on Monday. -/
def daysOfWeek (year week day : Int) : Int :=
  let fourth := toDays ⟨year, 1, 4⟩
  fourth - (fourth + 3) % 7 + (week - 1) * 7 + (day - 1)

/-- The date that many days after 1 January 1970. -/
def ofDays (days : Int) : Date :=
  let z := days + 719468
  let era := z / 146097
  let dayOfEra := z - era * 146097
  let yearOfEra := (dayOfEra - dayOfEra / 1460 + dayOfEra / 36524 - dayOfEra / 146096) / 365
  let dayOfYear := dayOfEra - (365 * yearOfEra + yearOfEra / 4 - yearOfEra / 100)
  let monthFromMarch := (5 * dayOfYear + 2) / 153
  let day := dayOfYear - (153 * monthFromMarch + 2) / 5 + 1
  let month := if monthFromMarch < 10 then monthFromMarch + 3 else monthFromMarch - 9
  let year := yearOfEra + era * 400 + (if month ≤ 2 then 1 else 0)
  ⟨year, month, day⟩

/-- The number of days of a month. -/
def daysIn (year month : Int) : Int :=
  (if month = 12 then toDays ⟨year + 1, 1, 1⟩ else toDays ⟨year, month + 1, 1⟩) - toDays ⟨year, month, 1⟩

/-- Whether a year has a week of that number. -/
def hasWeek (year week : Int) : Bool := 1 ≤ week && daysOfWeek year week 1 < daysOfWeek (year + 1) 1 1

example : toDays ⟨1970, 1, 1⟩ = 0 := by decide
example : ofDays (toDays ⟨2024, 2, 29⟩) = ⟨2024, 2, 29⟩ := by decide
example : ofDays (-1) = ⟨1969, 12, 31⟩ := by decide
example : ofDays (daysOfWeek 2020 53 7) = ⟨2021, 1, 3⟩ := by decide
example : daysIn 2024 2 = 29 ∧ daysIn 2100 2 = 28 ∧ daysIn 2023 12 = 31 := by decide
example : hasWeek 2020 53 = true ∧ hasWeek 2024 53 = false := by decide

end Date

/-- A reading of a wall clock in microseconds since midnight of 1 January 1970 on that clock, and the
offset of the clock from universal time, in microseconds to the east, where it is known. -/
structure Timestamp where
  wall : Int
  offset : Option Int
  deriving Repr, DecidableEq

namespace Timestamp

/-- Whether the year of a reading is one from 1 to 9999. -/
def isOnCalendar (t : Timestamp) : Bool :=
  Date.toDays ⟨1, 1, 1⟩ * 86400000000 ≤ t.wall && t.wall < Date.toDays ⟨10000, 1, 1⟩ * 86400000000

/-- The same reading with the offset forgotten. -/
def wallOnly (t : Timestamp) : Timestamp := ⟨t.wall, none⟩

/-- Microseconds of universal time. -/
def instant (t : Timestamp) : Int := t.wall - t.offset.getD 0

/-- An instant on a clock that shows universal time. -/
def ofInstant (i : Int) : Timestamp := ⟨i, some 0⟩

@[simp] theorem instant_ofInstant (i : Int) : (ofInstant i).instant = i := by
  simp [ofInstant, instant]

/-- At least `width` decimal digits, with zeros in front. -/
def padded (width : Nat) (n : Int) : String :=
  let digits := Nat.toDigits 10 n.toNat
  String.ofList (List.replicate (width - digits.length) '0' ++ digits)

/-- Date, `T`, time of day, and six digits of a second's fraction unless it is zero. -/
def wallText (t : Timestamp) : String :=
  let date := Date.ofDays (t.wall / 86400000000)
  let time := t.wall % 86400000000
  let seconds := time / 1000000
  let fraction := time % 1000000
  padded 4 date.year ++ "-" ++ padded 2 date.month ++ "-" ++ padded 2 date.day ++ "T" ++
    padded 2 (seconds / 3600) ++ ":" ++ padded 2 (seconds / 60 % 60) ++ ":" ++ padded 2 (seconds % 60) ++
    (if fraction = 0 then "" else "." ++ padded 6 fraction)

/-- A signed offset in hours and minutes, with seconds and six digits of a second's fraction where there are
any. -/
def offsetText (offset : Int) : String :=
  let n : Int := offset.natAbs
  let seconds := n / 1000000
  let fraction := n % 1000000
  (if offset < 0 then "-" else "+") ++ padded 2 (seconds / 3600) ++ ":" ++ padded 2 (seconds / 60 % 60) ++
    (if seconds % 60 = 0 ∧ fraction = 0 then "" else ":" ++ padded 2 (seconds % 60)) ++
    (if fraction = 0 then "" else "." ++ padded 6 fraction)

/-- The ISO form with a numeric offset. -/
def isoText (t : Timestamp) : String :=
  t.wallText ++ (match t.offset with | none => "" | some o => offsetText o)

/-- An offset in whole seconds, a half being rounded away from zero. -/
def wholeSeconds (offset : Int) : Int :=
  let seconds : Int := (offset.natAbs + 500000) / 1000000
  if offset < 0 then -seconds else seconds

/-- The sign, hours and minutes of an offset in seconds. -/
def shortOffsetText (seconds : Int) : String :=
  let minutes : Int := seconds.natAbs / 60
  (if seconds < 0 then "-" else "+") ++ padded 2 (minutes / 60) ++ ":" ++ padded 2 (minutes % 60)

/-- The ISO form in which universal time is marked `Z` and other offsets, rounded to seconds, show no more than
hours and minutes. -/
def zuluText (t : Timestamp) : String :=
  t.wallText ++ (match t.offset with
    | none => ""
    | some o => if wholeSeconds o = 0 then "Z" else shortOffsetText (wholeSeconds o))

example : isoText ⟨1709170200250000, some 20700000000⟩ = "2024-02-29T01:30:00.250000+05:45" := by decide +kernel
example : zuluText ⟨1709170200000000, some (-59500000)⟩ = "2024-02-29T01:30:00-00:01" := by decide +kernel
example : zuluText ⟨-1000000, some 0⟩ = "1969-12-31T23:59:59Z" := by decide +kernel

end Timestamp
end ReviewDesk
