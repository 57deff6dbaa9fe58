/-!
Dates of the Gregorian calendar, extended to all years, and their numbering by days. Years are
counted from March inside the numbering, so that the leap day is the last day of a year.
-/

namespace Vetting

/-- A day of the calendar; day 0 is 1970-01-01. -/
structure Date where
  year : Int
  month : Nat
  day : Nat
  deriving DecidableEq, Repr

namespace Date

def isLeap (year : Int) : Bool := year % 4 = 0 && (year % 100 ≠ 0 || year % 400 = 0)

def daysInMonth (year : Int) (month : Nat) : Nat :=
  if month = 2 then (if isLeap year then 29 else 28)
  else if month = 4 ∨ month = 6 ∨ month = 9 ∨ month = 11 then 30
  else 31

/-- The years that can be written in a date. -/
def minYear : Int := -262143

def maxYear : Int := 262142

def IsValid (d : Date) : Prop :=
  minYear ≤ d.year ∧ d.year ≤ maxYear ∧ 1 ≤ d.month ∧ d.month ≤ 12 ∧
    1 ≤ d.day ∧ d.day ≤ daysInMonth d.year d.month

instance (d : Date) : Decidable d.IsValid := by unfold IsValid; infer_instance

/-- Days in 400 years. -/
def eraDays : Int := 146097

/-- Days from 0000-03-01 to 1970-01-01. -/
def epochOffset : Int := 719468

/-- The first day of a month in a year that starts in March; March is month 0. -/
def monthStart (m : Nat) : Nat := (153 * m + 2) / 5

/-- The number of a day. -/
def toDays (d : Date) : Int :=
  let y := if d.month ≤ 2 then d.year - 1 else d.year
  let m := if d.month ≤ 2 then d.month + 9 else d.month - 3
  let era := y.fdiv 400
  let yearOfEra := y - era * 400
  era * eraDays + yearOfEra * 365 + yearOfEra.fdiv 4 - yearOfEra.fdiv 100 +
    (monthStart m + d.day : Nat) - 1 - epochOffset

/-- The day of a number. -/
def ofDays (n : Int) : Date :=
  let z := n + epochOffset
  let era := z.fdiv eraDays
  let dayOfEra := (z - era * eraDays).toNat
  let century := min (dayOfEra / 36524) 3
  let dayOfCentury := dayOfEra - century * 36524
  let cycle := dayOfCentury / 1461
  let dayOfCycle := dayOfCentury - cycle * 1461
  let yearOfCycle := min (dayOfCycle / 365) 3
  let dayOfYear := dayOfCycle - yearOfCycle * 365
  let y := era * 400 + (century * 100 + cycle * 4 + yearOfCycle : Nat)
  let m := (5 * dayOfYear + 2) / 153
  let day := dayOfYear - monthStart m + 1
  if m < 10 then ⟨y, m + 3, day⟩ else ⟨y + 1, m - 9, day⟩

end Date

end Vetting
