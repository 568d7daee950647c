/-!
# The proleptic Gregorian calendar

Days are counted from 1970-01-01. Years are unbounded here; year 0 precedes year 1. The 400-year
cycle has 146097 days, and a year is taken to begin in March, so that the leap day comes last.
-/
namespace FaultDrill.Calendar

/-- A date. -/
structure Date where
  year : Int
  month : Nat
  day : Nat
  deriving DecidableEq, Repr

/-- Whether a year has a leap day. -/
def isLeap (y : Int) : Bool := y % 4 == 0 && (y % 100 != 0 || y % 400 == 0)

/-- Days in a month. -/
def monthLength (y : Int) (m : Nat) : Nat :=
  if m = 2 then (if isLeap y then 29 else 28)
  else if m = 4 || m = 6 || m = 9 || m = 11 then 30
  else 31

/-- Whether a date is in the calendar. -/
def Date.valid (d : Date) : Bool :=
  1 ≤ d.month && d.month ≤ 12 && 1 ≤ d.day && d.day ≤ monthLength d.year d.month

/-- Days from 1970-01-01 to a date. -/
def dayNumber (d : Date) : Int :=
  let y := if d.month ≤ 2 then d.year - 1 else d.year
  let era := y / 400
  let yearOfEra := y % 400
  let m : Int := ((d.month + 9) % 12 : Nat)
  let dayOfYear := (153 * m + 2) / 5 + d.day - 1
  let dayOfEra := yearOfEra * 365 + yearOfEra / 4 - yearOfEra / 100 + dayOfYear
  era * 146097 + dayOfEra - 719468

/-- The date that lies a number of days after 1970-01-01. -/
def dateOf (n : Int) : Date :=
  let z := n + 719468
  let era := z / 146097
  let doe := (z % 146097).toNat
  let yoe := (doe - doe / 1460 + doe / 36524 - doe / 146096) / 365
  let doy := doe - (365 * yoe + yoe / 4 - yoe / 100)
  let mp := (5 * doy + 2) / 153
  let day := doy - (153 * mp + 2) / 5 + 1
  let month := if mp < 10 then mp + 3 else mp - 9
  let year : Int := era * 400 + yoe
  ⟨if month ≤ 2 then year + 1 else year, month, day⟩

/-- The first and the last year that an instant may lie in. -/
def firstYear : Int := -262143
/-- The last year that an instant may lie in. -/
def lastYear : Int := 262142

/-- The first day that an instant may lie in. -/
def firstDay : Int := dayNumber ⟨firstYear, 1, 1⟩
/-- The last day that an instant may lie in. -/
def lastDay : Int := dayNumber ⟨lastYear, 12, 31⟩

end FaultDrill.Calendar
