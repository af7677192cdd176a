/-!
# The Gregorian calendar

Dates of the proleptic Gregorian calendar and the number of days from 1970-01-01. The conversion
counts years from March, so that a leap day is the last day of its year, and splits the days into
cycles of 400, 100, 4 years and one year.
-/

namespace ReverseProxy.Time

def isLeapYear (year : Int) : Bool :=
  year % 4 = 0 && (year % 100 ≠ 0 || year % 400 = 0)

/-- Days in a month; zero for a number that is no month. -/
def daysInMonth (year : Int) (month : Nat) : Nat :=
  if month = 2 then (if isLeapYear year then 29 else 28)
  else if month ∈ [4, 6, 9, 11] then 30
  else if 1 ≤ month && month ≤ 12 then 31
  else 0

structure Date where
  year : Int
  month : Nat
  day : Nat
deriving DecidableEq, Repr, Inhabited

namespace Date

def isValid (d : Date) : Bool := 1 ≤ d.day && d.day ≤ daysInMonth d.year d.month

/-- Days before the month that comes `m` months after March, counted from 1 March. -/
def daysBeforeMonth (m : Nat) : Nat := (153 * m + 2) / 5

def epochDays : Int := 719468

def toDays (d : Date) : Int :=
  let y := if d.month ≤ 2 then d.year - 1 else d.year
  let m := if d.month ≤ 2 then d.month + 9 else d.month - 3
  365 * y + y / 4 - y / 100 + y / 400 + daysBeforeMonth m + d.day - 1 - epochDays

/-- The date that many days after 1970-01-01. -/
def ofDays (n : Int) : Date :=
  let n := n + epochDays
  let inEra := (n % 146097).toNat
  let centuries := min (inEra / 36524) 3
  let inCentury := inEra - centuries * 36524
  let leaps := inCentury / 1461
  let inLeap := inCentury % 1461
  let years := min (inLeap / 365) 3
  let inYear := inLeap - years * 365
  let m := (5 * inYear + 2) / 153
  let y := n / 146097 * 400 + (centuries * 100 + leaps * 4 + years : Nat)
  { year := if m < 10 then y else y + 1
    month := if m < 10 then m + 3 else m - 9
    day := inYear - daysBeforeMonth m + 1 }

end Date

end ReverseProxy.Time
