import ReverseProxy.Time.Calendar

/-!
# Moments in universal time

A moment is a number of seconds since 1970-01-01T00:00:00Z and nanoseconds within the second. A
leap second is a second continued past 10^9 nanoseconds. Any second can be, as clocks may be off
universal time by some seconds; but a moment that is made from a count of seconds or read from a text
has its leap second at the end of a minute.
-/

namespace ReverseProxy.Time

/-- The first second of the year -262143. -/
def Timestamp.first : Int := Date.toDays ⟨-262143, 1, 1⟩ * 86400

/-- The last second of the year 262142. -/
def Timestamp.last : Int := Date.toDays ⟨262142, 12, 31⟩ * 86400 + 86399

/-- A moment in universal time, to the nanosecond. -/
structure Timestamp where
  secs : Int
  nanos : Nat
  inRange : Timestamp.first ≤ secs ∧ secs ≤ Timestamp.last
  inSecond : nanos < 2000000000
deriving DecidableEq

namespace Timestamp

def ofUnix? (secs : Int) (nanos : Nat) : Option Timestamp :=
  if hr : first ≤ secs ∧ secs ≤ last then
    if hs : nanos < 1000000000 ∨ (nanos < 2000000000 ∧ secs % 60 = 59) then
      some ⟨secs, nanos, hr, by omega⟩
    else none
  else none

def date (t : Timestamp) : Date := .ofDays (t.secs / 86400)

def secondOfDay (t : Timestamp) : Nat := (t.secs % 86400).toNat

def isLeap (t : Timestamp) : Bool := 1000000000 ≤ t.nanos

end Timestamp

/-- Hours, minutes, seconds and nanoseconds; second 60 is a leap second. -/
structure ClockTime where
  hour : Nat
  minute : Nat
  second : Nat
  nanos : Nat
deriving DecidableEq, Repr, Inhabited

namespace ClockTime

def isValid (t : ClockTime) : Bool :=
  t.hour ≤ 23 && t.minute ≤ 59 && t.second ≤ 60 && t.nanos < 1000000000

end ClockTime

namespace Timestamp

/-- The clock time of the moment. A leap second reads as the second after the one it continues, so
60 at the end of a minute. -/
def clock (t : Timestamp) : ClockTime :=
  let s := t.secondOfDay
  { hour := s / 3600, minute := s / 60 % 60
    second := s % 60 + (if t.isLeap then 1 else 0)
    nanos := t.nanos % 1000000000 }

/-- The moment at which clocks `offset` minutes ahead of universal time show that date and time. -/
def ofLocal? (d : Date) (t : ClockTime) (offset : Int) : Option Timestamp :=
  if d.isValid && t.isValid then
    let leap := t.second = 60
    let second := if leap then 59 else t.second
    ofUnix? (d.toDays * 86400 + t.hour * 3600 + t.minute * 60 + second - offset * 60)
      (t.nanos + if leap then 1000000000 else 0)
  else none

end Timestamp

end ReverseProxy.Time
