import ReverseProxy.Number

/-!
# Lengths of time

A duration counts nanoseconds and stays below 2^64 seconds, the range that configuration files and
timers share.
-/

namespace ReverseProxy

def nanosPerSecond : Nat := 1000000000

/-- The first number of nanoseconds that is no duration: 2^64 seconds. -/
def Duration.limit : Nat := wordLimit * nanosPerSecond

/-- A length of time in nanoseconds, below 2^64 seconds. -/
structure Duration where
  nanos : Nat
  nanos_lt : nanos < Duration.limit
deriving DecidableEq

namespace Duration

/-- The duration of that many nanoseconds, if it is in range. -/
def ofNanos? (n : Nat) : Option Duration :=
  if h : n < limit then some ⟨n, h⟩ else none

def ofNanosCapped (n : Nat) : Duration :=
  if h : n < limit then ⟨n, h⟩ else ⟨limit - 1, by decide⟩

def ofMillisCapped (n : Nat) : Duration := ofNanosCapped (n * 1000000)

def seconds (d : Duration) : Nat := d.nanos / nanosPerSecond

def subsecNanos (d : Duration) : Nat := d.nanos % nanosPerSecond

def millis (d : Duration) : Nat := d.nanos / 1000000

def isZero (d : Duration) : Bool := d.nanos = 0

def zero : Duration := ⟨0, by decide⟩

def oneSecond : Duration := ⟨nanosPerSecond, by decide⟩

instance : Inhabited Duration := ⟨zero⟩

theorem ofNanos?_nanos (d : Duration) : ofNanos? d.nanos = some d := by
  simp [ofNanos?, d.nanos_lt]

end Duration

end ReverseProxy
