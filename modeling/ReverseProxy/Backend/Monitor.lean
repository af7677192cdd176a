import ReverseProxy.Duration

/-!
# Monitors

A monitor runs a cycle each second: it folds a window of accounting into the statistics and, if
there is a health URL, sends a probe and waits for its answer. A cycle that comes late is run at
once, and the next one is due a full period after it; delays up to `tolerance` do not count as
late. All times are nanoseconds.
-/

namespace ReverseProxy.Backend

inductive Phase
  | waiting
  | probing
deriving DecidableEq, Repr

structure Monitor where
  phase : Phase
  deadline : Nat
  /-- When the last cycle began; at first, when the monitor was created. -/
  cycleStart : Nat
  stopsOnShutdown : Bool
deriving DecidableEq, Repr

namespace Monitor

def period : Nat := nanosPerSecond

/-- The delay that does not count as late. -/
def tolerance : Nat := 5000000

/-- A monitor created now: its first cycle is due one period later. -/
def create (now : Nat) (stopsOnShutdown : Bool) : Monitor :=
  { phase := .waiting, deadline := now + period, cycleStart := now, stopsOnShutdown }

/-- When the cycle after one that was due at `deadline` and begins now is due. -/
def nextDeadline (deadline now : Nat) : Nat :=
  if now > deadline + tolerance then now + period else deadline + period

def beginCycle (m : Monitor) (now : Nat) (probes : Bool) : Monitor :=
  { m with
    phase := if probes then .probing else .waiting
    deadline := nextDeadline m.deadline now
    cycleStart := now }

def elapsed (m : Monitor) (now : Nat) : Nat := now - m.cycleStart

def endCycle (m : Monitor) : Monitor := { m with phase := .waiting }

/-- Whether the monitor stops, given whether shutdown has begun. It looks only between cycles. -/
def stops (m : Monitor) (shuttingDown : Bool) : Bool :=
  shuttingDown && m.stopsOnShutdown && m.phase = .waiting

end Monitor

end ReverseProxy.Backend
