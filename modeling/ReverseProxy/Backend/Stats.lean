import ReverseProxy.Average
import ReverseProxy.Backend.Transport

/-!
# Health and performance of a backend

Probes move the health flag with hysteresis: it takes more than `maxFailures` failed probes in a
row to eject a backend and one successful probe to readmit it. Windows of request accounting are
folded into two rolling averages.
-/

namespace ReverseProxy.Backend

open Scalar

/-- A healthy backend is ejected once more than this many probes failed in a row. -/
def maxFailures : Nat := 5

def failureRateAge : Nat := 10

/-- Health flag, streak of failed probes, and rolling averages of one backend. -/
structure Stats (α : Type) where
  healthy : Bool
  failures : Nat
  latency : Average α
  failureRate : Average α

namespace Stats

variable {α : Type} [Scalar α]

/-- Statistics of a backend without samples; `span` is the age of the latency average. -/
def initial (span : Nat) (healthy : Bool) : Stats α :=
  { healthy, failures := 0
    latency := .ofAge (ofNat span)
    failureRate := .ofAge (ofNat failureRateAge) }

/-- The smallest elapsed time that a latency is divided by, 2^-52 seconds. -/
def elapsedFloor : α := ofNat 1 / ofNat 4503599627370496

/-- Folds one window in. Latency is relative: summed round-trip time per elapsed second and
request. A window without requests counts as two samples of zero. -/
def recordWindow (s : Stats α) (w : Window) (elapsed : Nat) : Stats α :=
  if w.requests = 0 then
    { s with latency := s.latency.add (ofNat 0), failureRate := s.failureRate.add (ofNat 0) }
  else
    let requests : α := ofNat w.requests
    let span := raiseTo elapsedFloor (secondsOfNanos elapsed)
    { s with
      latency := s.latency.add (secondsOfNanos w.latency / span / requests)
      failureRate := s.failureRate.add (ofNat w.errors / requests) }

/-- Applies one probe and tells the new health flag if it changed. -/
def recordProbe (s : Stats α) (success : Bool) : Option Bool × Stats α :=
  let failures := if success then 0 else s.failures + 1
  if s.healthy && failures > maxFailures then
    (some false, { s with healthy := false, failures })
  else if !s.healthy && failures = 0 then
    (some true, { s with healthy := true, failures })
  else
    (none, { s with failures })

def setHealthy (s : Stats α) (healthy : Bool) : Stats α := { s with healthy, failures := 0 }

end Stats

end ReverseProxy.Backend
