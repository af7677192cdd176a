/-!
# Coalescing changes

Whoever waits for changes is told of them once they have been quiet for a while. A change that
comes while nobody waits, or while more changes may follow, is remembered; one such change stands
for any number of them. Times are in microseconds.
-/

namespace ReverseProxy.Watch

/-- How long a change may be followed by others that are reported together with it. -/
def quietPeriod : Nat := 250000

/-- What whoever waits for changes is about. -/
inductive Phase
  | idle
  | waiting
  /-- Something has happened, and more may follow until then. -/
  | settling (until_ : Nat)
deriving DecidableEq, Repr

/-- A phase with the memory of a change. -/
structure Debouncer where
  pending : Bool := false
  phase : Phase := .idle
deriving DecidableEq, Repr

namespace Debouncer

def notify (d : Debouncer) (now : Nat) : Debouncer :=
  match d.phase with
  | .waiting => { d with phase := .settling (now + quietPeriod) }
  | .idle | .settling _ => { d with pending := true }

/-- Somebody begins to wait. A change that is remembered counts as happening now. -/
def listen (d : Debouncer) (now : Nat) : Debouncer :=
  match d.phase with
  | .idle =>
    if d.pending then { pending := false, phase := .settling (now + quietPeriod) }
    else { d with phase := .waiting }
  | .waiting | .settling _ => d

def dueTime? (d : Debouncer) : Option Nat :=
  match d.phase with
  | .settling t => some t
  | .idle | .waiting => none

/-- The wait is over; what has happened meanwhile is covered by it. -/
def report (_ : Debouncer) : Debouncer := { pending := false, phase := .idle }

def abandon (d : Debouncer) : Debouncer := { d with phase := .idle }

end Debouncer

end ReverseProxy.Watch
