/-!
# Accounting of forwarded requests

A transport counts the requests in flight and, for the window since it was last drained, the
completed requests, the failed ones among them and the sum of their latencies. Requests that are
cancelled leave the gauge but enter no window.
-/

namespace ReverseProxy.Backend

/-- Completed requests of one window; the latency is a sum in nanoseconds. -/
structure Window where
  requests : Nat
  errors : Nat
  latency : Nat
deriving DecidableEq, Repr, Inhabited

namespace Window

def empty : Window := ⟨0, 0, 0⟩

def record (w : Window) (latency : Nat) (failed : Bool) : Window :=
  ⟨w.requests + 1, w.errors + failed.toNat, w.latency + latency⟩

def merge (v w : Window) : Window :=
  ⟨v.requests + w.requests, v.errors + w.errors, v.latency + w.latency⟩

end Window

/-- The gauge of requests in flight and the current window. -/
structure Transport where
  running : Nat
  window : Window
deriving DecidableEq, Repr, Inhabited

namespace Transport

def idle : Transport := ⟨0, .empty⟩

def start (t : Transport) : Transport := { t with running := t.running + 1 }

/-- A request in flight is dropped without an answer. -/
def cancel (t : Transport) : Transport := { t with running := t.running - 1 }

/-- A request in flight ends with an answer or a failure. It is recorded in the window and then taken
off the gauge, under the lock of the counters each time; nothing is seen of the moment between them
here. -/
def complete (t : Transport) (latency : Nat) (failed : Bool) : Transport :=
  { running := t.running - 1, window := t.window.record latency failed }

def drain (t : Transport) : Window × Transport := (t.window, { t with window := .empty })

end Transport

end ReverseProxy.Backend
