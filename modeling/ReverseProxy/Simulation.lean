import ReverseProxy.Fleet

/-!
# Simulated time

A simulation runs the monitors of a fleet on a clock that moves only when told to. Probes are
answered by a script that says, for each URL, after what time and with what status; status zero
stands for a failed connection. Requests are timed by a second clock, which can be moved without
waking a monitor. All times are nanoseconds.
-/

namespace ReverseProxy

/-- How probes of a URL are answered. -/
structure ScriptedAnswer where
  status : Nat
  delay : Nat
deriving DecidableEq, Repr

/-- The answer of URLs that the script does not mention. -/
def ScriptedAnswer.default : ScriptedAnswer := ⟨200, 0⟩

/-- A number outside the range of statuses is no answer, and zero no connection. -/
def ScriptedAnswer.outcome (a : ScriptedAnswer) : Http.Outcome Http.Status :=
  match Http.Status.ofNat? a.status with
  | some s => .ok s
  | none => .error (if a.status = 0 then .connection "refused" else .invalidRequest "status")

structure SentProbe where
  time : Nat
  url : String
  timeout : Duration
deriving DecidableEq

namespace SentProbe

def precedes (a b : SentProbe) : Bool :=
  if a.time ≠ b.time then a.time < b.time
  else if a.url ≠ b.url then a.url < b.url
  else a.timeout.nanos ≤ b.timeout.nanos

end SentProbe

/-- An answer that is on its way. -/
structure PendingAnswer where
  backend : Handle
  time : Nat
  outcome : Http.Outcome Http.Status

structure Flight where
  backend : Handle
  started : Nat
deriving DecidableEq, Repr

/-- A fleet with its clocks and the script of its probes. -/
structure Simulation where
  fleet : Fleet := {}
  now : Nat := 0
  requestClock : Nat := 0
  script : List (String × ScriptedAnswer) := []
  pending : List PendingAnswer := []
  /-- The probes sent so far that nobody has asked for yet. -/
  sent : List SentProbe := []

namespace Simulation

def answerProbes (s : Simulation) (url : String) (a : ScriptedAnswer) : Simulation :=
  { s with script := (url, a) :: s.script.filter (·.1 ≠ url) }

def answerOf (s : Simulation) (url : String) : ScriptedAnswer :=
  ((s.script.find? (·.1 = url)).map (·.2)).getD .default

def pendingOf (s : Simulation) (h : Handle) : Option PendingAnswer :=
  s.pending.find? (·.backend = h)

def dueTime? (s : Simulation) (h : Handle) : Option Nat := do
  let m ← (← s.fleet.get? h).monitor
  match m.phase with
  | .waiting => some (max m.deadline s.now)
  | .probing => (s.pendingOf h).map (·.time)

def next? (s : Simulation) (until_ : Nat) : Option (Nat × Handle) :=
  let due := (List.range s.fleet.backends.length).filterMap fun h => (s.dueTime? h).map (·, h)
  due.foldl (fun best d =>
    if d.1 ≤ until_ && (best.all fun (b : Nat × Handle) => d.1 < b.1) then some d else best) none

def beginCycle (s : Simulation) (h : Handle) : Simulation :=
  let s := { s with fleet := s.fleet.beginCycle h s.now }
  match s.fleet.get? h with
  | some b =>
    if b.monitor.any (·.phase = .probing) then
      let a := s.answerOf b.healthUrl
      { s with
        sent := s.sent ++ [⟨s.now, b.healthUrl, b.probeTimeout⟩]
        pending := s.pending ++ [⟨h, s.now + a.delay, a.outcome⟩] }
    else s
  | none => s

def deliver (s : Simulation) (h : Handle) : Simulation :=
  match s.pendingOf h with
  | some a =>
    { s with
      fleet := s.fleet.endCycle h a.outcome
      pending := s.pending.filter (·.backend ≠ h) }
  | none => s

def step (s : Simulation) (time : Nat) (h : Handle) : Simulation :=
  let s := { s with now := time }
  if ((s.fleet.get? h).bind (·.monitor)).any (·.phase = .probing) then s.deliver h
  else s.beginCycle h

def run (until_ : Nat) : Nat → Simulation → Simulation
  | 0, s => s
  | fuel + 1, s =>
    match s.next? until_ with
    | some (time, h) => run until_ fuel (s.step time h)
    | none => s

/-- A bound on the steps of all monitors within a time: two for every cycle, and cycles are at least
half a period apart. -/
def stepBound (s : Simulation) (time : Nat) : Nat :=
  s.fleet.backends.length * (2 * (time / (Backend.Monitor.period / 2)) + 4)

def advance (s : Simulation) (time : Nat) : Simulation :=
  let until_ := s.now + time
  { s.run until_ (s.stepBound time) with
    now := until_, requestClock := s.requestClock + time }

def moveRequestClock (s : Simulation) (time : Nat) : Simulation :=
  { s with requestClock := s.requestClock + time }

def takeSent (s : Simulation) : List SentProbe × Simulation :=
  (s.sent.mergeSort SentProbe.precedes, { s with sent := [] })

/-! ## Requests -/

def startRequest (s : Simulation) (h : Handle) : Flight × Simulation :=
  (⟨h, s.requestClock⟩, { s with fleet := s.fleet.update h (·.startRequest) })

/-- A request in flight comes to its outcome. -/
def finishRequest (s : Simulation) (r : Flight) (outcome : Http.Outcome Http.Status) : Simulation :=
  { s with
    fleet := s.fleet.update r.backend (·.completeRequest (s.requestClock - r.started) outcome) }

def cancelRequest (s : Simulation) (r : Flight) : Simulation :=
  { s with fleet := s.fleet.update r.backend (·.cancelRequest) }

def roundTrip (s : Simulation) (h : Handle) (latency : Nat) (outcome : Http.Outcome Http.Status) :
    Simulation :=
  let (r, s) := s.startRequest h
  (s.moveRequestClock latency).finishRequest r outcome

/-- Stops the monitors of backends that nothing refers to any more: that are not among the given
ones and have no request in flight. -/
def dropUnreferenced (s : Simulation) (kept : List Handle) : Simulation :=
  let idle := (List.range s.fleet.backends.length).filter fun h =>
    !kept.contains h && (s.fleet.get? h).any (·.connections = 0)
  { s with fleet := s.fleet.closeAll idle }

end Simulation

end ReverseProxy
