import ReverseProxy.Backend.Monitor
import ReverseProxy.Backend.Stats
import ReverseProxy.Droplet
import ReverseProxy.Http.Outcome
import ReverseProxy.Net.Url

/-!
# Backends

A backend is a host that requests are forwarded to, with its accounting, its statistics and its
monitor. `Backend.create` refuses a backend without a host and one whose health URL cannot be
probed.
-/

namespace ReverseProxy

inductive Backend.Kind
  | droplet (d : Droplet)
  /-- Added while the program runs and never saved. -/
  | ephemeral (name : String)
deriving DecidableEq

structure Backend where
  id : String
  kind : Backend.Kind
  /-- The `host:port` that requests are forwarded to. -/
  host : String
  healthUrl : String
  probeTimeout : Duration
  transport : Backend.Transport
  stats : Backend.Stats Float
  /-- None if the backend is not monitored, or no longer. -/
  monitor : Option Backend.Monitor

namespace Backend

/-- Why a health URL cannot be probed. -/
inductive HealthUrlError
  | malformed (e : Net.UrlError)
  | unsupportedScheme (scheme : String)
deriving DecidableEq, Repr

def HealthUrlError.message : HealthUrlError → String
  | malformed e => e.message
  | unsupportedScheme s => "unsupported scheme '" ++ s ++ "'"

inductive CreateError
  | missingHost (id : String)
  | invalidHealthUrl (id : String) (reason : HealthUrlError)
deriving DecidableEq, Repr

def CreateError.message : CreateError → String
  | missingHost id => "Backend " ++ id ++ " has no server host"
  | invalidHealthUrl id reason =>
    "Invalid health URL for backend " ++ id ++ ": " ++ reason.message

structure Context where
  settings : BackendSettings
  stopsOnShutdown : Bool := false
deriving DecidableEq

structure Description where
  id : String
  kind : Kind
  host : String
  healthUrl : String
deriving DecidableEq

namespace Description

def ofDroplet (d : Droplet) : Description :=
  { id := Text.signedDecimal d.id.toInt, kind := .droplet d, host := d.serverHost
    healthUrl := d.healthUrl }

def ephemeral (id name host healthUrl : String) : Description :=
  { id, kind := .ephemeral name, host, healthUrl }

end Description

/-- Accepts a health URL that is empty, or a URL to be fetched over HTTP. -/
def checkHealthUrl (url : String) : Except HealthUrlError Unit :=
  if url = "" then .ok ()
  else match Net.Url.parse url with
    | .error e => .error (.malformed e)
    | .ok u =>
      if u.scheme = "http" || u.scheme = "https" then .ok () else .error (.unsupportedScheme u.scheme)

/-- Accepts a description with a host that is not blank and a health URL that can be probed. -/
def Description.check (d : Description) : Except CreateError Unit :=
  if Text.trimmed d.host = "" then .error (.missingHost d.id)
  else match checkHealthUrl d.healthUrl with
    | .ok () => .ok ()
    | .error reason => .error (.invalidHealthUrl d.id reason)

/-- A backend as described, created now. Until a probe succeeds it is unhealthy, unless no probe
will ever be sent. -/
def start (d : Description) (ctx : Context) (now : Nat) : Backend :=
  let monitored := !ctx.settings.unmonitored
  { id := d.id, kind := d.kind, host := d.host, healthUrl := d.healthUrl
    probeTimeout := ctx.settings.probeTimeout
    transport := .idle
    stats := .initial ctx.settings.latencySpan.toNat (!monitored || d.healthUrl = "")
    monitor := if monitored then some (.create now ctx.stopsOnShutdown) else none }

def create (d : Description) (ctx : Context) (now : Nat) : Except CreateError Backend := do
  d.check
  return start d ctx now

def name (b : Backend) : String :=
  match b.kind with
  | .droplet d => d.name
  | .ephemeral name => name

def droplet? (b : Backend) : Option Droplet :=
  match b.kind with
  | .droplet d => some d
  | .ephemeral _ => none

def isHealthy (b : Backend) : Bool := b.stats.healthy

def latency (b : Backend) : Float := b.stats.latency.reported

def connections (b : Backend) : Nat := b.transport.running

/-! ## Changes -/

def setHealthy (b : Backend) (healthy : Bool) : Backend :=
  { b with stats := b.stats.setHealthy healthy }

def startRequest (b : Backend) : Backend := { b with transport := b.transport.start }

def cancelRequest (b : Backend) : Backend := { b with transport := b.transport.cancel }

/-- A request in flight comes to its outcome after that many nanoseconds. -/
def completeRequest (b : Backend) (latency : Nat) (outcome : Http.Outcome Http.Status) : Backend :=
  { b with transport := b.transport.complete latency (Http.isFailure outcome) }

def close (b : Backend) : Backend := { b with monitor := none }

/-- Stops the monitor if it is to stop when shutdown begins. -/
def settle (b : Backend) (shuttingDown : Bool) : Backend :=
  if b.monitor.any (·.stops shuttingDown) then b.close else b

def probes (b : Backend) : Bool := b.healthUrl ≠ ""

/-- Begins a cycle, if the monitor waits for one: the window is folded in, and a backend that is
never probed becomes healthy. -/
def beginCycle (b : Backend) (now : Nat) : Backend :=
  match b.monitor with
  | none => b
  | some m =>
    if m.phase = .probing then b
    else
      let (window, transport) := b.transport.drain
      let stats := b.stats.recordWindow window (m.elapsed now)
      { b with
        transport
        stats := if b.probes then stats else { stats with healthy := true }
        monitor := some (m.beginCycle now b.probes) }

/-- Ends a cycle with the answer of its probe, if the monitor waits for one. -/
def endCycle (b : Backend) (outcome : Http.Outcome Http.Status) : Backend :=
  match b.monitor with
  | none => b
  | some m =>
    if m.phase = .waiting then b
    else
      { b with
        stats := (b.stats.recordProbe (!Http.isFailure outcome)).2
        monitor := some m.endCycle }

end Backend

end ReverseProxy
