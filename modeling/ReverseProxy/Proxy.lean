import ReverseProxy.Balancer
import ReverseProxy.Http.Forwarding
import ReverseProxy.Http.Routing

/-!
# The proxy

The proxy serves one generation at a time: settings, and the balancer built for them. A request is
handled by the generation that is current when it arrives, whatever replaces that generation
before it is forwarded or the answer comes.
-/

namespace ReverseProxy

/-- The settings, every balancer built so far, and which of them is served. -/
structure Proxy where
  settings : Settings
  balancers : List Balancer
  current : Nat

/-- What is served at one moment: the settings, and which of the balancers. -/
structure Generation where
  settings : Settings
  balancer : Nat

/-- The address that is added to `X-Forwarded-For`. -/
def Generation.peer (g : Generation) (client : Option Net.SocketAddr) : Option Net.IpAddr :=
  if g.settings.addForwardedFor then client.map (·.ip) else none

/-- What becomes of a request on its arrival. -/
inductive Arrival
  /-- It is answered without a backend. -/
  | answered (r : Http.Response)
  | forwarded (h : Handle) (r : Http.Request)
  /-- It goes to a backend over a connection of its own, to be upgraded. -/
  | upgrading (h : Handle) (r : Http.Request)
deriving DecidableEq

namespace Proxy

def serving (settings : Settings) (b : Balancer) : Proxy := ⟨settings, [b], 0⟩

def balancer? (p : Proxy) : Option Balancer := p.balancers[p.current]?

def generation (p : Proxy) : Generation := ⟨p.settings, p.current⟩

def updateAt (p : Proxy) (i : Nat) (g : Balancer → Balancer) : Proxy :=
  { p with balancers := p.balancers.modify i g }

def updateBalancer (p : Proxy) (g : Balancer → Balancer) : Proxy := p.updateAt p.current g

/-- Has one of the balancers choose a backend. -/
def pickFrom (p : Proxy) (i : Nat) (f : Fleet) : Option Handle × Proxy :=
  match p.balancers[i]? with
  | none => (none, p)
  | some b =>
    let (h, b) := b.pick f
    (h, p.updateAt i fun _ => b)

/-! ## Generations -/

def setSettings (p : Proxy) (s : Settings) : Proxy := { p with settings := s }

def retire (previous : Proxy) (f : Fleet) (next : Nat) : Fleet :=
  if previous.current = next then f
  else (previous.balancer?.map (·.close f)).getD f

/-- Serves another balancer and closes the one before. -/
def serve (p : Proxy) (f : Fleet) (next : Nat) : Proxy × Fleet :=
  ({ p with current := next }, p.retire f next)

/-- Serves another balancer with other settings and closes the one before. -/
def replace (p : Proxy) (f : Fleet) (s : Settings) (next : Nat) : Proxy × Fleet :=
  (p.setSettings s).serve f next

/-- Takes a new balancer in, without serving it yet. -/
def addBalancer (p : Proxy) (b : Balancer) : Nat × Proxy :=
  (p.balancers.length, { p with balancers := p.balancers ++ [b] })

def close (p : Proxy) (f : Fleet) : Fleet := (p.balancer?.map (·.close f)).getD f

/-! ## Requests -/

def noBackend : Http.Response := .text .unavailable "No healthy backend available :("

def backendFailed : Http.Response := .text .unavailable "Error processing request."

/-- The answer to a request for an upgrade on a connection that cannot be upgraded. -/
def cannotUpgrade : Http.Response := .text .internalError "cannot hijack writer"

/-- What becomes of a request from a client that is handled by one generation, current or not.
`upgradable` tells whether its connection can be upgraded. -/
def handle (p : Proxy) (g : Generation) (f : Fleet) (r : Http.Request)
    (client : Option Net.SocketAddr) (upgradable : Bool) : Arrival × Proxy :=
  let (h, q) := p.pickFrom g.balancer f
  let arrival := match h.bind fun h => (f.get? h).map (h, ·) with
    | none => .answered noBackend
    | some (h, b) =>
      match r.forwardedTo b.host (g.peer client) with
      | .error _ => .answered backendFailed
      | .ok out =>
        if r.headers.asksForWebsocket then
          if upgradable then .upgrading h out else .answered cannotUpgrade
        else .forwarded h out
  (arrival, q)

/-- What becomes of a request that is handled as soon as it arrives. -/
def arrive (p : Proxy) (f : Fleet) (r : Http.Request) (client : Option Net.SocketAddr)
    (upgradable : Bool) : Arrival × Proxy :=
  p.handle p.generation f r client upgradable

/-- The answer to a request, given what it came to at its backend. -/
def answerOf : Http.Outcome Http.Response → Http.Response
  | .ok r => r
  | .error _ => backendFailed

end Proxy

end ReverseProxy
