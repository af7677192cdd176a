import ReverseProxy.Proofs.Balancer.Selection
import ReverseProxy.Proofs.Fleet.Standing
import ReverseProxy.Proxy

/-!
# Requests beside changes of the proxy

Requests arrive, are handled, come to their end or are cancelled, in any order with changes of what
is served and of the health of backends. A request takes note of the generation on its arrival and
may be handled only later, by that generation. What is done about each request is kept as its trace.
-/

namespace ReverseProxy

/-- The window that a cycle takes from a backend: nothing unless its monitor waits for one. -/
def Backend.collected (b : Backend) : Window :=
  match b.monitor with
  | none => .empty
  | some m => if m.phase = .probing then .empty else b.transport.window

namespace Proxy

/-- A request with what is known of its connection. -/
structure Visit where
  request : Http.Request
  client : Option Net.SocketAddr
  upgradable : Bool

inductive Entry
  | forwarded (h : Handle) (out : Http.Request)
  /-- What the request came to at a backend, after that many nanoseconds. -/
  | returned (h : Handle) (latency : Nat) (result : Http.Outcome Http.Response)
  | answered (r : Http.Response)
  | cancelled
  | upgrading (h : Handle) (out : Http.Request)
deriving DecidableEq

namespace Entry

def ofArrival : Arrival → Entry
  | .answered r => answered r
  | .forwarded h out => forwarded h out
  | .upgrading h out => upgrading h out

end Entry

/-- A request with the generation that was served on its arrival, and its trace, first entry
first. -/
structure Exchange where
  visit : Visit
  generation : Generation
  trace : List Entry := []

/-- What may change while requests are on their way. -/
inductive Change
  | setSettings (s : Settings)
  /-- A balancer is made, over new backends or ones that are there. -/
  | make (new : List Backend) (b : Balancer)
  | serve (next : Nat)
  | replace (s : Settings) (next : Nat)
  | close
  | setHealthy (h : Handle) (healthy : Bool)
  | beginCycle (h : Handle) (now : Nat)
  | endCycle (h : Handle) (outcome : Http.Outcome Http.Status)

namespace Change

/-- Whether a change has nothing to do with the health of backends. -/
def keepsHealth : Change → Bool
  | setHealthy _ _ | beginCycle _ _ | endCycle _ _ => false
  | _ => true

/-- What a change makes of the proxy and the fleet; none if it concerns a balancer or backends that
are not there. -/
def result? (p : Proxy) (f : Fleet) : Change → Option (Proxy × Fleet)
  | setSettings s => some (p.setSettings s, f)
  | make new b =>
    if (∀ h ∈ b.inventory.members, h < f.backends.length + new.length) ∧
        ∀ m ∈ new, m.transport = .idle then
      some ((p.addBalancer b).2, f.extend new)
    else none
  | serve next => if next < p.balancers.length then some (p.serve f next) else none
  | replace s next => if next < p.balancers.length then some (p.replace f s next) else none
  | close => some (p, p.close f)
  | setHealthy h healthy => some (p, f.update h (·.setHealthy healthy))
  | beginCycle h now => some (p, f.beginCycle h now)
  | endCycle h outcome => some (p, f.endCycle h outcome)

/-- The windows that are taken when a change happens, with the backends they are taken from. -/
def taken (f : Fleet) : Change → List (Handle × Backend.Window)
  | beginCycle h _ => [(h, ((f.get? h).map (·.collected)).getD .empty)]
  | _ => []

end Change

/-- What happens. Requests are numbered in the order of their arrival. -/
inductive Event
  | arrive (v : Visit)
  | handle (i : Nat)
  | complete (i : Nat) (latency : Nat) (result : Http.Outcome Http.Response)
  | cancel (i : Nat)
  | change (c : Change)

def Event.keepsHealth : Event → Bool
  | change c => c.keepsHealth
  | _ => true

/-- A proxy over a fleet, with the requests so far. -/
structure Session where
  proxy : Proxy
  fleet : Fleet
  exchanges : List Exchange := []
  /-- The windows that were taken, with the backends they were taken from. -/
  drained : List (Handle × Backend.Window) := []

namespace Session

def start (settings : Settings) (b : Balancer) (f : Fleet) : Session :=
  { proxy := .serving settings b, fleet := f }

variable (s : Session)

/-- What a waiting request comes to when it is handled. -/
def arrival (v : Visit) (g : Generation) : Arrival :=
  (s.proxy.handle g s.fleet v.request v.client v.upgradable).1

/-- The fleet with a request that has just been handled. -/
def enter : Arrival → Fleet
  | .forwarded h _ => s.fleet.update h (·.startRequest)
  | _ => s.fleet

def handled (i : Nat) (v : Visit) (g : Generation) : Session :=
  { s with
    proxy := (s.proxy.handle g s.fleet v.request v.client v.upgradable).2
    fleet := s.enter (s.arrival v g)
    exchanges := s.exchanges.set i ⟨v, g, [.ofArrival (s.arrival v g)]⟩ }

def completed (i : Nat) (v : Visit) (g : Generation) (h : Handle) (out : Http.Request)
    (latency : Nat) (result : Http.Outcome Http.Response) : Session :=
  { s with
    fleet := s.fleet.update h (·.completeRequest latency (result.map (·.status)))
    exchanges := s.exchanges.set i
      ⟨v, g, [.forwarded h out, .returned h latency result, .answered (answerOf result)]⟩ }

def cancelled (i : Nat) (v : Visit) (g : Generation) (h : Handle) (out : Http.Request) : Session :=
  { s with
    fleet := s.fleet.update h (·.cancelRequest)
    exchanges := s.exchanges.set i ⟨v, g, [.forwarded h out, .cancelled]⟩ }

/-- What follows; none if it cannot happen. -/
def step? : Event → Option Session
  | .arrive v => some { s with exchanges := s.exchanges ++ [⟨v, s.proxy.generation, []⟩] }
  | .handle i =>
    match s.exchanges[i]? with
    | some ⟨v, g, []⟩ => some (s.handled i v g)
    | _ => none
  | .complete i latency result =>
    match s.exchanges[i]? with
    | some ⟨v, g, [.forwarded h out]⟩ => some (s.completed i v g h out latency result)
    | _ => none
  | .cancel i =>
    match s.exchanges[i]? with
    | some ⟨v, g, []⟩ => some { s with exchanges := s.exchanges.set i ⟨v, g, [.cancelled]⟩ }
    | some ⟨v, g, [.forwarded h out]⟩ => some (s.cancelled i v g h out)
    | _ => none
  | .change c => (c.result? s.proxy s.fleet).map fun r =>
    { s with proxy := r.1, fleet := r.2, drained := s.drained ++ c.taken s.fleet }

def run? (s : Session) : List Event → Option Session
  | [] => some s
  | e :: es => (s.step? e).bind (·.run? es)

variable {s} {s' : Session}

theorem run?_append {es es' : List Event} :
    s.run? (es ++ es') = (s.run? es).bind (·.run? es') := by
  induction es generalizing s with
  | nil => rfl
  | cons e es ih =>
      simp only [List.cons_append, run?, Option.bind_assoc]
      congr 1
      funext m
      exact ih

theorem run?_snoc {es : List Event} {e : Event} :
    s.run? (es ++ [e]) = (s.run? es).bind (·.step? e) := by
  rw [run?_append]
  congr 1
  funext m
  simp [run?]

/-! ## The ways of a step -/

inductive Step (s : Session) : Event → Session → Prop
  | arrived (v : Visit) :
      Step s (.arrive v) { s with exchanges := s.exchanges ++ [⟨v, s.proxy.generation, []⟩] }
  | handled {i v g} (hi : s.exchanges[i]? = some ⟨v, g, []⟩) : Step s (.handle i) (s.handled i v g)
  | completed {i v g h out} (hi : s.exchanges[i]? = some ⟨v, g, [.forwarded h out]⟩)
      (latency : Nat) (result : Http.Outcome Http.Response) :
      Step s (.complete i latency result) (s.completed i v g h out latency result)
  | left {i v g} (hi : s.exchanges[i]? = some ⟨v, g, []⟩) :
      Step s (.cancel i) { s with exchanges := s.exchanges.set i ⟨v, g, [.cancelled]⟩ }
  | cancelled {i v g h out} (hi : s.exchanges[i]? = some ⟨v, g, [.forwarded h out]⟩) :
      Step s (.cancel i) (s.cancelled i v g h out)
  | changed {c p f} (hc : c.result? s.proxy s.fleet = some (p, f)) : Step s (.change c)
      { s with proxy := p, fleet := f, drained := s.drained ++ c.taken s.fleet }

theorem step_of_step? {e : Event} (hs : s.step? e = some s') : Step s e s' := by
  cases e with
  | arrive v =>
      cases hs
      exact .arrived v
  | handle i =>
      simp only [step?] at hs
      split at hs
      · rename_i hi
        cases hs
        exact .handled hi
      · cases hs
  | complete i latency result =>
      simp only [step?] at hs
      split at hs
      · rename_i hi
        cases hs
        exact .completed hi latency result
      · cases hs
  | cancel i =>
      simp only [step?] at hs
      split at hs
      · rename_i hi
        cases hs
        exact .left hi
      · rename_i hi
        cases hs
        exact .cancelled hi
      · cases hs
  | change c =>
      obtain ⟨⟨p, f⟩, hc, rfl⟩ := Option.map_eq_some_iff.mp hs
      exact .changed hc

end Session

end Proxy

end ReverseProxy
