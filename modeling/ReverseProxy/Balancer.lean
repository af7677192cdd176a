import ReverseProxy.Balancer.Selection
import ReverseProxy.Inventory

/-!
# Balancers

A balancer chooses a backend of its inventory for each request, by its strategy.
-/

namespace ReverseProxy

/-- A strategy with its cursor, and the inventory it chooses from. -/
structure Balancer where
  strategy : Strategy
  cursor : Nat := 0
  inventory : Inventory
deriving DecidableEq

namespace Balancer

def candidates (b : Balancer) (f : Fleet) : List (Handle × Backend) :=
  b.inventory.members.filterMap fun h => (f.get? h).map (h, ·)

def pick (b : Balancer) (f : Fleet) : Option Handle × Balancer :=
  let cs := b.candidates f
  let healthy (c : Handle × Backend) := c.2.isHealthy
  match b.strategy with
  | .roundRobin =>
    let (i, cursor) := inTurn healthy cs b.cursor
    (i.bind fun i => (cs[i]?).map (·.1), { b with cursor })
  | .leastConnections =>
    ((least (fun m n => decide (m < n)) (fun c => c.2.connections) (cs.filter healthy)).map (·.1), b)
  | .lowestLatency =>
    ((least Scalar.below (fun c => c.2.latency) (cs.filter healthy)).map (·.1), b)

def close (b : Balancer) (f : Fleet) : Fleet := b.inventory.close f

/-- What can be said of all members together. -/
structure Summary where
  healthy : Nat
  unhealthy : Nat
  latency : Float
  connections : Nat

def summary (b : Balancer) (f : Fleet) : Summary :=
  let members := b.inventory.backends f
  let healthy := members.filter (·.isHealthy)
  let sum := healthy.foldl (fun s m => s + m.latency) (0 : Float)
  { healthy := healthy.length
    unhealthy := members.length - healthy.length
    latency := if healthy.isEmpty then 0 else sum / Scalar.ofNat healthy.length
    connections := members.foldl (fun n m => n + m.connections) 0 }

end Balancer

end ReverseProxy
