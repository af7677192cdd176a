/-!
# Broadcasts

Every subscriber of a broadcast receives what is sent after it subscribed, in order. Only the last
`capacity` messages are kept; a subscriber that fell further behind is told how many it lost.
-/

namespace ReverseProxy

/-- The messages sent so far, and whether the sender is gone. -/
structure Broadcast (α : Type) where
  sent : List α := []
  closed : Bool := false

/-- How many messages a subscriber has been past. -/
structure Subscriber where
  position : Nat
deriving DecidableEq, Repr

inductive Received (α : Type)
  | message (a : α)
  | lagged (lost : Nat)
  | nothing
  | closed
deriving DecidableEq, Repr

namespace Broadcast

variable {α : Type}

def capacity : Nat := 16

def send (b : Broadcast α) (a : α) : Broadcast α := { b with sent := b.sent ++ [a] }

def subscribe (b : Broadcast α) : Subscriber := ⟨b.sent.length⟩

def receive (b : Broadcast α) (s : Subscriber) : Received α × Subscriber :=
  let oldest := b.sent.length - capacity
  if s.position < oldest then (.lagged (oldest - s.position), ⟨oldest⟩)
  else match b.sent[s.position]? with
    | some a => (.message a, ⟨s.position + 1⟩)
    | none => (if b.closed then .closed else .nothing, s)

/-- All that a subscriber finds until there is nothing left. -/
def drain (b : Broadcast α) (s : Subscriber) : List (Received α) × Subscriber :=
  let oldest := b.sent.length - capacity
  let lost := if s.position < oldest then [.lagged (oldest - s.position)] else []
  (lost ++ (b.sent.drop (max s.position oldest)).map .message, ⟨b.sent.length⟩)

end Broadcast

end ReverseProxy
