/-!
# Relays between two connections

Once both connections of a websocket are upgraded, what either side sends is copied to the other.
Each direction reads, holds what it has read, and writes. The relay ends as soon as one direction
has copied everything up to the end of its stream, or has failed; then both streams are shut.
-/

namespace ReverseProxy.Websocket

/-- The sides of a relay. A direction is named for the side that sends. -/
inductive Side
  | client
  | backend
deriving DecidableEq, Repr

def Side.other : Side → Side
  | client => backend
  | backend => client

structure Stream where
  /-- Sent, and not read yet. -/
  unread : List UInt8 := []
  /-- Read, and not written yet. -/
  held : List UInt8 := []
  delivered : List UInt8 := []
  closed : Bool := false
deriving DecidableEq, Repr

namespace Stream

/-- The sender sends, unless it has ended its stream. -/
def send (s : Stream) (bytes : List UInt8) : Stream :=
  if s.closed then s else { s with unread := s.unread ++ bytes }

def close (s : Stream) : Stream := { s with closed := true }

def read (s : Stream) (n : Nat) : Stream :=
  { s with unread := s.unread.drop n, held := s.held ++ s.unread.take n }

def write (s : Stream) (n : Nat) : Stream :=
  { s with held := s.held.drop n, delivered := s.delivered ++ s.held.take n }

def isDone (s : Stream) : Bool := s.closed && s.unread.isEmpty && s.held.isEmpty

end Stream

/-- Why a relay has ended: the stream of a side was copied to its end, or copying it failed. -/
inductive End
  | finished (s : Side)
  | failed (s : Side)
deriving DecidableEq, Repr

structure Relay where
  fromClient : Stream := {}
  fromBackend : Stream := {}
  /-- Set when the relay ends; from then on both sides find their streams shut. -/
  ended : Option End := none
deriving DecidableEq, Repr

namespace Relay

inductive Event
  | send (s : Side) (bytes : List UInt8)
  | close (s : Side)
  | read (s : Side) (n : Nat)
  | write (s : Side) (n : Nat)
  | finish (s : Side)
  | fail (s : Side)
deriving DecidableEq, Repr

/-- A relay whose backend sent some bytes right after its answer. -/
def start (early : List UInt8) : Relay := { fromBackend := { unread := early } }

def stream (r : Relay) : Side → Stream
  | .client => r.fromClient
  | .backend => r.fromBackend

def update (r : Relay) (s : Side) (g : Stream → Stream) : Relay :=
  match s with
  | .client => { r with fromClient := g r.fromClient }
  | .backend => { r with fromBackend := g r.fromBackend }

def isRunning (r : Relay) : Bool := r.ended.isNone

/-- What an event does. The relay itself does nothing once it has ended. -/
def step (r : Relay) : Event → Relay
  | .send s bytes => r.update s (·.send bytes)
  | .close s => r.update s (·.close)
  | .read s n => if r.isRunning then r.update s (·.read n) else r
  | .write s n => if r.isRunning then r.update s (·.write n) else r
  | .finish s =>
    if r.isRunning && (r.stream s).isDone then { r with ended := some (.finished s) } else r
  | .fail s => if r.isRunning then { r with ended := some (.failed s) } else r

def run (r : Relay) (events : List Event) : Relay := events.foldl step r

end Relay

end ReverseProxy.Websocket
