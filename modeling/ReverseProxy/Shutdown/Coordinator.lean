import ReverseProxy.Broadcast
import ReverseProxy.Duration
import ReverseProxy.Shutdown.Locks

/-!
# Coordination of a shutdown

The coordinator announces a shutdown to everyone who waits for it, grants locks until then, and
knows the participants of the first stage. A token waits for the announcement; it finds it in the
flag if it comes late, and in the broadcast if it was there before.
-/

namespace ReverseProxy.Shutdown

inductive Reason
  | graceful
  /-- The announcement was lost, or the coordinator is gone. -/
  | force
deriving DecidableEq, Repr

def Reason.name : Reason → String
  | graceful => "Graceful"
  | force => "Force"

def Reason.ofName? : String → Option Reason
  | "Graceful" => some graceful
  | "Force" => some force
  | _ => none

/-- The state that coordinator, tokens and participants share. -/
structure Coordinator where
  timeout : Duration
  locks : Locks := {}
  /-- Set before the announcement is sent. -/
  initiated : Bool := false
  announcements : Broadcast Reason := {}
  /-- Whether participants can still register for the first stage: until it is first waited for. -/
  registering : Bool := true
  /-- How many registered participants have not finished. -/
  participants : Nat := 0

namespace Coordinator

/-- The time that waits may take unless another is given. -/
def defaultTimeout : Duration := Duration.oneSecond

/-- The three steps of an announcement, of which the first decides whether the others happen. -/
def setFlag (c : Coordinator) : Coordinator := { c with initiated := true }

def announce (c : Coordinator) (r : Reason) : Coordinator :=
  { c with announcements := c.announcements.send r }

/-- Begins the shutdown, unless it has begun; tells whether it did. -/
def trigger (c : Coordinator) (r : Reason) : Bool × Coordinator :=
  match c.locks.trigger with
  | some locks => (true, ({ c with locks }.setFlag).announce r)
  | none => (false, c)

/-- Takes a lock, if shutdown has not begun. -/
def tryLock (c : Coordinator) : Option Coordinator :=
  c.locks.take.map fun locks => { c with locks }

def release (c : Coordinator) : Coordinator := { c with locks := c.locks.release }

def locksFree (c : Coordinator) : Bool := c.locks.held = 0

/-- What a token finds when it looks for the announcement it has been waiting for. -/
def heard (c : Coordinator) (s : Subscriber) : Option Reason × Subscriber :=
  match c.announcements.receive s with
  | (.message r, s) => (some r, s)
  | (.lagged _, s) | (.closed, s) => (some .force, s)
  | (.nothing, s) => (none, s)

/-- What a token finds when it begins to wait: the flag counts first. -/
def beginWait (c : Coordinator) (s : Subscriber) : Option Reason × Subscriber :=
  if c.initiated then (some .graceful, s) else c.heard s

/-- Registers a participant of the first stage; tells whether the stage will wait for it. -/
def join (c : Coordinator) : Bool × Coordinator :=
  if c.registering then (true, { c with participants := c.participants + 1 }) else (false, c)

def leave (c : Coordinator) (counted : Bool) : Coordinator :=
  if counted then { c with participants := c.participants - 1 } else c

/-- The first stage is waited for: from now on no participant counts that registers. -/
def endRegistration (c : Coordinator) : Coordinator := { c with registering := false }

/-- Whether a wait for the first stage is over. -/
def stageDone (c : Coordinator) : Bool := !c.registering && c.participants = 0

/-- The coordinator goes away, and no announcement will come. -/
def close (c : Coordinator) : Coordinator :=
  { c with announcements := { c.announcements with closed := true } }

end Coordinator

end ReverseProxy.Shutdown
