import ReverseProxy.Shutdown.Coordinator

/-!
# A shutdown in time

A timeline runs a coordinator on a clock of milliseconds beside tasks in the background: triggers,
releases of locks, and participants of the first stage. Time passes only while somebody sleeps or
waits. A wait ends as soon as what it waits for has come about; if that happens at the very end of
the time allowed, it comes too late.
-/

namespace ReverseProxy.Shutdown

inductive Task
  | trigger (time : Nat) (r : Reason)
  | release (time : Nat)
  | leave (time : Nat) (counted : Bool)
  /-- A participant waits for the announcement and finishes some time after it. -/
  | participate (s : Subscriber) (counted : Bool) (delay : Nat)

namespace Task

def dueTime? : Task → Option Nat
  | trigger t _ | release t | leave t _ => some t
  | participate .. => none

def holds : Task → Bool
  | trigger .. => true
  | _ => false

end Task

/-- A coordinator with its clock and its background. -/
structure Timeline where
  coordinator : Coordinator
  now : Nat := 0
  owned : Bool := true
  tasks : List Task := []

namespace Timeline

def closeUnowned (t : Timeline) : Timeline :=
  if t.owned || t.tasks.any (·.holds) then t else { t with coordinator := t.coordinator.close }

def wakeParticipants (t : Timeline) : Timeline :=
  { t with
    tasks := t.tasks.map fun task =>
      match task with
      | .participate s counted delay =>
        if (t.coordinator.heard s).1.isSome then .leave (t.now + delay) counted else task
      | task => task }

def fire (t : Timeline) : Task → Timeline
  | .trigger _ r => { t with coordinator := (t.coordinator.trigger r).2 }
  | .release _ => { t with coordinator := t.coordinator.release }
  | .leave _ counted => { t with coordinator := t.coordinator.leave counted }
  | .participate .. => t

/-- The first of the tasks that are due earliest, with its position. -/
def next? (t : Timeline) : Option (Nat × Nat × Task) :=
  let due := (List.range t.tasks.length).filterMap fun i => do
    let task ← t.tasks[i]?
    some (← task.dueTime?, i, task)
  due.foldl (fun best d =>
    if best.all fun (b : Nat × Nat × Task) => d.1 < b.1 then some d else best) none

/-- The next task that is due before a time, or at it if `inclusive`, does its work. -/
def step? (t : Timeline) (limit : Nat) (inclusive : Bool) : Option Timeline := do
  let (time, i, task) ← t.next?
  if time < limit || (inclusive && time = limit) then
    let t := { t with now := max t.now time, tasks := t.tasks.eraseIdx i }
    some (t.fire task).closeUnowned.wakeParticipants
  else none

/-- Runs what is due up to a time. Every task does at most two things. -/
def runTo (limit : Nat) : Nat → Timeline → Timeline
  | 0, t => t
  | fuel + 1, t =>
    match t.step? limit true with
    | some t => runTo limit fuel t
    | none => t

def settle (t : Timeline) : Timeline :=
  let t := t.closeUnowned.wakeParticipants
  runTo t.now (2 * t.tasks.length) t

def sleep (t : Timeline) (ms : Nat) : Timeline :=
  let limit := t.now + ms
  { runTo limit (2 * t.tasks.length) t with now := limit }

/-- Waits until something can be found in the coordinator. -/
def waitFrom {α : Type} (find : Coordinator → Option α) (limit : Nat) :
    Nat → Timeline → Option α × Timeline
  | 0, t => (none, t)
  | fuel + 1, t =>
    match find t.coordinator with
    | some a => (some a, t)
    | none =>
      match t.step? limit false with
      | some t => waitFrom find limit fuel t
      | none => (none, { t with now := max t.now limit })

/-- Waits for at most that many milliseconds; tells what was found and how long it took. -/
def wait {α : Type} (t : Timeline) (ms : Nat) (find : Coordinator → Option α) :
    Option α × Nat × Timeline :=
  let (a, u) := waitFrom find (t.now + ms) (2 * t.tasks.length + 1) t
  (a, u.now - t.now, u.settle)

/-! ## Waits -/

def timeout (t : Timeline) : Nat := t.coordinator.timeout.millis

def waitForLocks (t : Timeline) : Bool × Nat × Timeline :=
  let (a, ms, t) := t.wait t.timeout fun c => if c.locksFree then some () else none
  (a.isSome, ms, t)

/-- Waits until all participants of the first stage have finished. -/
def waitForStage (t : Timeline) : Bool × Nat × Timeline :=
  let t := { t with coordinator := t.coordinator.endRegistration }
  let (a, ms, t) := t.wait t.timeout fun c => if c.stageDone then some () else none
  (a.isSome, ms, t)

/-- Waits for the announcement with a token; gives the token back. -/
def waitForShutdown (t : Timeline) (s : Subscriber) (ms : Nat) :
    Option Reason × Nat × Subscriber × Timeline :=
  match t.coordinator.beginWait s with
  | (some r, s) => (some r, 0, s, t)
  | (none, _) =>
    let (r, spent, t) := t.wait ms fun c => (c.heard s).1
    (r, spent, (t.coordinator.heard s).2, t)

/-! ## Tasks -/

def add (t : Timeline) (task : Task) : Timeline := ({ t with tasks := t.tasks ++ [task] }).settle

def triggerAfter (t : Timeline) (ms : Nat) (r : Reason) : Timeline := t.add (.trigger (t.now + ms) r)

/-- Gives a lock back after a time. -/
def releaseAfter (t : Timeline) (ms : Nat) : Timeline := t.add (.release (t.now + ms))

/-- Lets a participant finish after a time. -/
def leaveAfter (t : Timeline) (ms : Nat) (counted : Bool) : Timeline :=
  t.add (.leave (t.now + ms) counted)

/-- A participant registers, waits for the announcement, and finishes a time after it. -/
def participate (t : Timeline) (ms : Nat) : Timeline :=
  let (counted, c) := t.coordinator.join
  let s := c.announcements.subscribe
  { t with coordinator := c }.add
    (if (c.beginWait s).1.isSome then .leave (t.now + ms) counted else .participate s counted ms)

def update (t : Timeline) (c : Coordinator) : Timeline := ({ t with coordinator := c }).settle

def disown (t : Timeline) : Timeline := ({ t with owned := false }).settle

end Timeline

end ReverseProxy.Shutdown
