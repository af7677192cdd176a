import ReverseProxy.Backend

/-!
# Monitors step by step

A monitor waits for a tick, drains the window, folds it in, and then marks the backend healthy or
sends a probe, waits for the answer and judges it. It looks whether it is to stop only where it
waits, and even there a tick or an answer that has come may go first. Here each of these is a step
of its own, with requests and overrides between them; in a row they are the cycles of a backend.
-/

namespace ReverseProxy.Backend

theorem create_eq_ok_iff {d : Description} {ctx : Context} {now : Nat} {b : Backend} :
    create d ctx now = .ok b ↔ d.check = .ok () ∧ start d ctx now = b := by
  cases hd : d.check with
  | ok u => simp [create, hd, bind, Except.bind, pure, Except.pure]
  | error e => simp [create, hd, bind, Except.bind]

/-! ## Requests and overrides -/

/-- What is done with a backend that its monitor has no part in. -/
inductive Use
  | start
  | cancel
  | complete (latency : Nat) (outcome : Http.Outcome Http.Status)
  | setHealthy (healthy : Bool)

def after (b : Backend) : Use → Backend
  | .start => b.startRequest
  | .cancel => b.cancelRequest
  | .complete latency outcome => b.completeRequest latency outcome
  | .setHealthy healthy => b.setHealthy healthy

def Use.override? : Use → Option Bool
  | .setHealthy healthy => some healthy
  | _ => none

/-- The latency of a request that was completed, and whether it failed. -/
def Use.completion? : Use → Option (Nat × Bool)
  | .complete latency outcome => some (latency, Http.isFailure outcome)
  | _ => none

theorem monitor_after (b : Backend) (u : Use) : (b.after u).monitor = b.monitor := by
  cases u <;> rfl

theorem stats_after (b : Backend) (u : Use) :
    (b.after u).stats = u.override?.toList.foldl Stats.setHealthy b.stats := by
  cases u <;> rfl

theorem window_after (b : Backend) (u : Use) :
    (b.after u).transport.window = u.completion?.toList.foldl
      (fun w c => w.record c.1 c.2) b.transport.window := by
  cases u <;> rfl

/-! ## Steps -/

namespace Post

/-- How far a monitor has come. -/
inductive Point
  | waiting
  | ticked
  | drained (w : Window) (elapsed : Nat)
  | folded
  | sent
  | answered (success : Bool)
  | ended
deriving DecidableEq

inductive Act
  | tick (now : Nat)
  | drain (now : Nat)
  | fold
  /-- A backend that is never probed is marked healthy. -/
  | mark
  | send
  | answer (outcome : Http.Outcome Http.Status)
  | judge
  | quit

end Post

/-- A backend whose monitor goes step by step. -/
structure Post where
  backend : Backend
  point : Post.Point
  /-- Whether the monitor has been asked to stop. -/
  cancelled : Bool := false
  /-- Whether the backend still has its monitor, for somebody to stop. -/
  held : Bool

namespace Post

variable {p p' : Post} {shuttingDown : Bool} {a : Act}

/-- Where the monitor of a backend stands between two of its own changes. -/
def Point.ofBackend (b : Backend) : Point :=
  match b.monitor with
  | none => .ended
  | some m => if m.phase = .probing then .sent else .waiting

def ofBackend (b : Backend) : Post :=
  { backend := b, point := .ofBackend b, held := b.monitor.isSome }

def take (p : Post) : Post := { p with held := false }

def cancel (p : Post) : Post := { p with cancelled := true }

def use (p : Post) (u : Use) : Post := { p with backend := p.backend.after u }

/-- Whether the monitor stands where it looks if it is to stop, and is to stop. -/
def mayQuit (p : Post) (shuttingDown : Bool) : Bool :=
  match p.point with
  | .waiting => p.cancelled || (shuttingDown && p.backend.monitor.any (·.stopsOnShutdown))
  | .folded => p.cancelled && p.backend.probes
  | .sent => p.cancelled
  | _ => false

/-- How far a step takes the monitor, and what it makes of the backend; none if it cannot happen. -/
def advance? (p : Post) (shuttingDown : Bool) (a : Act) : Option (Point × Backend) :=
  let b := p.backend
  match a, p.point, b.monitor with
  | .tick now, .waiting, some m =>
    let m := { m with deadline := Monitor.nextDeadline m.deadline now }
    some (.ticked, { b with monitor := some m })
  | .drain now, .ticked, some m =>
    let (window, transport) := b.transport.drain
    let monitor := some { m with cycleStart := now }
    some (.drained window (m.elapsed now), { b with transport, monitor })
  | .fold, .drained window elapsed, some _ =>
    some (.folded, { b with stats := b.stats.recordWindow window elapsed })
  | .mark, .folded, some _ =>
    if b.probes then none
    else some (.waiting, { b with stats := { b.stats with healthy := true } })
  | .send, .folded, some m =>
    if b.probes then some (.sent, { b with monitor := some { m with phase := .probing } })
    else none
  | .answer outcome, .sent, some _ => some (.answered (!Http.isFailure outcome), b)
  | .judge, .answered success, some m =>
    let stats := (b.stats.recordProbe success).2
    some (.waiting, { b with stats, monitor := some m.endCycle })
  | .quit, _, _ => if p.mayQuit shuttingDown then some (.ended, b.close) else none
  | _, _, _ => none

def step? (p : Post) (shuttingDown : Bool) (a : Act) : Option Post :=
  (p.advance? shuttingDown a).map fun (point, backend) => { p with point, backend }

def run? (p : Post) (shuttingDown : Bool) : List Act → Option Post
  | [] => some p
  | a :: as => (p.step? shuttingDown a).bind (·.run? shuttingDown as)

/-! ## What a step does -/

/-- The ways in which a monitor goes on, one for each of its steps. -/
inductive Advance (p : Post) (shuttingDown : Bool) : Act → Point → Backend → Prop
  | tick {m : Monitor} (now : Nat) (hm : p.backend.monitor = some m) (hpoint : p.point = .waiting) :
    Advance p shuttingDown (.tick now) .ticked
      { p.backend with
        monitor := some { m with deadline := Monitor.nextDeadline m.deadline now } }
  | drain {m : Monitor} (now : Nat) (hm : p.backend.monitor = some m) (hpoint : p.point = .ticked) :
    Advance p shuttingDown (.drain now) (.drained p.backend.transport.window (m.elapsed now))
      { p.backend with
        transport := p.backend.transport.drain.2, monitor := some { m with cycleStart := now } }
  | fold {m : Monitor} {w : Window} {elapsed : Nat} (hm : p.backend.monitor = some m)
      (hpoint : p.point = .drained w elapsed) :
    Advance p shuttingDown .fold .folded
      { p.backend with stats := p.backend.stats.recordWindow w elapsed }
  | mark {m : Monitor} (hm : p.backend.monitor = some m) (hpoint : p.point = .folded)
      (hprobes : ¬ p.backend.probes = true) :
    Advance p shuttingDown .mark .waiting
      { p.backend with stats := { p.backend.stats with healthy := true } }
  | send {m : Monitor} (hm : p.backend.monitor = some m) (hpoint : p.point = .folded)
      (hprobes : p.backend.probes = true) :
    Advance p shuttingDown .send .sent
      { p.backend with monitor := some { m with phase := .probing } }
  | answer {m : Monitor} (o : Http.Outcome Http.Status) (hm : p.backend.monitor = some m)
      (hpoint : p.point = .sent) :
    Advance p shuttingDown (.answer o) (.answered (!Http.isFailure o)) p.backend
  | judge {m : Monitor} {success : Bool} (hm : p.backend.monitor = some m)
      (hpoint : p.point = .answered success) :
    Advance p shuttingDown .judge .waiting
      { p.backend with
        stats := (p.backend.stats.recordProbe success).2, monitor := some m.endCycle }
  | quit (hquit : p.mayQuit shuttingDown = true) :
    Advance p shuttingDown .quit .ended p.backend.close

theorem advance_of_advance? {point : Point} {b : Backend}
    (h : p.advance? shuttingDown a = some (point, b)) : p.Advance shuttingDown a point b := by
  revert h
  fun_cases advance? p shuttingDown a with
  | case1 _ now m hm hpoint =>
      rintro ⟨⟩
      exact .tick now hm hpoint
  | case2 _ now m hm hpoint window transport hdrain =>
      cases hdrain
      rintro ⟨⟩
      exact .drain now hm hpoint
  | case3 _ w elapsed m hm hpoint =>
      rintro ⟨⟩
      exact .fold hm hpoint
  | case5 _ m hm hpoint hprobes =>
      rintro ⟨⟩
      exact .mark hm hpoint hprobes
  | case6 _ m hm hpoint hprobes =>
      rintro ⟨⟩
      exact .send hm hpoint hprobes
  | case8 _ o m hm hpoint =>
      rw [Option.some.injEq, Prod.mk.injEq]
      rintro ⟨rfl, rfl⟩
      exact .answer o hm hpoint
  | case9 _ success m hm hpoint =>
      rintro ⟨⟩
      exact .judge hm hpoint
  | case10 _ hquit =>
      rintro ⟨⟩
      exact .quit hquit
  | case4 | case7 | case11 | case12 => nofun

theorem step_cases (h : p.step? shuttingDown a = some p') :
    ∃ point b, p.Advance shuttingDown a point b ∧ p' = { p with point, backend := b } := by
  obtain ⟨⟨point, b⟩, hadvance, rfl⟩ := Option.map_eq_some_iff.mp h
  exact ⟨point, b, advance_of_advance? hadvance, rfl⟩

/-! ## Cycles -/

section Cycles

variable {b : Backend} {m : Monitor}

/-- The steps up to the probe in a row begin a cycle. -/
theorem run?_beginCycle (hm : b.monitor = some m) (hphase : m.phase = .waiting) (now : Nat) :
    (ofBackend b).run? shuttingDown
        [.tick now, .drain now, .fold, if b.probes then .send else .mark] =
      some (ofBackend (b.beginCycle now)) := by
  by_cases hurl : b.healthUrl = ""
  · simp [run?, step?, advance?, ofBackend, Point.ofBackend, hm, hphase, Backend.beginCycle, probes,
      hurl, Transport.drain, Monitor.beginCycle, Monitor.elapsed]
  · simp [run?, step?, advance?, ofBackend, Point.ofBackend, hm, hphase, Backend.beginCycle, probes,
      hurl, Transport.drain, Monitor.beginCycle, Monitor.elapsed]

/-- An answer that is judged at once ends the cycle. -/
theorem run?_endCycle (hm : b.monitor = some m) (hphase : m.phase = .probing)
    (outcome : Http.Outcome Http.Status) :
    (ofBackend b).run? shuttingDown [.answer outcome, .judge] =
      some (ofBackend (b.endCycle outcome)) := by
  simp [run?, step?, advance?, ofBackend, Point.ofBackend, hm, hphase, Backend.endCycle,
    Monitor.endCycle]

/-- A monitor that is to stop with the shutdown quits where it waits for a tick. -/
theorem step?_quit (hb : b.monitor.any (·.stops true) = true) :
    (ofBackend b).step? true .quit = some { ofBackend (b.settle true) with held := true } := by
  obtain ⟨m, hm, hstops⟩ := (Option.any_eq_true _ _).mp hb
  simp only [Monitor.stops, Bool.true_and, Bool.and_eq_true, decide_eq_true_eq] at hstops
  simp [step?, advance?, mayQuit, ofBackend, Point.ofBackend, settle, Monitor.stops, hm, hstops,
    Backend.close]

end Cycles

theorem step?_of_ended (hp : p.point = .ended) : p.step? shuttingDown a = none := by
  cases a <;> simp [step?, advance?, mayQuit, hp]

end Post

end ReverseProxy.Backend
