import ReverseProxy.Proofs.Backend.Post
import ReverseProxy.Proofs.Scalar.Rounding

/-!
# The cycles of a monitor

The steps of a monitor are taken on a clock, which moves on only where the monitor waits, for a tick or
for the answer to a probe. Requests and overrides come at any time. A log tells which requests were
completed, when cycles began and what they folded in, and when probes were in flight. `run?_tiled` says
that the cycles tile the time from the creation of the backend on, and the completed requests with it.
-/

namespace ReverseProxy.Backend

open Scalar

namespace Stats

variable {α : Type} [Scalar α]

/-- Whether two statistics agree in their averages. -/
structure SameAverages (s t : Stats α) : Prop where
  latency : s.latency = t.latency
  failureRate : s.failureRate = t.failureRate

variable {s t : Stats α}

theorem SameAverages.recordWindow (h : s.SameAverages t) (w : Window) (elapsed : Nat) :
    (s.recordWindow w elapsed).SameAverages (t.recordWindow w elapsed) := by
  unfold Stats.recordWindow
  rw [h.latency, h.failureRate]
  split <;> exact ⟨rfl, rfl⟩

omit [Scalar α] in
theorem recordProbe_sameAverages (s : Stats α) (success : Bool) :
    (s.recordProbe success).2.SameAverages s := by
  fun_cases recordProbe s success <;> exact ⟨rfl, rfl⟩

omit [Scalar α] in
theorem SameAverages.trans {u : Stats α} (h : s.SameAverages t) (h' : t.SameAverages u) :
    s.SameAverages u :=
  ⟨h.latency.trans h'.latency, h.failureRate.trans h'.failureRate⟩

end Stats

namespace Beat

inductive Event
  | act (a : Post.Act)
  | use (u : Use)
  /-- The monitor is asked to stop. -/
  | cancel
  | shutDown

/-- What has happened, and when. -/
inductive Entry
  | served (time latency : Nat) (failed : Bool)
  | cycle (time elapsed : Nat) (w : Window)
  | sent (time : Nat)
  /-- A probe is in flight no longer: it was answered, or given up. -/
  | finished (time : Nat)
deriving DecidableEq

namespace Entry

def time : Entry → Nat
  | served t _ _ | cycle t _ _ | sent t | finished t => t

def served? : Entry → Option (Nat × Bool)
  | served _ latency failed => some (latency, failed)
  | _ => none

def start? : Entry → Option Nat
  | cycle t _ _ => some t
  | _ => none

def elapsed? : Entry → Option Nat
  | cycle _ elapsed _ => some elapsed
  | _ => none

def isSent : Entry → Bool
  | sent _ => true
  | _ => false

def isOver : Entry → Bool
  | finished _ => true
  | _ => false

end Entry

/-! ## What a log tells

The newest entry of a log comes first. -/

/-- When the last cycle began. -/
def lastCycle? (log : List Entry) : Option Nat := log.findSome? Entry.start?

/-- When the last cycle began; if there was none, when the backend was created. -/
def lastStart (created : Nat) (log : List Entry) : Nat := (lastCycle? log).getD created

/-- The entries after the beginning of the last cycle. -/
def sinceCycle (log : List Entry) : List Entry := log.takeWhile (·.start?.isNone)

/-- The window that the requests among some entries make up. -/
def windowOf (es : List Entry) : Window :=
  let requests := es.filterMap Entry.served?
  ⟨requests.length, requests.countP (·.2), (requests.map (·.1)).sum⟩

/-- Statistics with the windows of all cycles folded in. -/
def foldedInto (s : Stats Float) (log : List Entry) : Stats Float :=
  log.foldr (fun e s => match e with
    | .cycle _ elapsed w => s.recordWindow w elapsed
    | _ => s) s

end Beat

/-- A monitor on a clock. -/
structure Beat where
  post : Post
  now : Nat
  shuttingDown : Bool := false
  log : List Beat.Entry := []

namespace Beat

variable {s s' : Beat} {prompt : Bool} {created : Nat} {log : List Entry}

def start (b : Backend) (now : Nat) : Beat := { post := .ofBackend b, now }

/-- Whether the clock may move on to a time. It stays within what a duration holds. A prompt monitor
does not sleep past its tick. -/
def mayPass (s : Beat) (prompt : Bool) (t : Nat) : Bool :=
  s.now ≤ t && t < Duration.limit && (t = s.now || match s.post.point with
    | .waiting => !prompt || s.post.backend.monitor.all (t ≤ ·.deadline)
    | .sent | .ended => true
    | _ => false)

/-- Whether a step can be taken now. A tick comes once it is due. -/
def isDue (s : Beat) : Post.Act → Bool
  | .tick t => t = s.now && s.post.backend.monitor.all (·.deadline ≤ s.now)
  | .drain t => t = s.now
  | _ => true

/-- What is noted of a step that has led to a point. -/
def noted (s : Beat) (a : Post.Act) (point : Post.Point) : List Entry :=
  match a, point with
  | .drain _, .drained w elapsed => [.cycle s.now elapsed w]
  | .send, _ => [.sent s.now]
  | .answer _, _ => [.finished s.now]
  | .quit, _ => if s.post.point = .sent then [.finished s.now] else []
  | _, _ => []

/-- What is noted of a request that was completed. -/
def notedUse (s : Beat) (u : Use) : List Entry :=
  u.completion?.toList.map fun c => .served s.now c.1 c.2

/-- What follows at once; none if it cannot happen. -/
def step? (s : Beat) : Event → Option Beat
  | .act a =>
    if s.isDue a then (s.post.step? s.shuttingDown a).map fun p =>
      { s with post := p, log := s.noted a p.point ++ s.log }
    else none
  | .use u => some { s with post := s.post.use u, log := s.notedUse u ++ s.log }
  | .cancel => some { s with post := s.post.cancel }
  | .shutDown => some { s with shuttingDown := true }

/-- Lets events happen, each at its time; none if one of them cannot. -/
def run? (s : Beat) (prompt : Bool) : List (Nat × Event) → Option Beat
  | [] => some s
  | (t, e) :: es =>
    if s.mayPass prompt t then (step? { s with now := t } e).bind (·.run? prompt es) else none

/-! ## The invariant -/

/-- Whether a cycle may begin at a time, given when the last one began: the first one a second after
the creation, at once if the monitor is prompt, and every other almost a second after the last. -/
structure MayBegin (created : Nat) (prompt : Bool) (last : Option Nat) (t : Nat) : Prop where
  first : last = none → created + 1000000000 ≤ t ∧ (prompt = true → t = created + 1000000000)
  next : ∀ t', last = some t' → t' + 995000000 ≤ t

/-- A cycle as it follows on what a log tells: it takes up the time since the last one, and the
requests that were completed since. -/
structure Follows (created : Nat) (prompt : Bool) (log : List Entry) (t elapsed : Nat) (w : Window) :
    Prop extends MayBegin created prompt (lastCycle? log) t where
  elapsed : lastStart created log + elapsed = t
  window : w = windowOf (sinceCycle log)
  inRange : t < Duration.limit

/-- The entries of a log are in order, and each cycle follows on those before. -/
structure Tiled (created : Nat) (prompt : Bool) (now : Nat) (log : List Entry) : Prop where
  sorted : log.Pairwise fun a b => b.time ≤ a.time
  past : ∀ e ∈ log, e.time ≤ now
  created_le : created ≤ now
  inRange : now < Duration.limit
  cycles : ∀ later t elapsed w earlier, log = later ++ .cycle t elapsed w :: earlier →
    Follows created prompt earlier t elapsed w

/-- When the next cycle is due. -/
def Clocked (created : Nat) (prompt : Bool) (s : Beat) (m : Monitor) : Prop :=
  match s.post.point with
  | .waiting =>
    (lastCycle? s.log = none →
      m.deadline = created + 1000000000 ∧ (prompt = true → s.now ≤ m.deadline)) ∧
    ∀ t, lastCycle? s.log = some t → t + 995000000 ≤ m.deadline
  | .ticked => MayBegin created prompt (lastCycle? s.log) s.now ∧ s.now + 995000000 ≤ m.deadline
  | _ => ∃ t, lastCycle? s.log = some t ∧ t + 995000000 ≤ m.deadline

/-- The statistics once the window at hand is folded in. -/
def settled (s : Beat) : Stats Float :=
  match s.post.point with
  | .drained w elapsed => s.post.backend.stats.recordWindow w elapsed
  | _ => s.post.backend.stats

/-- How many probes are in flight. -/
def inFlight : Post.Point → Nat
  | .sent => 1
  | _ => 0

structure Sound (first : Stats Float) (created : Nat) (prompt : Bool) (s : Beat) : Prop extends
    Tiled created prompt s.now s.log where
  window : s.post.backend.transport.window = windowOf (sinceCycle s.log)
  averages : s.settled.SameAverages (foldedInto first s.log)
  probes : s.log.countP (·.isSent) =
    s.log.countP (·.isOver) + inFlight s.post.point
  monitored : s.post.point ≠ .ended → ∃ m, s.post.backend.monitor = some m ∧
    m.cycleStart = lastStart created s.log ∧ Clocked created prompt s m

/-! ## Logs -/

section Log

variable {t : Nat}

theorem windowOf_cons (es : List Entry) (latency : Nat) (failed : Bool) :
    windowOf (.served t latency failed :: es) = (windowOf es).record latency failed := by
  cases failed with
  | true => simp [windowOf, Window.record, Entry.served?, Nat.add_comm]
  | false => simp [windowOf, Window.record, Entry.served?, Nat.add_comm]

/-- The times between cycles add up to the time of the last one. -/
theorem sum_elapsed (h : ∀ later t elapsed w earlier, log = later ++ .cycle t elapsed w :: earlier →
    lastStart created earlier + elapsed = t) :
    created + (log.filterMap Entry.elapsed?).sum = lastStart created log := by
  induction log with
  | nil => rfl
  | cons e log ih =>
      have hlog := ih fun later t elapsed w earlier hsplit =>
        h (e :: later) t elapsed w earlier (by rw [hsplit, List.cons_append])
      cases e with
      | cycle t elapsed w =>
          have ht := h [] t elapsed w log rfl
          simp only [List.filterMap_cons, Entry.elapsed?, List.sum_cons]
          change created + (elapsed + _) = t
          omega
      | served | sent | finished => exact hlog

end Log

/-! ## What is kept -/

section Tiled

variable {now t elapsed : Nat} {e : Entry} {w : Window}

theorem Tiled.later (h : Tiled created prompt now log) (ht : now ≤ t) (hlimit : t < Duration.limit) :
    Tiled created prompt t log :=
  { h with
    past := fun e he => Nat.le_trans (h.past e he) ht
    created_le := Nat.le_trans h.created_le ht
    inRange := hlimit }

theorem Tiled.cons (h : Tiled created prompt now log) (htime : e.time = now)
    (he : ∀ t elapsed w, e = .cycle t elapsed w → Follows created prompt log t elapsed w) :
    Tiled created prompt now (e :: log) where
  sorted := List.pairwise_cons.mpr ⟨fun e' he' => htime ▸ h.past e' he', h.sorted⟩
  past := List.forall_mem_cons.mpr ⟨Nat.le_of_eq htime, h.past⟩
  created_le := h.created_le
  inRange := h.inRange
  cycles := by
    intro later t elapsed w earlier hsplit
    cases later with
    | nil =>
        obtain ⟨rfl, rfl⟩ := List.cons.inj hsplit
        exact he t elapsed w rfl
    | cons e' later =>
        obtain ⟨rfl, hlog⟩ := List.cons.inj hsplit
        exact h.cycles later t elapsed w earlier hlog

theorem Tiled.note (h : Tiled created prompt now log) (htime : e.time = now)
    (he : e.start? = none) : Tiled created prompt now (e :: log) :=
  h.cons htime fun t elapsed w hcycle => by rw [hcycle] at he; cases he

theorem Tiled.lastStart_le (h : Tiled created prompt now log) : lastStart created log ≤ now := by
  cases hlast : lastCycle? log with
  | none => simpa [lastStart, hlast] using h.created_le
  | some t =>
      obtain ⟨e, he, hte⟩ := List.exists_of_findSome?_eq_some hlast
      cases e with
      | cycle =>
          cases hte
          simpa [lastStart, hlast, Entry.time] using h.past _ he
      | served | sent | finished => cases hte

end Tiled

/-- Between two cycles lie almost a second at least, however late the first one came. -/
theorem add_le_nextDeadline {deadline now : Nat} (h : deadline ≤ now) :
    now + 995000000 ≤ Monitor.nextDeadline deadline now := by
  unfold Monitor.nextDeadline Monitor.tolerance Monitor.period nanosPerSecond
  split <;> omega

variable {first : Stats Float}

theorem Sound.later {t : Nat} (h : Sound first created prompt s) (ht : s.mayPass prompt t = true) :
    Sound first created prompt { s with now := t } := by
  simp only [mayPass, Bool.and_eq_true, Bool.or_eq_true, decide_eq_true_eq] at ht
  obtain ⟨⟨hle, hlimit⟩, hpoint⟩ := ht
  refine { h.toTiled.later hle hlimit with
    window := h.window, averages := h.averages, probes := h.probes, monitored := fun hended => ?_ }
  obtain ⟨m, hm, hstart, hclock⟩ := h.monitored hended
  refine ⟨m, hm, hstart, ?_⟩
  obtain rfl | hpoint := hpoint
  · exact hclock
  cases hp : s.post.point with
  | waiting =>
      simp only [Clocked, hp] at hclock ⊢
      refine ⟨fun hnone => ⟨(hclock.1 hnone).1, fun hprompt => ?_⟩, hclock.2⟩
      simpa [hp, hprompt, hm] using hpoint
  | ticked | drained | folded | answered => simp [hp] at hpoint
  | sent =>
      simp only [Clocked, hp] at hclock ⊢
      exact hclock
  | ended => exact absurd hp hended

theorem Sound.use (h : Sound first created prompt s) (u : Use) :
    Sound first created prompt
      { s with post := s.post.use u, log := s.notedUse u ++ s.log } := by
  obtain ⟨⟨backend, point, cancelled, held⟩, now, shuttingDown, log⟩ := s
  cases u with
  | start | cancel =>
      exact { h.toTiled with
        window := h.window, averages := h.averages, probes := h.probes, monitored := h.monitored }
  | setHealthy healthy =>
      have hsame : (backend.stats.setHealthy healthy).SameAverages backend.stats := ⟨rfl, rfl⟩
      refine { h.toTiled with
        window := h.window, averages := ?_, probes := h.probes, monitored := h.monitored }
      cases point with
      | drained w elapsed => exact (hsame.recordWindow w elapsed).trans h.averages
      | waiting | ticked | folded | sent | answered | ended => exact hsame.trans h.averages
  | complete latency outcome =>
      have hwindow : backend.transport.window = windowOf (sinceCycle log) := h.window
      have htiled : Tiled created prompt now (.served now latency (Http.isFailure outcome) :: log) :=
        h.toTiled.note rfl rfl
      exact { htiled with
        window := (congrArg (·.record latency (Http.isFailure outcome)) hwindow).trans
          (windowOf_cons _ _ _).symm
        averages := h.averages
        probes := by simpa [notedUse, Use.completion?, Post.use, Entry.isSent, Entry.isOver] using h.probes
        monitored := h.monitored }

/-- After a cycle the monitor waits for the next one as long as after its beginning. -/
theorem clocked_waiting {t : Nat} {b : Backend} {cancelled held shuttingDown : Bool}
    {now : Nat} {m : Monitor} (ht : lastCycle? log = some t) (hm : t + 995000000 ≤ m.deadline) :
    Clocked created prompt ⟨⟨b, .waiting, cancelled, held⟩, now, shuttingDown, log⟩ m := by
  refine ⟨fun hnone => ?_, fun t' ht' => ?_⟩
  · cases ht.symm.trans hnone
  · cases ht.symm.trans ht'
    exact hm

theorem Sound.act (h : Sound first created prompt s) {a : Post.Act} {p : Post}
    (hdue : s.isDue a = true) (hstep : s.post.step? s.shuttingDown a = some p) :
    Sound first created prompt { s with post := p, log := s.noted a p.point ++ s.log } := by
  obtain ⟨point, b, hadvance, rfl⟩ := Post.step_cases hstep
  obtain ⟨⟨backend, point₀, cancelled, held⟩, now, shuttingDown, log⟩ := s
  cases hadvance with
  | @tick m t hm hpoint =>
      cases hpoint
      change backend.monitor = some m at hm
      obtain ⟨rfl, hdue⟩ : t = now ∧ m.deadline ≤ now := by simpa [isDue, hm] using hdue
      obtain ⟨m', hm', hstart, hfirst, hnext⟩ := h.monitored (by simp)
      cases hm.symm.trans hm'
      have hbegin : MayBegin created prompt (lastCycle? log) t :=
        { first := fun hnone => by
            obtain ⟨hdeadline, hprompt⟩ := hfirst hnone
            rw [hdeadline] at hdue hprompt
            exact ⟨hdue, fun hp => Nat.le_antisymm (hprompt hp) hdue⟩
          next := fun t' ht' => Nat.le_trans (hnext t' ht') hdue }
      exact { h.toTiled with
        window := h.window, averages := h.averages, probes := h.probes
        monitored := fun _ => ⟨_, rfl, hstart, hbegin, add_le_nextDeadline hdue⟩ }
  | @drain m t hm hpoint =>
      cases hpoint
      obtain rfl : t = now := by simpa [isDue] using hdue
      obtain ⟨m', hm', hstart, hbegin, hdeadline⟩ := h.monitored (by simp)
      cases hm.symm.trans hm'
      have hlast : lastStart created log ≤ t := h.toTiled.lastStart_le
      have hfollows : Follows created prompt log t (m.elapsed t) backend.transport.window :=
        { hbegin with
          elapsed := by rw [Monitor.elapsed, hstart, Nat.add_sub_cancel' hlast]
          window := h.window
          inRange := h.inRange }
      have htiled : Tiled created prompt t (.cycle t (m.elapsed t) backend.transport.window :: log) :=
        h.toTiled.cons rfl fun _ _ _ hcycle => by cases hcycle; exact hfollows
      exact { htiled with
        window := rfl, averages := h.averages.recordWindow _ _, probes := h.probes
        monitored := fun _ => ⟨_, rfl, rfl, t, rfl, hdeadline⟩ }
  | @fold m w elapsed hm hpoint =>
      cases hpoint
      exact { h.toTiled with
        window := h.window, averages := h.averages, probes := h.probes
        monitored := fun _ => h.monitored (by simp) }
  | mark hm hpoint _ =>
      cases hpoint
      obtain ⟨m, hm, hstart, t, ht, hdeadline⟩ := h.monitored (by simp)
      exact { h.toTiled with
        window := h.window, averages := ⟨h.averages.latency, h.averages.failureRate⟩
        probes := h.probes
        monitored := fun _ => ⟨m, hm, hstart, clocked_waiting ht hdeadline⟩ }
  | @send m hm hpoint _ =>
      cases hpoint
      obtain ⟨m', hm', hmonitored⟩ := h.monitored (by simp)
      cases hm.symm.trans hm'
      have htiled : Tiled created prompt now (.sent now :: log) := h.toTiled.note rfl rfl
      exact { htiled with
        window := h.window, averages := h.averages
        probes := by simpa [noted, inFlight, Entry.isSent, Entry.isOver] using h.probes
        monitored := fun _ => ⟨_, rfl, hmonitored⟩ }
  | answer o hm hpoint =>
      cases hpoint
      have htiled : Tiled created prompt now (.finished now :: log) := h.toTiled.note rfl rfl
      exact { htiled with
        window := h.window, averages := h.averages
        probes := by simpa [noted, inFlight, Entry.isSent, Entry.isOver] using h.probes
        monitored := fun _ => h.monitored (by simp) }
  | @judge m success hm hpoint =>
      cases hpoint
      obtain ⟨m', hm', hstart, t, ht, hdeadline⟩ := h.monitored (by simp)
      cases hm.symm.trans hm'
      exact { h.toTiled with
        window := h.window
        averages := (Stats.recordProbe_sameAverages _ success).trans h.averages
        probes := h.probes
        monitored := fun _ => ⟨_, rfl, hstart, clocked_waiting ht hdeadline⟩ }
  | quit hquit =>
      cases point₀ with
      | sent =>
          have htiled : Tiled created prompt now (.finished now :: log) := h.toTiled.note rfl rfl
          exact { htiled with
            window := h.window, averages := h.averages
            probes := by simpa [noted, inFlight, Entry.isSent, Entry.isOver] using h.probes
            monitored := fun hended => absurd rfl hended }
      | waiting | folded =>
          exact { h.toTiled with
            window := h.window, averages := h.averages, probes := h.probes
            monitored := fun hended => absurd rfl hended }
      | ticked | drained | answered | ended => cases hquit

/-! ## Every run -/

theorem Sound.step (h : Sound first created prompt s) {e : Event} (hstep : s.step? e = some s') :
    Sound first created prompt s' := by
  cases e with
  | act a =>
      rw [step?, Option.ite_none_right_eq_some] at hstep
      obtain ⟨hdue, hmap⟩ := hstep
      obtain ⟨p, hp, rfl⟩ := Option.map_eq_some_iff.mp hmap
      exact h.act hdue hp
  | use u =>
      obtain rfl := Option.some.inj hstep
      exact h.use u
  | cancel | shutDown =>
      obtain rfl := Option.some.inj hstep
      exact { h.toTiled with
        window := h.window, averages := h.averages, probes := h.probes, monitored := h.monitored }

theorem Sound.run (h : Sound first created prompt s) {es : List (Nat × Event)}
    (hrun : s.run? prompt es = some s') : Sound first created prompt s' := by
  induction es generalizing s with
  | nil =>
      obtain rfl := Option.some.inj hrun
      exact h
  | cons te es ih =>
      obtain ⟨t, e⟩ := te
      rw [run?, Option.ite_none_right_eq_some] at hrun
      obtain ⟨hpass, hrun⟩ := hrun
      obtain ⟨s₁, hstep, hrun⟩ := Option.bind_eq_some_iff.mp hrun
      exact ih ((h.later hpass).step hstep) hrun

theorem sound_start {d : Description} {ctx : Context} (hmonitored : ctx.settings.unmonitored = false)
    (hlimit : created < Duration.limit) :
    Sound (Backend.start d ctx created).stats created prompt
      (start (Backend.start d ctx created) created) := by
  have hmonitor : (Backend.start d ctx created).monitor =
      some (.create created ctx.stopsOnShutdown) := by
    simp [Backend.start, hmonitored]
  have hpoint : (start (Backend.start d ctx created) created).post.point = .waiting := by
    simp [start, Post.ofBackend, Post.Point.ofBackend, hmonitor, Monitor.create]
  refine
    { sorted := List.Pairwise.nil, past := List.forall_mem_nil _, created_le := Nat.le_refl created
      inRange := hlimit, cycles := fun later t elapsed w earlier hsplit => ?_
      window := rfl, averages := ?_, probes := ?_, monitored := fun _ => ⟨_, hmonitor, rfl, ?_⟩ }
  · cases later <;> cases hsplit
  · rw [settled, hpoint]
    exact ⟨rfl, rfl⟩
  · rw [hpoint]
    rfl
  · rw [Clocked, hpoint]
    exact ⟨fun _ => ⟨rfl, fun _ => Nat.le_add_right _ _⟩, fun _ ht => by cases ht⟩

/-- The first cycle of a prompt monitor that has not stopped does not fail to begin. -/
theorem Sound.begun (h : Sound first created true s) (hpoint : s.post.point ≠ .ended)
    (hnow : created + 1000000000 < s.now) : lastCycle? s.log ≠ none := by
  intro hnone
  obtain ⟨m, -, -, hclock⟩ := h.monitored hpoint
  cases hp : s.post.point with
  | waiting =>
      rw [Clocked, hp] at hclock
      obtain ⟨hdeadline, hprompt⟩ := hclock.1 hnone
      have := hprompt rfl
      omega
  | ticked =>
      rw [Clocked, hp] at hclock
      have := (hclock.1.first hnone).2 rfl
      omega
  | drained | folded | sent | answered =>
      rw [Clocked, hp] at hclock
      obtain ⟨t, ht, -⟩ := hclock
      cases hnone.symm.trans ht
  | ended => exact hpoint hp

/-- Time between two cycles is so long that it is divided by as it is. -/
theorem Follows.raiseTo_elapsed {t elapsed : Nat} {w : Window}
    (h : Follows created prompt log t elapsed w) :
    raiseTo Stats.elapsedFloor (secondsOfNanos elapsed : Float) = secondsOfNanos elapsed := by
  have hsum := h.elapsed
  have hlow : 995000000 ≤ elapsed := by
    cases hlast : lastCycle? log with
    | none =>
        have hfirst := (h.first hlast).1
        simp only [lastStart, hlast, Option.getD_none] at hsum
        omega
    | some t' =>
        have hnext := h.next t' hlast
        simp only [lastStart, hlast, Option.getD_some] at hsum
        omega
  exact raiseTo_elapsedFloor hlow (by have := h.inRange; omega)

/-- However long probes take and whenever requests come, the cycles of a monitor tile the time from
the creation of its backend to the last cycle: each takes up the time since the one before and the
requests completed in that time, and these it folds into the averages. There is one probe in flight
at most. -/
theorem run?_tiled {d : Description} {ctx : Context} {b : Backend} {es : List (Nat × Event)}
    (hcreate : create d ctx created = .ok b) (hmonitored : ctx.settings.unmonitored = false)
    (hlimit : created < Duration.limit) (hrun : (start b created).run? prompt es = some s) :
    (∀ later t elapsed w earlier, s.log = later ++ .cycle t elapsed w :: earlier →
      Follows created prompt earlier t elapsed w ∧
        raiseTo Stats.elapsedFloor (secondsOfNanos elapsed : Float) = secondsOfNanos elapsed) ∧
    created + (s.log.filterMap Entry.elapsed?).sum = lastStart created s.log ∧
    (prompt = true → s.post.point ≠ .ended → created + 1000000000 < s.now →
      lastCycle? s.log ≠ none) ∧
    (s.log.countP (·.isSent) = s.log.countP (·.isOver) ∨
      s.log.countP (·.isSent) = s.log.countP (·.isOver) + 1) ∧
    s.settled.SameAverages (foldedInto b.stats s.log) ∧
    s.post.backend.transport.window = windowOf (sinceCycle s.log) ∧
    s.log.Pairwise fun e e' => e'.time ≤ e.time := by
  obtain ⟨-, rfl⟩ := create_eq_ok_iff.mp hcreate
  have h : Sound _ created prompt s := (sound_start hmonitored hlimit).run hrun
  refine ⟨fun later t elapsed w earlier hsplit => ?_, ?_, ?_, ?_, h.averages, h.window, h.sorted⟩
  · have hfollows := h.cycles later t elapsed w earlier hsplit
    exact ⟨hfollows, hfollows.raiseTo_elapsed⟩
  · exact sum_elapsed fun later t elapsed w earlier hsplit =>
      (h.cycles later t elapsed w earlier hsplit).elapsed
  · rintro rfl
    exact h.begun
  · have hprobes := h.probes
    cases hp : s.post.point with
    | sent => exact .inr (by rwa [hp] at hprobes)
    | waiting | ticked | drained | folded | answered | ended => exact .inl (by rwa [hp] at hprobes)

/-- A probe that is answered after more than two seconds delays the second cycle, which then takes up
these seconds and the request that was completed meanwhile. -/
theorem run?_tiled_overrun :
    let d : Description := .ephemeral "a" "a" "10.0.0.1:80" "http://10.0.0.1:80/health"
    let ctx : Context := ⟨{}, false⟩
    let es : List (Nat × Event) :=
      [(0, .use .start), (1000000000, .act (.tick 1000000000)),
        (1000000000, .act (.drain 1000000000)), (1000000000, .act .fold),
        (1000000000, .act .send), (1500000000, .use (.complete 1500000000 (.ok .unavailable))),
        (3300000000, .act (.answer (.ok .ok))), (3300000000, .act .judge),
        (3300000000, .act (.tick 3300000000)), (3300000000, .act (.drain 3300000000)),
        (3300000000, .act .fold), (3300000000, .act .send)]
    ∃ b s, create d ctx 0 = .ok b ∧ ctx.settings.unmonitored = false ∧ 0 < Duration.limit ∧
      (start b 0).run? true es = some s ∧
      s.log.filterMap Entry.start? = [3300000000, 1000000000] ∧
      s.log.filterMap Entry.elapsed? = [2300000000, 1000000000] ∧
      lastStart 0 s.log = 0 + (2300000000 + 1000000000) ∧
      s.settled.SameAverages
        ((b.stats.recordWindow ⟨0, 0, 0⟩ 1000000000).recordWindow ⟨1, 1, 1500000000⟩ 2300000000) := by
  intro d ctx es
  have hcreate : create d ctx 0 = .ok (Backend.start d ctx 0) :=
    create_eq_ok_iff.mpr ⟨by decide +kernel, rfl⟩
  have hlog : ((start (Backend.start d ctx 0) 0).run? true es).map (·.log) =
      some [.sent 3300000000, .cycle 3300000000 2300000000 ⟨1, 1, 1500000000⟩, .finished 3300000000,
        .served 1500000000 1500000000 true, .sent 1000000000,
        .cycle 1000000000 1000000000 ⟨0, 0, 0⟩] := by
    decide +kernel
  obtain ⟨s, hrun, hs⟩ := Option.map_eq_some_iff.mp hlog
  obtain ⟨-, hsum, -, -, haverages, -, -⟩ := run?_tiled hcreate rfl (by decide) hrun
  rw [hs] at hsum haverages
  refine ⟨_, s, hcreate, rfl, by decide, hrun, ?_, ?_, ?_, haverages⟩
  · rw [hs]
    rfl
  · rw [hs]
    rfl
  · rw [hs]
    exact hsum.symm

end Beat

end ReverseProxy.Backend
