import Mathlib.Data.List.TakeWhile
import ReverseProxy.Proofs.Backend.Health
import ReverseProxy.Proofs.Fleet.Closed

/-!
# What counts against a backend

Requests and probes are judged alike: no answer counts as a failure, and an answer does if its status
is in the class of server errors. A status of 600 or more is in no class, and does not count. Beside a
run stands the record of one backend: which requests were completed since its window was last drained,
and what has moved its health. The window and the health are what the record calls for.
-/

namespace ReverseProxy

namespace Http

/-- Whether there is no answer, for an error or a timeout, or one with a status of 500 or more. -/
def Faulty : Outcome Status → Prop
  | .ok s => 500 ≤ s.code
  | .error _ => True

/-- Whether there is no answer, or one with a status in the class of server errors. -/
def Charged : Outcome Status → Prop
  | .ok s => 500 ≤ s.code ∧ s.code < 600
  | .error _ => True

instance : DecidablePred Faulty
  | .ok s => inferInstanceAs (Decidable (500 ≤ s.code))
  | .error _ => inferInstanceAs (Decidable True)

instance : DecidablePred Charged
  | .ok s => inferInstanceAs (Decidable (500 ≤ s.code ∧ s.code < 600))
  | .error _ => inferInstanceAs (Decidable True)

theorem isFailure_eq (o : Outcome Status) : isFailure o = decide (Charged o) := by
  cases o with
  | error e => rfl
  | ok s =>
      have hclass : s.code / 100 = 5 ↔ 500 ≤ s.code ∧ s.code < 600 := by omega
      exact decide_eq_decide.mpr hclass

theorem charged_iff (o : Outcome Status) :
    Charged o ↔ Faulty o ∧ ∀ s, o = .ok s → s.code < 600 := by
  cases o with
  | error e => simp [Charged, Faulty]
  | ok s => simp [Charged, Faulty]

end Http

namespace Backend.HealthEvent

variable {es : List HealthEvent}

/-- Without overrides, what counts is whether any probe succeeded. -/
theorem recovered_iff_mem (hes : ∀ e ∈ es, e.override? = none) :
    Recovered es ↔ probe true ∈ es := by
  have hall : es.reverse.takeWhile (·.override?.isNone) = es.reverse :=
    List.takeWhile_eq_self_iff.mpr fun e he => by simp [hes e (List.mem_reverse.mp he)]
  rw [Recovered, hall, List.mem_reverse]

theorem lastSaid_of_no_override (first : Bool) (hes : ∀ e ∈ es, e.override? = none) :
    lastSaid first es = first := by
  have hnone : es.reverse.findSome? override? = none :=
    List.findSome?_eq_none_iff.mpr fun e he => hes e (List.mem_reverse.mp he)
  rw [lastSaid, hnone, Option.getD_none]

end Backend.HealthEvent

namespace Backend.Stats

variable {α : Type} [Scalar α] (s : Stats α) (w : Window) (elapsed : Nat)

theorem recordWindow_failures : (s.recordWindow w elapsed).failures = s.failures := by
  unfold recordWindow
  split <;> rfl

theorem recordWindow_healthy : (s.recordWindow w elapsed).healthy = s.healthy := by
  unfold recordWindow
  split <;> rfl

end Backend.Stats

namespace Fleet

open Backend (Post HealthEvent Stats)
open Backend.HealthEvent (failuresAtEnd Recovered lastSaid)
open Http (Outcome Status Charged Faulty)

/-! ## The record of a backend -/

/-- What a run has come to for one backend. -/
structure Record where
  /-- What the requests came to that were completed since the window was last drained. -/
  completed : List (Outcome Status) := []
  /-- The answer to a probe that has still to be judged. -/
  answer : Option (Outcome Status) := none
  /-- What has moved the health: the answers that were judged, and overrides. -/
  past : List HealthEvent := []

namespace Record

/-- What an answer to a probe means for the health. -/
def verdict (o : Outcome Status) : HealthEvent := .probe (!decide (Charged o))

def used (r : Record) : Backend.Use → Record
  | .complete _ o => { r with completed := r.completed ++ [o] }
  | .setHealthy healthy => { r with past := r.past ++ [.override healthy] }
  | .start | .cancel => r

def acted (r : Record) : Post.Act → Record
  | .drain _ => { r with completed := [] }
  | .answer o => { r with answer := some o }
  | .judge => { r with answer := none, past := r.past ++ r.answer.toList.map verdict }
  | _ => r

def next (h : Handle) (r : Record) : Event → Record
  | .use i u => if i = h then r.used u else r
  | .act i a => if i = h then r.acted a else r
  | _ => r

/-- The record of a backend that was created right before some events. -/
def ofEvents (h : Handle) (es : List Event) : Record := es.foldl (next h) {}

end Record

namespace Record

variable {h : Handle} {es : List Event}

/-- Who leaves the health of a backend alone leaves no overrides in its record. -/
theorem no_override (hes : ∀ healthy, .use h (.setHealthy healthy) ∉ es) {r : Record}
    (hr : ∀ e ∈ r.past, e.override? = none) :
    ∀ e ∈ (es.foldl (next h) r).past, e.override? = none := by
  induction es generalizing r with
  | nil => exact hr
  | cons e es ih =>
      refine ih (fun healthy hmem => hes healthy (List.mem_cons_of_mem e hmem)) ?_
      cases e with
      | use i u =>
          by_cases hi : i = h
          · subst hi
            cases u with
            | setHealthy healthy => exact absurd List.mem_cons_self (hes healthy)
            | _ => simpa [next, used] using hr
          · simpa [next, hi] using hr
      | act i a =>
          by_cases hi : i = h
          · subst hi
            cases a with
            | judge =>
                intro e he
                simp only [next, if_true, acted, List.mem_append, List.mem_map] at he
                rcases he with he | ⟨o, -, rfl⟩
                · exact hr e he
                · rfl
            | _ => simpa [next, acted] using hr
          · simpa [next, hi] using hr
      | _ => simpa [next] using hr

end Record

/-- The window and the health of a backend, as its record calls for them. -/
structure Recorded (url : String) (first : Bool) (r : Record) (p : Post) : Prop where
  healthUrl : p.backend.healthUrl = url
  requests : p.backend.transport.window.requests = r.completed.length
  errors : p.backend.transport.window.errors = r.completed.countP (Charged ·)
  answer : ∀ success, p.point = .answered success →
    ∃ o, r.answer = some o ∧ success = !decide (Charged o)
  health : url ≠ "" → p.backend.stats.Follows first r.past

namespace Recorded

variable {url : String} {first : Bool} {r : Record} {p p' : Post}

theorem ofBackend {d : Backend.Description} {ctx : Backend.Context} {now : Nat} :
    Recorded d.healthUrl (ctx.settings.unmonitored || d.healthUrl = "") {}
      (.ofBackend (Backend.start d ctx now)) where
  healthUrl := rfl
  requests := rfl
  errors := rfl
  answer := by
    intro success hpoint
    simp only [Post.ofBackend, Post.Point.ofBackend] at hpoint
    split at hpoint
    · cases hpoint
    · split at hpoint <;> cases hpoint
  health := by
    intro _
    have hfirst : (!!ctx.settings.unmonitored || decide (d.healthUrl = "")) =
        (ctx.settings.unmonitored || decide (d.healthUrl = "")) := by rw [Bool.not_not]
    rw [← hfirst]
    exact Stats.follows_initial _ _

/-- What leaves the window and the health alone, and brings no answer. -/
theorem of_eq (hr : Recorded url first r p)
    (hpoint : ∀ success, p'.point = .answered success → p.point = .answered success)
    (hurl : p'.backend.healthUrl = p.backend.healthUrl)
    (hwindow : p'.backend.transport.window = p.backend.transport.window)
    (hfailures : p'.backend.stats.failures = p.backend.stats.failures)
    (hhealthy : url ≠ "" → p'.backend.stats.healthy = p.backend.stats.healthy) :
    Recorded url first r p' where
  healthUrl := hurl.trans hr.healthUrl
  requests := hwindow ▸ hr.requests
  errors := hwindow ▸ hr.errors
  answer := fun success hp' => hr.answer success (hpoint success hp')
  health := fun hne =>
    ⟨hfailures.trans (hr.health hne).failures, hhealthy hne ▸ (hr.health hne).healthy⟩

theorem use (hr : Recorded url first r p) (u : Backend.Use) :
    Recorded url first (r.used u) (p.use u) := by
  cases u with
  | start => exact hr.of_eq (fun _ => id) rfl rfl rfl fun _ => rfl
  | cancel => exact hr.of_eq (fun _ => id) rfl rfl rfl fun _ => rfl
  | complete latency o =>
      refine ⟨hr.healthUrl, ?_, ?_, hr.answer, hr.health⟩
      · simp [Record.used, Post.use, Backend.after, Backend.completeRequest,
          Backend.Transport.complete, Backend.Window.record, hr.requests]
      · simp only [Record.used, Post.use, Backend.after, Backend.completeRequest,
          Backend.Transport.complete, Backend.Window.record, hr.errors, List.countP_append,
          List.countP_singleton, Http.isFailure_eq]
        cases decide (Charged o) <;> rfl
  | setHealthy healthy =>
      exact ⟨hr.healthUrl, hr.requests, hr.errors, hr.answer,
        fun hne => (hr.health hne).apply (.override healthy)⟩

theorem act {shuttingDown : Bool} {a : Post.Act} (hr : Recorded url first r p)
    (ha : p.step? shuttingDown a = some p') : Recorded url first (r.acted a) p' := by
  obtain ⟨point, b, hadvance, rfl⟩ := Post.step_cases ha
  cases hadvance with
  | tick now => exact hr.of_eq (fun _ hs => by cases hs) rfl rfl rfl fun _ => rfl
  | drain now => exact ⟨hr.healthUrl, rfl, rfl, fun _ hs => (by cases hs), hr.health⟩
  | @fold m w elapsed =>
      refine hr.of_eq (fun _ hs => by cases hs) rfl rfl ?_ fun _ => ?_
      · exact p.backend.stats.recordWindow_failures w elapsed
      · exact p.backend.stats.recordWindow_healthy w elapsed
  | mark hm hpoint hprobes =>
      refine hr.of_eq (fun _ hs => by cases hs) rfl rfl rfl fun hne => ?_
      simp [Backend.probes, hr.healthUrl, hne] at hprobes
  | send => exact hr.of_eq (fun _ hs => by cases hs) rfl rfl rfl fun _ => rfl
  | answer o =>
      refine ⟨hr.healthUrl, hr.requests, hr.errors, fun success hs => ⟨o, rfl, ?_⟩, hr.health⟩
      cases hs
      rw [Http.isFailure_eq]
  | judge hm hpoint =>
      obtain ⟨o, hanswer, rfl⟩ := hr.answer _ hpoint
      refine ⟨hr.healthUrl, hr.requests, hr.errors, fun _ hs => (by cases hs), fun hne => ?_⟩
      simp only [Record.acted, hanswer]
      exact (hr.health hne).apply (Record.verdict o)
  | quit => exact hr.of_eq (fun _ hs => by cases hs) rfl rfl rfl fun _ => rfl

theorem healthy_iff (hr : Recorded url false r p) (hurl : url ≠ "")
    (halone : ∀ e ∈ r.past, e.override? = none) :
    p.backend.isHealthy = true ↔ .probe true ∈ r.past ∧ failuresAtEnd r.past ≤ 5 := by
  rw [Backend.isHealthy, (hr.health hurl).healthy, HealthEvent.recovered_iff_mem halone,
    HealthEvent.lastSaid_of_no_override false halone, or_iff_left Bool.false_ne_true, and_comm]
  rfl

/-- A healthy backend turns unhealthy with the sixth charged answer in a row, and an unhealthy one
healthy with the first other answer. -/
theorem judged {shuttingDown : Bool} (hr : Recorded url first r p) (hurl : url ≠ "")
    (ha : p.step? shuttingDown .judge = some p') :
    ∃ o, r.answer = some o ∧
      p'.backend.stats.failures = (if Charged o then p.backend.stats.failures + 1 else 0) ∧
      (p.backend.isHealthy = true →
        (p'.backend.isHealthy = false ↔ Charged o ∧ failuresAtEnd r.past = 5)) ∧
      (p.backend.isHealthy = false → (p'.backend.isHealthy = true ↔ ¬ Charged o)) := by
  obtain ⟨point, b, hadvance, rfl⟩ := Post.step_cases ha
  cases hadvance with
  | judge hm hpoint =>
      obtain ⟨o, hanswer, rfl⟩ := hr.answer _ hpoint
      have hfollows := hr.health hurl
      have hturned := p.backend.stats.recordProbe_healthy (!decide (Charged o))
      refine ⟨o, hanswer, ?_, fun hhealthy => ?_, fun hunhealthy => ?_⟩
      · rw [Stats.recordProbe_failures]
        by_cases ho : Charged o <;> simp [ho]
      · -- A healthy backend has a streak of at most five behind it.
        have hstreak : failuresAtEnd r.past ≤ 5 := (hfollows.healthy.mp hhealthy).1
        rw [Backend.isHealthy] at hhealthy ⊢
        rw [hturned, hhealthy, hfollows.failures]
        by_cases ho : Charged o
        · have hmax : Backend.maxFailures = 5 := rfl
          simp only [ho, decide_true, Bool.not_true, Bool.false_or, Bool.true_and,
            decide_eq_false_iff_not, true_and]
          omega
        · simp [ho]
      · rw [Backend.isHealthy] at hunhealthy ⊢
        rw [hturned, hunhealthy]
        by_cases ho : Charged o <;> simp [ho]

end Recorded

/-! ## Runs -/

namespace Session

variable {url : String} {first : Bool} {r : Record} {p : Post} {s s' : Session} {h : Handle}

theorem getElem?_updatePost_self (hp : s.posts[h]? = some p) (g : Post → Post) :
    (s.updatePost h g).posts[h]? = some (g p) := by
  rw [getElem?_updatePost, hp, Option.map_some, if_pos rfl]

/-- What is done with a backend goes into its record, and what is done with others does not. -/
theorem recorded_step? {e : Event} (hp : s.posts[h]? = some p) (hr : Recorded url first r p)
    (hstep : s.step? e = some s') :
    ∃ p', s'.posts[h]? = some p' ∧ Recorded url first (r.next h e) p' := by
  have hkept {p' : Post} (hpoint : p'.point = p.point) (hbackend : p'.backend = p.backend) :
      Recorded url first r p' :=
    hr.of_eq (fun _ h => hpoint ▸ h) (by rw [hbackend]) (by rw [hbackend]) (by rw [hbackend])
      fun _ => by rw [hbackend]
  cases e with
  | create d ctx now =>
      refine ⟨p, ?_, hr⟩
      cases hstep
      cases Backend.create d ctx now with
      | error e => exact hp
      | ok b => exact (List.getElem?_append_left (List.getElem?_eq_some_iff.mp hp).1).trans hp
  | act i a =>
      obtain ⟨q, hq, hstep⟩ := Option.bind_eq_some_iff.mp hstep
      obtain ⟨q', ha, hstep⟩ := Option.bind_eq_some_iff.mp hstep
      cases hstep
      by_cases hi : i = h
      · subst hi
        cases hq.symm.trans hp
        refine ⟨q', getElem?_updatePost_self hp _, ?_⟩
        simpa only [Record.next, if_true] using hr.act ha
      · refine ⟨p, (s.getElem?_updatePost i _ h).trans (by simp [hp, hi]), ?_⟩
        simpa only [Record.next, hi, if_false] using hr
  | use i u =>
      cases hstep
      by_cases hi : i = h
      · subst hi
        refine ⟨p.use u, getElem?_updatePost_self hp _, ?_⟩
        simpa only [Record.next, if_true] using hr.use u
      · refine ⟨p, (s.getElem?_updatePost i _ h).trans (by simp [hp, hi]), ?_⟩
        simpa only [Record.next, hi, if_false] using hr
  | close o =>
      cases hstep
      exact ⟨p, hp, hr⟩
  | proceed i =>
      obtain ⟨c, -, hstep⟩ := Option.bind_eq_some_iff.mp hstep
      obtain ⟨p', hp', hpoint, hbackend⟩ := exists_proceed? hp hstep
      exact ⟨p', hp', hkept hpoint hbackend⟩
  | drop i =>
      cases hstep
      obtain ⟨p', hp', hpoint, hbackend⟩ := exists_updatePost (g := Post.cancel) hp
        (fun _ => rfl) (fun _ => rfl)
      exact ⟨p', hp', hkept hpoint hbackend⟩
  | shutDown =>
      cases hstep
      exact ⟨p, hp, hr⟩

theorem recorded_create {d : Backend.Description} {ctx : Backend.Context} {now : Nat}
    (hd : d.check = .ok ()) (hstep : s.step? (.create d ctx now) = some s') :
    ∃ p, s'.posts[s.posts.length]? = some p ∧
      Recorded d.healthUrl (ctx.settings.unmonitored || d.healthUrl = "") {} p := by
  have hcreate : Backend.create d ctx now = .ok (Backend.start d ctx now) := by
    simp [Backend.create, hd, bind, Except.bind, pure, Except.pure]
  simp only [step?, hcreate, Option.some.injEq] at hstep
  subst hstep
  exact ⟨_, List.getElem?_concat_length, .ofBackend⟩

theorem recorded_run? {es : List Event} (hp : s.posts[h]? = some p) (hr : Recorded url first r p)
    (hrun : s.run? es = some s') :
    ∃ p', s'.posts[h]? = some p' ∧ Recorded url first (es.foldl (Record.next h) r) p' := by
  induction es generalizing s p r with
  | nil =>
      cases hrun
      exact ⟨p, hp, hr⟩
  | cons e es ih =>
      obtain ⟨s₁, hstep, hrest⟩ := Option.bind_eq_some_iff.mp hrun
      obtain ⟨p₁, hp₁, hr₁⟩ := recorded_step? hp hr hstep
      exact ih hp₁ hr₁ hrest

/-- Whatever happens to a backend and around it, no answer counts as a failure, and an answer does if
its status is at least 500 and below 600. The errors of the window are the requests that came to such
an outcome since it was last drained. If the backend is monitored and has a health URL, its streak is
the number of probes at the end that came to one; left alone by overrides, it is healthy exactly if
some probe came to none and the streak is at most five. A healthy backend turns unhealthy at the sixth
of them in a row, and an unhealthy one healthy at the first other probe. -/
theorem run?_charged {d : Backend.Description} {ctx : Backend.Context} {now : Nat}
    {es : List Event} (hd : d.check = .ok ())
    (hrun : s.run? (.create d ctx now :: es) = some s') :
    let h := s.posts.length
    let r := Record.ofEvents h es
    (∀ o, Http.isFailure o = true ↔ Charged o) ∧
      (∀ o, Charged o ↔ Faulty o ∧ ∀ a, o = .ok a → a.code < 600) ∧
      ∃ p, s'.posts[h]? = some p ∧
        p.backend.transport.window.requests = r.completed.length ∧
        p.backend.transport.window.errors = r.completed.countP (Charged ·) ∧
        (ctx.settings.unmonitored = false → d.healthUrl ≠ "" →
          p.backend.stats.failures = failuresAtEnd r.past ∧
          ((∀ healthy, .use h (.setHealthy healthy) ∉ es) →
            (p.backend.isHealthy = true ↔ .probe true ∈ r.past ∧ failuresAtEnd r.past ≤ 5)) ∧
          ∀ s'', s'.step? (.act h .judge) = some s'' → ∃ o p'', r.answer = some o ∧
            s''.posts[h]? = some p'' ∧
            p''.backend.stats.failures = (if Charged o then p.backend.stats.failures + 1 else 0) ∧
            (p.backend.isHealthy = true →
              (p''.backend.isHealthy = false ↔ Charged o ∧ failuresAtEnd r.past = 5)) ∧
            (p.backend.isHealthy = false → (p''.backend.isHealthy = true ↔ ¬ Charged o))) := by
  intro h r
  obtain ⟨s₁, hstep, hrest⟩ := Option.bind_eq_some_iff.mp hrun
  obtain ⟨p₁, hp₁, hr₁⟩ := recorded_create hd hstep
  obtain ⟨p, hp, hr⟩ := recorded_run? hp₁ hr₁ hrest
  refine ⟨fun o => by rw [Http.isFailure_eq, decide_eq_true_eq], Http.charged_iff, p, hp,
    hr.requests, hr.errors, fun hmonitored hurl => ?_⟩
  have hfirst : (ctx.settings.unmonitored || decide (d.healthUrl = "")) = false := by
    simp [hmonitored, hurl]
  rw [hfirst] at hr
  refine ⟨(hr.health hurl).failures, fun halone => ?_, fun s'' hjudge => ?_⟩
  · exact hr.healthy_iff hurl (Record.no_override halone nofun)
  · obtain ⟨q, hq, hact⟩ := Option.bind_eq_some_iff.mp hjudge
    obtain ⟨p'', ha, hpure⟩ := Option.bind_eq_some_iff.mp hact
    cases hpure
    rw [hp, Option.some.injEq] at hq
    subst hq
    obtain ⟨o, hanswer, hturned⟩ := hr.judged hurl ha
    exact ⟨o, p'', hanswer, getElem?_updatePost_self hp _, hturned⟩

/-- A backend that answers its first probe turns unhealthy with the sixth one in a row that comes to
nothing: five answers with status 503, and then a timeout. -/
theorem run?_charged_timeout :
    let d : Backend.Description := .ephemeral "a" "a" "10.0.0.1:80" "http://10.0.0.1:80/health"
    let ctx : Backend.Context := ⟨{}, false⟩
    let probe (o : Outcome Status) : List Event :=
      [.act 0 (.tick 0), .act 0 (.drain 0), .act 0 .fold, .act 0 .send, .act 0 (.answer o)]
    let es : List Event :=
      probe (.ok .ok) ++ [.act 0 .judge, .use 0 .start, .use 0 (.complete 5 (.ok .unavailable))] ++
        (List.replicate 5 (probe (.ok .unavailable) ++ [.act 0 .judge])).flatten ++
        probe (.error (.timeout .oneSecond))
    d.check = .ok () ∧ ∃ s s' p p', ({} : Session).run? (.create d ctx 0 :: es) = some s ∧
      s.step? (.act 0 .judge) = some s' ∧ s.posts[0]? = some p ∧ s'.posts[0]? = some p' ∧
      p.backend.isHealthy = true ∧ p.backend.stats.failures = 5 ∧ p'.backend.isHealthy = false ∧
      p'.backend.stats.failures = 6 := by
  intro d ctx probe es
  have hd : d.check = .ok () := by decide +kernel
  have hview : (({} : Session).run? (.create d ctx 0 :: es)).map
      (fun s => (s.step? (.act 0 .judge)).isSome) = some true := by decide +kernel
  obtain ⟨s, hrun, hsome⟩ := Option.map_eq_some_iff.mp hview
  obtain ⟨s', hjudge⟩ := Option.isSome_iff_exists.mp hsome
  have hlogged : (Record.ofEvents 0 es).answer = some (.error (.timeout .oneSecond)) ∧
      .probe true ∈ (Record.ofEvents 0 es).past ∧ failuresAtEnd (Record.ofEvents 0 es).past = 5 := by
    decide +kernel
  obtain ⟨-, -, p, hp, -, -, hhealth⟩ := run?_charged hd hrun
  obtain ⟨hfailures, halone, hturned⟩ := hhealth rfl (by decide)
  have hhealthy : p.backend.isHealthy = true := by
    refine (halone fun healthy hmem => ?_).mpr ⟨hlogged.2.1, Nat.le_of_eq hlogged.2.2⟩
    simp [es, probe] at hmem
  obtain ⟨o, p', hanswer, hp', hstreak, hdown, -⟩ := hturned s' hjudge
  have ho : Charged o := by
    rw [Option.some.inj (hanswer.symm.trans hlogged.1)]
    trivial
  refine ⟨hd, s, s', p, p', hrun, hjudge, hp, hp', hhealthy, hfailures.trans hlogged.2.2, ?_, ?_⟩
  · exact (hdown hhealthy).mpr ⟨ho, hlogged.2.2⟩
  · rw [hstreak, if_pos ho, hfailures.trans hlogged.2.2]

/-- A status of 600 is a server's fault, but it counts neither in the window nor for the health: the
only probe, answered with it, makes the backend healthy, and the request leaves no error. -/
theorem run?_unclassed :
    let d : Backend.Description := .ephemeral "a" "a" "10.0.0.1:80" "http://10.0.0.1:80/health"
    let o : Outcome Status := .ok ⟨600, by decide⟩
    let es : List Event :=
      [.create d ⟨{}, false⟩ 0, .act 0 (.tick 0), .act 0 (.drain 0), .act 0 .fold, .act 0 .send,
        .act 0 (.answer o), .act 0 .judge, .use 0 .start, .use 0 (.complete 5 o)]
    Faulty o ∧ (({} : Session).run? es).bind (fun s => (s.posts[0]?).map fun p =>
        (p.backend.transport.window, p.backend.stats.failures, p.backend.isHealthy)) =
      some (⟨1, 0, 5⟩, 0, true) := by
  decide +kernel

end Session

end Fleet

end ReverseProxy
