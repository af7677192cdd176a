import ReverseProxy.Proofs.Fleet.Closing

/-!
# Backends that are closed

A close that nothing comes between makes of the fleet what it is known to make of it. After a close
of a backend has returned and no other has its monitor in its hands, the monitor does nothing any
more, whatever happens. A close that overlaps another returns before that.
-/

namespace ReverseProxy.Fleet

open Backend (Post)

theorem close_of_unmonitored {f : Fleet} {h : Handle} {b : Backend} (hb : f.get? h = some b)
    (hm : b.monitor = none) : f.close h = f := by
  refine congrArg (Fleet.mk · f.shuttingDown) (List.ext_getElem? fun i => ?_)
  rw [List.getElem?_modify]
  by_cases hi : h = i
  · subst hi
    have hb : f.backends[h]? = some b := hb
    simp [hb, Backend.close, ← hm]
  · simp [hi]

namespace Session

variable {s s' : Session} {h : Handle} {i : Nat} {c : Call} {hs' : List Handle}

/-! ## Closes that nothing comes between -/

/-- Whether the monitor of a backend stands where it is known to stand between its changes. -/
structure Resting (p : Post) : Prop where
  point : p.point = .ofBackend p.backend
  held : p.held = p.backend.monitor.isSome

/-- A backend whose monitor has been taken and has ended. -/
def stopped (p : Post) : Post :=
  { backend := p.backend.close, point := .ended, cancelled := true, held := false }

theorem fleet_stopped {p : Post} (s : Session) (hp : s.posts[h]? = some p) :
    (s.updatePost h fun _ => stopped p).fleet = s.fleet.close h := by
  refine congrArg (Fleet.mk · s.shuttingDown) (List.ext_getElem? fun i => ?_)
  rw [List.getElem?_map, getElem?_updatePost]
  simp only [fleet, List.getElem?_modify, List.getElem?_map]
  by_cases hi : h = i
  · subst hi
    simp [hp, stopped]
  · simp [hi]

theorem calls_setCall (hi : s.calls[i]? = some c) (c' : Call) :
    (s.setCall i c').calls[i]? = some c' :=
  List.getElem?_set_self (List.getElem?_eq_some_iff.mp hi).1

theorem proceed_eq (hi : s.calls[i]? = some c) : s.step? (.proceed i) = s.proceed? i c := by
  simp [step?, hi]

/-- A call takes the monitor of a resting backend, asks it to stop and sees it end. -/
theorem run?_stop {p : Post} (hi : s.calls[i]? = some ⟨.ready, h :: hs'⟩)
    (hp : s.posts[h]? = some p) (hrest : Resting p) (hheld : p.held = true) :
    s.run? [.proceed i, .proceed i, .act h .quit, .proceed i] =
      some (((s.updatePost h fun _ => stopped p).return_ h).setCall i ⟨.ready, hs'⟩) := by
  let s₁ := (s.updatePost h Post.take).setCall i ⟨.taken h, hs'⟩
  let s₂ := (s₁.updatePost h Post.cancel).setCall i ⟨.awaiting h, hs'⟩
  let s₃ := s₂.updatePost h fun _ => stopped p
  have hi₁ : s₁.calls[i]? = some ⟨.taken h, hs'⟩ :=
    calls_setCall (s := s.updatePost h Post.take) hi _
  have hi₂ : s₂.calls[i]? = some ⟨.awaiting h, hs'⟩ :=
    calls_setCall (s := s₁.updatePost h Post.cancel) hi₁ _
  have hp₁ : s₁.posts[h]? = some p.take :=
    (s.getElem?_updatePost h Post.take h).trans (by simp [hp])
  have hp₂ : s₂.posts[h]? = some p.take.cancel :=
    (s₁.getElem?_updatePost h Post.cancel h).trans (by simp [hp₁])
  have hp₃ : s₃.posts[h]? = some (stopped p) :=
    (s₂.getElem?_updatePost h (fun _ => stopped p) h).trans (by simp [hp₂])
  have htake : s.step? (.proceed i) = some s₁ := by
    rw [proceed_eq hi]
    simp [proceed?, hp, hheld, s₁]
  have hcancel : s₁.step? (.proceed i) = some s₂ := proceed_eq hi₁
  have hquit : s₂.step? (.act h .quit) = some s₃ := by
    obtain ⟨m, hm⟩ := Option.isSome_iff_exists.mp (hrest.held.symm.trans hheld)
    have hpoint := hrest.point
    simp only [Post.Point.ofBackend, hm] at hpoint
    have hmay : p.take.cancel.mayQuit s.shuttingDown = true := by
      split at hpoint
      · simp [Post.mayQuit, Post.take, Post.cancel, hpoint]
      · simp [Post.mayQuit, Post.take, Post.cancel, hpoint]
    have hstop : p.take.cancel.step? s₂.shuttingDown .quit = some (stopped p) := by
      simp only [Post.step?, Post.advance?, s₂, s₁, updatePost, setCall, hmay, if_true]
      rfl
    simp only [step?, hp₂, bind, Option.bind_some, hstop]
    rfl
  have hreturn : s₃.step? (.proceed i) = some ((s₃.return_ h).setCall i ⟨.ready, hs'⟩) := by
    rw [proceed_eq (s := s₃) (c := ⟨.awaiting h, hs'⟩) hi₂]
    simp [proceed?, hp₃, stopped]
  simp only [run?, htake, hcancel, hquit, hreturn, Option.bind_some]
  simp [s₃, s₂, s₁, updatePost, setCall, return_, List.modify_modify_eq, Function.comp_def]

theorem exists_run?_closeAll {hs : List Handle} (hi : s.calls[i]? = some ⟨.ready, hs⟩)
    (hrest : ∀ p ∈ s.posts, Resting p) (hh : ∀ h ∈ hs, h < s.posts.length) :
    ∃ es s', s.run? es = some s' ∧ s'.fleet = s.fleet.closeAll hs ∧
      (∀ h ∈ s.returned, h ∈ s'.returned) ∧ ∀ h ∈ hs, h ∈ s'.returned := by
  induction hs generalizing s with
  | nil => exact ⟨[], s, rfl, rfl, fun _ hr => hr, by simp⟩
  | cons h hs ih =>
      obtain ⟨hlt, hh⟩ := List.forall_mem_cons.mp hh
      have hp := List.getElem?_eq_getElem hlt
      have hrest_h := hrest _ (List.getElem_mem hlt)
      -- One backend is closed, and then the rest of them.
      obtain ⟨es₁, s₁, hrun₁, hi₁, hfleet₁, hrest₁, hlength₁, hreturned₁⟩ :
          ∃ es₁ s₁, s.run? es₁ = some s₁ ∧ s₁.calls[i]? = some ⟨.ready, hs⟩ ∧
            s₁.fleet = s.fleet.close h ∧ (∀ p ∈ s₁.posts, Resting p) ∧
            s₁.posts.length = s.posts.length ∧ s₁.returned = h :: s.returned := by
        cases hheld : s.posts[h].held with
        | true =>
            refine ⟨_, _, run?_stop hi hp hrest_h hheld, ?_, s.fleet_stopped hp, fun p hmem => ?_,
              List.length_modify _ _ _, rfl⟩
            · exact calls_setCall (s := (s.updatePost h fun _ => stopped s.posts[h]).return_ h) hi _
            · obtain ⟨j, hj⟩ := List.getElem?_of_mem hmem
              obtain ⟨q, hq, rfl⟩ := Option.map_eq_some_iff.mp
                ((s.getElem?_updatePost h _ j).symm.trans hj)
              split
              · exact ⟨rfl, rfl⟩
              · exact hrest q (List.mem_of_getElem? hq)
        | false =>
            have hstep : s.step? (.proceed i) = some ((s.return_ h).setCall i ⟨.ready, hs⟩) := by
              rw [proceed_eq hi]
              simp [proceed?, hp, hheld]
            refine ⟨[.proceed i], _, by rw [run?, hstep]; rfl, calls_setCall (s := s.return_ h) hi _,
              ?_, hrest, rfl, rfl⟩
            refine (close_of_unmonitored (b := s.posts[h].backend) ?_ ?_).symm
            · exact (List.getElem?_map ..).trans (congrArg (Option.map (·.backend)) hp)
            · simpa [hheld] using hrest_h.held.symm
      obtain ⟨es₂, s₂, hrun₂, hfleet₂, hkept, hclosed⟩ :=
        ih hi₁ hrest₁ (fun j hj => hlength₁ ▸ hh j hj)
      refine ⟨es₁ ++ es₂, s₂, ?_, ?_, fun j hj => hkept j ?_, fun j hj => ?_⟩
      · rw [run?_append, hrun₁]
        exact hrun₂
      · rw [hfleet₂, hfleet₁]
        rfl
      · rw [hreturned₁]
        exact List.mem_cons_of_mem _ hj
      · rcases List.mem_cons.mp hj with rfl | hj
        · exact hkept _ (hreturned₁ ▸ List.mem_cons_self ..)
        · exact hclosed j hj

/-- If nothing comes between, a close makes of the fleet what it is known to make of it. -/
theorem exists_run?_close (hrest : ∀ p ∈ s.posts, Resting p) (o : Occasion)
    (hh : ∀ h ∈ o.handles s.fleet, h < s.posts.length) :
    ∃ es s', s.run? (.close o :: es) = some s' ∧ s'.fleet = o.result s.fleet ∧
      ∀ h ∈ o.handles s.fleet, h ∈ s'.returned := by
  let s₁ : Session := { s with calls := s.calls ++ [{ remaining := o.handles s.fleet }] }
  have hi : s₁.calls[s.calls.length]? = some ⟨.ready, o.handles s.fleet⟩ := by simp [s₁]
  obtain ⟨es, s', hrun, hfleet, -, hreturned⟩ := exists_run?_closeAll hi hrest hh
  refine ⟨es, s', hrun, ?_, hreturned⟩
  rw [hfleet, o.result_eq_closeAll]
  rfl

/-! ## After a close -/

theorem Sound.ended_of_returned (hs : Sound s) (hreturned : h ∈ s.returned)
    (hfree : ¬ s.Busy h) : ∃ p, s.posts[h]? = some p ∧ p.point = .ended := by
  obtain ⟨p, hp, hfalse⟩ := hs.returned h hreturned
  exact ⟨p, hp, (hs.relieved h p hp hfalse).resolve_right hfree⟩

end Session

/-- The overrides of the health of a backend. -/
def Event.overrides (h : Handle) : Event → List Bool
  | .use i u => if i = h then u.override?.toList else []
  | _ => []

/-- The requests to a backend that are completed: the latency, and whether they failed. -/
def Event.completions (h : Handle) : Event → List (Nat × Bool)
  | .use i u => if i = h then u.completion?.toList else []
  | _ => []

namespace Session

variable {s s' : Session} {h : Handle} {p : Post}

/-- What becomes of a backend that is left alone: it has the overrides and the requests, and
nothing else. -/
structure Alone (h : Handle) (es : List Event) (p p' : Post) : Prop where
  ended : p'.point = .ended
  acts : ∀ a, .act h a ∉ es
  stats : p'.backend.stats =
    (es.flatMap (·.overrides h)).foldl Backend.Stats.setHealthy p.backend.stats
  window : p'.backend.transport.window = (es.flatMap (·.completions h)).foldl
    (fun w c => w.record c.1 c.2) p.backend.transport.window

theorem Alone.cons {e : Event} {es : List Event} {p' p'' : Post} (h₁ : Alone h [e] p p')
    (h₂ : Alone h es p' p'') : Alone h (e :: es) p p'' where
  ended := h₂.ended
  acts := by
    intro a ha
    rcases List.mem_cons.mp ha with rfl | ha
    · exact h₁.acts a (List.mem_singleton_self _)
    · exact h₂.acts a ha
  stats := by
    rw [h₂.stats, h₁.stats]
    simp
  window := by
    rw [h₂.window, h₁.window]
    simp

/-- Events of others make no difference. -/
theorem Alone.of_eq {e : Event} (hp : p.point = .ended) (hacts : ∀ a, e ≠ .act h a)
    (hoverrides : e.overrides h = []) (hcompletions : e.completions h = []) {p' : Post}
    (hpoint : p'.point = p.point) (hbackend : p'.backend = p.backend) : Alone h [e] p p' := by
  refine ⟨hpoint.trans hp, fun a ha => hacts a (List.mem_singleton.mp ha).symm, ?_, ?_⟩
  · simp [hoverrides, hbackend]
  · simp [hcompletions, hbackend]

/-- What is done with a post by those who close it does not show on its monitor and its backend. -/
theorem exists_updatePost {g : Post → Post} (hp : s.posts[h]? = some p) {i : Handle}
    (hpoint : i = h → (g p).point = p.point) (hbackend : i = h → (g p).backend = p.backend) :
    ∃ p', (s.updatePost i g).posts[h]? = some p' ∧ p'.point = p.point ∧
      p'.backend = p.backend := by
  refine ⟨_, (s.getElem?_updatePost i g h).trans (by rw [hp]; rfl), ?_⟩
  split
  · exact ⟨hpoint ‹_›, hbackend ‹_›⟩
  · exact ⟨rfl, rfl⟩

theorem exists_proceed? {i : Nat} {c : Call} (hp : s.posts[h]? = some p)
    (hstep : s.proceed? i c = some s') :
    ∃ p', s'.posts[h]? = some p' ∧ p'.point = p.point ∧ p'.backend = p.backend := by
  obtain ⟨stage, remaining⟩ := c
  cases stage with
  | ready =>
      cases remaining with
      | nil => cases hstep
      | cons j hs' =>
          obtain ⟨q, hq, rfl⟩ := Option.map_eq_some_iff.mp hstep
          split
          · exact exists_updatePost hp (fun _ => rfl) (fun _ => rfl)
          · exact ⟨p, hp, rfl, rfl⟩
  | taken j =>
      cases hstep
      exact exists_updatePost hp (fun _ => rfl) (fun _ => rfl)
  | awaiting j =>
      obtain ⟨-, hstep⟩ := Option.ite_none_right_eq_some.mp hstep
      cases hstep
      exact ⟨p, hp, rfl, rfl⟩

theorem alone_use (hp : s.posts[h]? = some p) (hend : p.point = .ended) (i : Handle)
    (u : Backend.Use) :
    ∃ p', (s.updatePost i (·.use u)).posts[h]? = some p' ∧ Alone h [.use i u] p p' := by
  by_cases hi : i = h
  · subst hi
    refine ⟨p.use u, (s.getElem?_updatePost i _ i).trans (by simp [hp]), hend, by simp, ?_, ?_⟩
    · simpa [Event.overrides, Post.use] using Backend.stats_after p.backend u
    · simpa [Event.completions, Post.use] using Backend.window_after p.backend u
  · obtain ⟨p', hp', hpoint, hbackend⟩ := exists_updatePost (g := (·.use u)) hp
      (fun hi' => absurd hi' hi) (fun hi' => absurd hi' hi)
    refine ⟨p', hp', .of_eq hend (by simp) ?_ ?_ hpoint hbackend⟩
    · simp [Event.overrides, hi]
    · simp [Event.completions, hi]

theorem alone_step? {e : Event} (hp : s.posts[h]? = some p) (hend : p.point = .ended)
    (hstep : s.step? e = some s') : ∃ p', s'.posts[h]? = some p' ∧ Alone h [e] p p' := by
  cases e with
  | create d ctx now =>
      refine ⟨p, ?_, .of_eq hend (by simp) rfl rfl rfl rfl⟩
      cases hstep
      cases Backend.create d ctx now with
      | error e => exact hp
      | ok b => exact (List.getElem?_append_left (List.getElem?_eq_some_iff.mp hp).1).trans hp
  | act i a =>
      obtain ⟨q, hq, hstep⟩ := Option.bind_eq_some_iff.mp hstep
      obtain ⟨q', ha, hstep⟩ := Option.bind_eq_some_iff.mp hstep
      cases hstep
      -- A monitor that has ended does nothing, so it is that of another backend.
      have hi : i ≠ h := by
        rintro rfl
        rw [hp] at hq
        cases hq
        rw [Post.step?_of_ended hend] at ha
        cases ha
      obtain ⟨p', hp', hpoint, hbackend⟩ := exists_updatePost (g := fun _ => q') hp
        (fun hi' => absurd hi' hi) (fun hi' => absurd hi' hi)
      exact ⟨p', hp', .of_eq hend (fun _ he => hi (Event.act.inj he).1) rfl rfl hpoint hbackend⟩
  | use i u =>
      cases hstep
      exact alone_use hp hend i u
  | close o =>
      cases hstep
      exact ⟨p, hp, .of_eq hend (by simp) rfl rfl rfl rfl⟩
  | proceed i =>
      obtain ⟨c, -, hstep⟩ := Option.bind_eq_some_iff.mp hstep
      obtain ⟨p', hp', hpoint, hbackend⟩ := exists_proceed? hp hstep
      exact ⟨p', hp', .of_eq hend (by simp) rfl rfl hpoint hbackend⟩
  | drop i =>
      cases hstep
      obtain ⟨p', hp', hpoint, hbackend⟩ := exists_updatePost (g := Post.cancel) hp
        (fun _ => rfl) (fun _ => rfl)
      exact ⟨p', hp', .of_eq hend (by simp) rfl rfl hpoint hbackend⟩
  | shutDown =>
      cases hstep
      exact ⟨p, hp, .of_eq hend (by simp) rfl rfl rfl rfl⟩

theorem alone_run? {es : List Event} (hp : s.posts[h]? = some p) (hend : p.point = .ended)
    (hrun : s.run? es = some s') : ∃ p', s'.posts[h]? = some p' ∧ Alone h es p p' := by
  induction es generalizing s p with
  | nil =>
      cases hrun
      exact ⟨p, hp, hend, by simp, rfl, rfl⟩
  | cons e es ih =>
      obtain ⟨s₁, hstep, hrest⟩ := Option.bind_eq_some_iff.mp hrun
      obtain ⟨p₁, hp₁, halone₁⟩ := alone_step? hp hend hstep
      obtain ⟨p₂, hp₂, halone₂⟩ := ih hp₁ halone₁.ended hrest
      exact ⟨p₂, hp₂, halone₁.cons halone₂⟩

/-- Once a close of a backend has returned and no call has its monitor in its hands, whatever happens,
the monitor does nothing any more: no probe is sent and no window is drained. Its statistics change
by overrides alone, and its window by the requests that are completed. -/
theorem run?_closed {es es' : List Event} (hrun : ({} : Session).run? es = some s)
    (hreturned : h ∈ s.returned) (hfree : ¬ s.Busy h) (hrun' : s.run? es' = some s') :
    (∀ a, .act h a ∉ es') ∧ ∃ p p', s.posts[h]? = some p ∧ s'.posts[h]? = some p' ∧
      p'.backend.stats =
        (es'.flatMap (·.overrides h)).foldl Backend.Stats.setHealthy p.backend.stats ∧
      p'.backend.transport.window = (es'.flatMap (·.completions h)).foldl
        (fun w c => w.record c.1 c.2) p.backend.transport.window := by
  obtain ⟨p, hp, hend⟩ := (sound_initial.run? hrun).ended_of_returned hreturned hfree
  obtain ⟨p', hp', halone⟩ := alone_run? hp hend hrun'
  exact ⟨halone.acts, p, p', hp, hp', halone.stats, halone.window⟩

/-- Two closes of a backend overlap while a probe is in flight. The second one finds no monitor and
returns at once; the first one waits until the probe has been given up. -/
theorem run?_closed_probing :
    let d : Backend.Description := .ephemeral "a" "a" "10.0.0.1:80" "http://10.0.0.1:80/health"
    let es : List Event :=
      [.create d ⟨{}, false⟩ 0, .use 0 .start, .act 0 (.tick 1000000000), .act 0 (.drain 1000000000),
        .act 0 .fold, .act 0 .send, .close (.inventory ⟨[0], ⟨{}, false⟩⟩), .close (.backend 0),
        .proceed 0, .proceed 1, .proceed 0, .act 0 .quit, .proceed 0]
    let es' : List Event :=
      [.use 0 (.complete 5 (.ok .ok)), .use 0 (.setHealthy true), .close (.backend 0), .proceed 2,
        .shutDown]
    ∃ s s' p p', ({} : Session).run? es = some s ∧ 0 ∈ s.returned ∧ ¬ s.Busy 0 ∧
      s.run? es' = some s' ∧ s.posts[0]? = some p ∧ s'.posts[0]? = some p' ∧
      p'.backend.stats = p.backend.stats.setHealthy true ∧
      p'.backend.transport.window = p.backend.transport.window.record 5 false := by
  intro d es es'
  have hview : (({} : Session).run? es).map (fun s => (s.returned, s.calls, (s.run? es').isSome)) =
      some ([0, 0], [⟨.ready, []⟩, ⟨.ready, []⟩], true) := by decide +kernel
  obtain ⟨s, hrun, hs⟩ := Option.map_eq_some_iff.mp hview
  simp only [Prod.mk.injEq] at hs
  obtain ⟨hreturned, hcalls, hsome⟩ := hs
  obtain ⟨s', hrun'⟩ := Option.isSome_iff_exists.mp hsome
  have hmem : 0 ∈ s.returned := by simp [hreturned]
  have hfree : ¬ s.Busy 0 := by simp [Busy, hcalls, Call.busyWith]
  obtain ⟨-, p, p', hp, hp', hstats, hwindow⟩ := run?_closed hrun hmem hfree hrun'
  exact ⟨s, s', p, p', hrun, hmem, hfree, hrun', hp, hp', hstats, hwindow⟩

/-- Without that condition: a second close returns while the first one has only taken the monitor.
The monitor then drains the window, sends a probe and marks the backend healthy. -/
theorem run?_closed_overlapping :
    let d : Backend.Description := .ephemeral "a" "a" "10.0.0.1:80" "http://10.0.0.1:80/health"
    let es : List Event :=
      [.create d ⟨{}, false⟩ 0, .use 0 .start, .use 0 (.complete 5 (.ok .ok)), .close (.backend 0),
        .close (.backend 0), .proceed 0, .proceed 1]
    let es' : List Event :=
      [.act 0 (.tick 1000000000), .act 0 (.drain 1000000000), .act 0 .fold, .act 0 .send,
        .act 0 (.answer (.ok .ok)), .act 0 .judge]
    ∃ s s' p p', ({} : Session).run? es = some s ∧ 0 ∈ s.returned ∧
      s.calls = [⟨.taken 0, []⟩, ⟨.ready, []⟩] ∧ s.run? es' = some s' ∧
      s.posts[0]? = some p ∧ s'.posts[0]? = some p' ∧
      p.backend.transport.window ≠ .empty ∧ p'.backend.transport.window = .empty ∧
      p.backend.isHealthy = false ∧ p'.backend.isHealthy = true := by
  intro d es es'
  let view (s : Session) : Option (Backend.Window × Bool) :=
    (s.posts[0]?).map fun p => (p.backend.transport.window, p.backend.isHealthy)
  have hviews : (({} : Session).run? es).map
      (fun s => ((s.returned, s.calls), view s, (s.run? es').bind view)) =
        some (([0], [⟨.taken 0, []⟩, ⟨.ready, []⟩]), some (⟨1, 0, 5⟩, false),
          some (.empty, true)) := by decide +kernel
  obtain ⟨s, hrun, hs⟩ := Option.map_eq_some_iff.mp hviews
  simp only [Prod.mk.injEq] at hs
  obtain ⟨⟨hreturned, hcalls⟩, hbefore, hafter⟩ := hs
  obtain ⟨s', hrun', hafter⟩ := Option.bind_eq_some_iff.mp hafter
  obtain ⟨p, hp, hview⟩ := Option.map_eq_some_iff.mp hbefore
  obtain ⟨p', hp', hview'⟩ := Option.map_eq_some_iff.mp hafter
  obtain ⟨hwindow, hhealthy⟩ := Prod.mk.inj hview
  obtain ⟨hwindow', hhealthy'⟩ := Prod.mk.inj hview'
  refine ⟨s, s', p, p', hrun, by simp [hreturned], hcalls, hrun', hp, hp', ?_, hwindow', hhealthy,
    hhealthy'⟩
  rw [hwindow]
  decide

end Session

end ReverseProxy.Fleet
