import Mathlib.Algebra.Order.BigOperators.Group.List
import Mathlib.Algebra.Order.Group.Nat
import Mathlib.Algebra.Ring.Nat
import Mathlib.Data.List.Perm.Basic
import ReverseProxy.Proofs.Shutdown.FirstStage

/-!
# Waits for the first stage on a timeline

A wait on a timeline, with whatever is due in the background meanwhile, is a wait of a stage that
begins and ends at the same times with the same result (`exists_run?_waitForStage`). Its clock counts
milliseconds. A timeline stops waiting when it has run out of things to do, and never before: it may
take as many steps as its tasks can make.
-/

namespace ReverseProxy.Shutdown

/-! ## How many steps a timeline can take -/

/-- How many things a task has still to do. -/
def Task.steps : Task → Nat
  | participate .. => 2
  | _ => 1

namespace Timeline

variable {t u : Timeline} {limit : Nat} {inclusive : Bool}

def steps (t : Timeline) : Nat := (t.tasks.map Task.steps).sum

theorem steps_le (t : Timeline) : t.steps ≤ 2 * t.tasks.length := by
  have htwo : ∀ task : Task, task.steps ≤ 2 := by
    intro task
    cases task <;> simp [Task.steps]
  calc t.steps
    _ ≤ (t.tasks.map fun _ => 2).sum := List.sum_le_sum fun task _ => htwo task
    _ = 2 * t.tasks.length := by rw [List.map_const', List.sum_replicate_nat, Nat.mul_comm]

/-- The next task is one that is due at its time. -/
theorem next?_mem {time i : Nat} {task : Task} (h : t.next? = some (time, i, task)) :
    t.tasks[i]? = some task ∧ task.dueTime? = some time := by
  have hbest : ∀ (due : List (Nat × Nat × Task)) (best : Option (Nat × Nat × Task)) x,
      due.foldl (fun best d => if best.all fun (b : Nat × Nat × Task) => d.1 < b.1 then some d
        else best) best = some x → best = some x ∨ x ∈ due := by
    intro due
    induction due with
    | nil => exact fun best x hx => .inl hx
    | cons d due ih =>
        intro best x hx
        rcases ih _ x hx with hx | hx
        · dsimp only at hx
          split at hx
          · exact .inr (Option.some.inj hx ▸ List.mem_cons_self)
          · exact .inl hx
        · exact .inr (.tail _ hx)
  rcases hbest _ _ _ h with hnone | hdue
  · cases hnone
  · obtain ⟨j, -, hj⟩ := List.mem_filterMap.mp hdue
    obtain ⟨task', htask, hj⟩ := Option.bind_eq_some_iff.mp hj
    obtain ⟨time', htime, hj⟩ := Option.bind_eq_some_iff.mp hj
    cases hj
    exact ⟨htask, htime⟩

/-- What a step does: a task that is due goes, and does its work. -/
theorem step?_eq (h : t.step? limit inclusive = some u) : ∃ time i task,
    t.tasks[i]? = some task ∧ task.dueTime? = some time ∧
    (time < limit ∨ inclusive = true ∧ time = limit) ∧
    u = (({ t with now := max t.now time, tasks := t.tasks.eraseIdx i }).fire
      task).closeUnowned.wakeParticipants := by
  obtain ⟨⟨time, i, task⟩, hnext, h⟩ := Option.bind_eq_some_iff.mp h
  obtain ⟨hguard, h⟩ := Option.ite_none_right_eq_some.mp h
  obtain ⟨htask, htime⟩ := next?_mem hnext
  exact ⟨time, i, task, htask, htime, by simpa using hguard, (Option.some.inj h).symm⟩

theorem fire_now (t : Timeline) (task : Task) : (t.fire task).now = t.now := by
  cases task <;> rfl

theorem fire_tasks (t : Timeline) (task : Task) : (t.fire task).tasks = t.tasks := by
  cases task <;> rfl

theorem closeUnowned_now (t : Timeline) : t.closeUnowned.now = t.now := by
  unfold closeUnowned
  split <;> rfl

theorem closeUnowned_tasks (t : Timeline) : t.closeUnowned.tasks = t.tasks := by
  unfold closeUnowned
  split <;> rfl

theorem steps_wakeParticipants (t : Timeline) : t.wakeParticipants.steps ≤ t.steps := by
  unfold steps wakeParticipants
  rw [List.map_map]
  refine List.sum_le_sum fun task _ => ?_
  cases task with
  | participate s counted delay =>
      dsimp only [Function.comp]
      split <;> simp [Task.steps]
  | _ => exact Nat.le_refl _

theorem steps_step? (h : t.step? limit inclusive = some u) : u.steps < t.steps := by
  obtain ⟨time, i, task, htask, htime, -, rfl⟩ := step?_eq h
  have hle := steps_wakeParticipants
    (({ t with now := max t.now time, tasks := t.tasks.eraseIdx i }).fire task).closeUnowned
  have hrest : (({ t with now := max t.now time, tasks := t.tasks.eraseIdx i }).fire
      task).closeUnowned.steps = ((t.tasks.eraseIdx i).map Task.steps).sum := by
    rw [steps, closeUnowned_tasks, fire_tasks]
  obtain ⟨hi, hget⟩ := List.getElem?_eq_some_iff.mp htask
  have hsum := ((List.getElem_cons_eraseIdx_perm hi).map Task.steps).sum_eq
  have hone : task.steps = 1 := by
    cases task with
    | participate => cases htime
    | _ => rfl
  rw [List.map_cons, List.sum_cons, hget, hone] at hsum
  have hall : t.steps = (t.tasks.map Task.steps).sum := rfl
  omega

theorem step?_now (h : t.step? limit inclusive = some u) :
    t.now ≤ u.now ∧ u.now ≤ max t.now limit := by
  obtain ⟨time, i, task, -, -, hlimit, rfl⟩ := step?_eq h
  have hnow : (({ t with now := max t.now time, tasks := t.tasks.eraseIdx i }).fire
      task).closeUnowned.wakeParticipants.now = max t.now time :=
    (closeUnowned_now _).trans (fire_now _ task)
  rw [hnow]
  omega

theorem runTo_now (limit fuel : Nat) (t : Timeline) : (runTo limit fuel t).now ≤ max t.now limit := by
  induction fuel generalizing t with
  | zero => exact Nat.le_max_left _ _
  | succ fuel ih =>
      rw [runTo]
      cases hs : t.step? limit true with
      | none => exact Nat.le_max_left _ _
      | some u =>
          have hrest := ih u
          have hstep := (step?_now hs).2
          dsimp only
          omega

end Timeline

theorem sameStage_awake (t : Timeline) :
    SameStage t.coordinator t.closeUnowned.wakeParticipants.coordinator := by
  unfold Timeline.wakeParticipants Timeline.closeUnowned
  split <;> exact ⟨rfl, rfl, rfl⟩

namespace Stage

variable {a b : Stage} {t u : Timeline} {limit : Nat} {inclusive : Bool}

/-- Nothing has become of the waits. -/
structure SameWaits (a b : Stage) : Prop where
  tick : b.tick = a.tick
  now : b.now = a.now
  waiting : b.waiting = a.waiting
  ended : b.ended = a.ended

/-- What a task does, the stage can do as well. Who a counted task stands for is not known to the
timeline; any handle will do that is counted and held. -/
theorem Sound.exists_act (h : Sound a) (hsame : SameStage a.coordinator t.coordinator) (task : Task) :
    ∃ e b, a.act? e = some b ∧ SameWaits a b ∧ SameStage b.coordinator (t.fire task).coordinator := by
  cases task with
  | trigger time r =>
      exact ⟨.trigger r, _, rfl, ⟨rfl, rfl, rfl, rfl⟩,
        ((sameStage_trigger _ r).symm.trans hsame).trans (sameStage_trigger _ r)⟩
  | release | participate => exact ⟨.pass, a, rfl, ⟨rfl, rfl, rfl, rfl⟩, ⟨hsame.1, hsame.2, hsame.3⟩⟩
  | leave time counted =>
      cases counted with
      | false => exact ⟨.pass, a, rfl, ⟨rfl, rfl, rfl, rfl⟩, hsame⟩
      | true =>
          by_cases hnobody : a.coordinator.participants = 0
          · refine ⟨.pass, a, rfl, ⟨rfl, rfl, rfl, rfl⟩, hsame.registering, ?_, hsame.timeout⟩
            have hzero := hsame.participants.symm.trans hnobody
            simp [Timeline.fire, Coordinator.leave, hnobody, hzero]
          · have hpos : 0 < a.participants.countP Participant.holds :=
              h.held ▸ Nat.pos_of_ne_zero hnobody
            obtain ⟨p, hp, hholds⟩ := List.countP_pos_iff.mp hpos
            obtain ⟨i, hi⟩ := List.mem_iff_getElem?.mp hp
            simp only [Participant.holds, Bool.and_eq_true, Option.isNone_iff_eq_none] at hholds
            have hact : a.act? (.drop i) = some { a with
                coordinator := a.coordinator.leave true
                participants := a.participants.set i { p with left := some a.now } } := by
              simp [act?, hi, hholds.1, hholds.2]
            exact ⟨.drop i, _, hact, ⟨rfl, rfl, rfl, rfl⟩, hsame.leave true⟩

/-- A stage that is where a timeline is. Its clock counts milliseconds. -/
structure Shows (a : Stage) (t : Timeline) : Prop where
  sound : a.Sound
  tick : a.tick = 1000000
  now : a.now = t.now
  same : SameStage a.coordinator t.coordinator

theorem Shows.limit_eq (h : Shows a t) : a.limit = t.timeout := by
  simp only [Stage.limit, h.tick, h.same.timeout]
  rfl

theorem Shows.step? (h : Shows a t) (hs : t.step? limit inclusive = some u)
    (hpass : a.mayPass u.now = true) :
    ∃ e b, a.step? (u.now, e) = some b ∧ Shows b u ∧ b.waiting = a.waiting ∧ b.ended = a.ended := by
  obtain ⟨time, i, task, -, -, -, hu⟩ := Timeline.step?_eq hs
  have hsound := h.sound.pass hpass
  obtain ⟨e, b, hact, hwaits, hsame⟩ := hsound.exists_act
    (t := { t with now := max t.now time, tasks := t.tasks.eraseIdx i }) h.same task
  refine ⟨e, b, (if_pos hpass).trans hact, ?_, hwaits.waiting, hwaits.ended⟩
  exact {
    sound := hsound.act hact
    tick := hwaits.tick.trans h.tick
    now := hwaits.now
    same := hu ▸ hsame.trans (sameStage_awake _) }

theorem run?_append (a : Stage) (es es' : List (Nat × Event)) :
    a.run? (es ++ es') = (a.run? es).bind (·.run? es') := by
  induction es generalizing a with
  | nil => rfl
  | cons e es ih =>
      simp only [List.cons_append, run?, Option.bind_eq_bind, ih, Option.bind_assoc]

theorem mayPass_idle {time : Nat} (hidle : a.waiting = none) (htime : a.now ≤ time) :
    a.mayPass time = true := by
  simp [mayPass, hidle, htime]

/-- Without a wait, the stage comes to where a timeline is. -/
def Follows (a : Stage) (u : Timeline) : Prop :=
  ∃ es b, a.run? es = some b ∧ Shows b u ∧ b.waiting = none ∧ b.ended = a.ended

theorem Shows.follows (h : Shows a t) (hidle : a.waiting = none) : Follows a t :=
  ⟨[], a, rfl, h, hidle, rfl⟩

theorem Follows.step {e : Nat × Event} {m : Stage} (h : Follows m u) (hs : a.step? e = some m)
    (hended : m.ended = a.ended) : Follows a u := by
  obtain ⟨es, b, hrun, hb, hidle, hbended⟩ := h
  exact ⟨e :: es, b, by simp [run?, hs, hrun], hb, hidle, hbended.trans hended⟩

theorem Follows.trans (h : Follows a t)
    (h' : ∀ m, Shows m t → m.waiting = none → Follows m u) : Follows a u := by
  obtain ⟨es, m, hrun, hm, hidle, hended⟩ := h
  obtain ⟨es', b, hrun', hb, hbidle, hbended⟩ := h' m hm hidle
  exact ⟨es ++ es', b, by simp [run?_append, hrun, hrun'], hb, hbidle, hbended.trans hended⟩

/-- What is due happens, one after the other. -/
theorem Shows.runTo (h : Shows a t) (hidle : a.waiting = none) (limit fuel : Nat) :
    Follows a (Timeline.runTo limit fuel t) := by
  induction fuel generalizing a t with
  | zero => exact h.follows hidle
  | succ fuel ih =>
      rw [Timeline.runTo]
      cases hs : t.step? limit true with
      | none => exact h.follows hidle
      | some u =>
          have hpass := mayPass_idle hidle (h.now.le.trans (Timeline.step?_now hs).1)
          obtain ⟨e, m, hstep, hm, hwaiting, hended⟩ := h.step? hs hpass
          exact (ih hm (hwaiting.trans hidle)).step hstep hended

theorem Shows.settle (h : Shows a t) (hidle : a.waiting = none) : Follows a t.settle := by
  have hnow : t.closeUnowned.wakeParticipants.now = t.now := t.closeUnowned_now
  have hawake : Shows a t.closeUnowned.wakeParticipants :=
    ⟨h.sound, h.tick, h.now.trans hnow.symm, h.same.trans (sameStage_awake t)⟩
  exact hawake.runTo hidle _ _

/-! ## What is done on a timeline -/

theorem shows_start (timeout : Duration) :
    Shows (start timeout 1000000) { coordinator := { timeout } } :=
  ⟨sound_start timeout 1000000, rfl, rfl, rfl, rfl, rfl⟩

theorem Shows.add (h : Shows a t) (hidle : a.waiting = none) (task : Task) :
    Follows a (t.add task) := by
  have hadded : Shows a { t with tasks := t.tasks ++ [task] } := ⟨h.sound, h.tick, h.now, h.same⟩
  exact hadded.settle hidle

/-- What a task would do is done at once. -/
theorem Shows.update (h : Shows a t) (hidle : a.waiting = none) (task : Task) :
    Follows a (t.update (t.fire task).coordinator) := by
  have hpass := mayPass_idle hidle (Nat.le_refl a.now)
  obtain ⟨e, b, hact, hwaits, hsame⟩ := h.sound.exists_act h.same task
  have hstep : a.step? (a.now, e) = some b := (if_pos hpass).trans hact
  have hshows : Shows b { t with coordinator := (t.fire task).coordinator } :=
    ⟨h.sound.step? hstep, hwaits.tick.trans h.tick, hwaits.now.trans h.now, hsame⟩
  exact (hshows.settle (hwaits.waiting.trans hidle)).step hstep hwaits.ended

theorem Shows.participate (h : Shows a t) (hidle : a.waiting = none) (ms : Nat) :
    Follows a (t.participate ms) := by
  have hpass := mayPass_idle hidle h.now.le
  have hjoin : a.step? (t.now, .join) = some { a with
      now := t.now, coordinator := a.coordinator.join.2
      participants := a.participants ++ [{ counted := a.coordinator.join.1, early := !a.waited }] } :=
    if_pos hpass
  have hshows : Shows { a with
      now := t.now, coordinator := a.coordinator.join.2
      participants := a.participants ++ [{ counted := a.coordinator.join.1, early := !a.waited }] }
      { t with coordinator := t.coordinator.join.2 } :=
    ⟨h.sound.step? hjoin, h.tick, rfl, h.same.join⟩
  exact (hshows.add hidle _).step hjoin rfl

theorem Shows.sleep (h : Shows a t) (hidle : a.waiting = none) (ms : Nat) :
    Follows a (t.sleep ms) := by
  refine (h.runTo hidle (t.now + ms) (2 * t.tasks.length)).trans fun m hm hmidle => ?_
  have hnow := t.runTo_now (t.now + ms) (2 * t.tasks.length)
  have hpass := mayPass_idle hmidle (hm.now.le.trans (show _ ≤ t.now + ms by omega))
  have hstep : m.step? (t.now + ms, .pass) = some { m with now := t.now + ms } := if_pos hpass
  have hshows : Shows { m with now := t.now + ms } (t.sleep ms) :=
    ⟨hm.sound.step? hstep, hm.tick, rfl, hm.same⟩
  exact (hshows.follows hmidle).step hstep rfl

/-- A wait ends as soon as the stage is done, or else when nothing more can happen in time. -/
theorem Shows.waitFrom (h : Shows a t) {s fuel : Nat} (hs : a.waiting = some s)
    (hfuel : t.steps < fuel) :
    let r := Timeline.waitFrom (fun c => if c.stageDone then some () else none) (s + a.limit) fuel t
    ∃ es b, a.run? es = some b ∧ Shows b r.2 ∧ b.waiting = none ∧
      b.ended = ⟨s, r.2.now, r.1.isSome⟩ :: a.ended := by
  induction fuel generalizing a t with
  | zero => omega
  | succ fuel ih =>
      have hunder := h.sound.waiting s hs
      rw [Timeline.waitFrom]
      cases hdone : t.coordinator.stageDone with
      | true =>
          have hfinish := h.sound.step?_finish hs (h.same.stageDone.trans hdone)
          rw [h.now] at hfinish
          exact ⟨[(t.now, .finish)], _, by simp [run?, hfinish],
            ⟨h.sound.step? hfinish, h.tick, rfl, h.same⟩, rfl, rfl⟩
      | false =>
          have hundone := h.same.stageDone.trans hdone
          cases hstep : t.step? (s + a.limit) false with
          | none =>
              have hmax : max t.now (s + a.limit) = s + a.limit :=
                Nat.max_eq_right (h.now ▸ hunder.now_le)
              have hexpire := h.sound.step?_expire hs hundone
              simp only [Bool.false_eq_true, if_false, hmax]
              exact ⟨[(s + a.limit, .expire)], _, by simp [run?, hexpire],
                ⟨h.sound.step? hexpire, h.tick, rfl, h.same⟩, rfl, rfl⟩
          | some u =>
              obtain ⟨hle, hmax⟩ := Timeline.step?_now hstep
              have hnow : t.now ≤ s + a.limit := h.now ▸ hunder.now_le
              have hpass := mayPass_waiting hs hundone (h.now.le.trans hle) (by omega)
              obtain ⟨e, m, hact, hm, hwaiting, hended⟩ := h.step? hstep hpass
              have hless := Timeline.steps_step? hstep
              obtain ⟨es, b, hrun, hb, hidle, hbended⟩ := ih hm (hwaiting.trans hs) (by omega)
              rw [limit_step? hact] at hb hbended
              rw [hended] at hbended
              simp only [Bool.false_eq_true, if_false]
              exact ⟨(u.now, e) :: es, b, by simp [run?, hact, hrun], hb, hidle, hbended⟩

/-- A wait on a timeline is one of the stage: it begins and ends at the same times, and with the same
result. -/
theorem exists_run?_waitForStage (h : Shows a t) (hidle : a.waiting = none) :
    ∃ es b, a.run? es = some b ∧ Shows b t.waitForStage.2.2 ∧ b.waiting = none ∧
      b.ended = ⟨t.now, t.now + t.waitForStage.2.1, t.waitForStage.1⟩ :: a.ended := by
  have hbegin : a.step? (t.now, .wait) = some { a with
      now := t.now, coordinator := a.coordinator.endRegistration, waited := true
      waiting := some t.now } := by
    have hpass := mayPass_idle hidle h.now.le
    rw [step?, if_pos hpass]
    simp [act?, hidle]
  have hshows : Shows { a with
      now := t.now, coordinator := a.coordinator.endRegistration, waited := true
      waiting := some t.now } { t with coordinator := t.coordinator.endRegistration } :=
    ⟨h.sound.step? hbegin, h.tick, rfl, rfl, h.same.participants, h.same.timeout⟩
  have hwait := hshows.waitFrom rfl (Nat.lt_succ_of_le t.steps_le)
  rw [hshows.limit_eq] at hwait
  obtain ⟨es, m, hrun, hm, hmidle, hmended⟩ := hwait
  obtain ⟨es', b, hrun', hb, hbidle, hbended⟩ := hm.settle hmidle
  have hle := (hm.sound.ended _ (hmended ▸ List.mem_cons_self)).2.begun_le
  refine ⟨(t.now, .wait) :: (es ++ es'), b, ?_, hb, hbidle, ?_⟩
  · simp [run?, hbegin, run?_append, hrun, hrun']
  · rw [hbended, hmended]
    refine congrArg (fun finished => (⟨t.now, finished, _⟩ : EndedWait) :: a.ended) ?_
    exact (Nat.add_sub_cancel' hle).symm

end Stage

end ReverseProxy.Shutdown
