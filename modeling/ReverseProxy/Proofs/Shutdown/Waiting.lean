import ReverseProxy.Shutdown.Timeline

/-!
# Locks on a timeline

Whatever happens in the background while the locks are waited for, no lock is taken there, and
nothing takes a trigger back. So when a wait after the trigger ends in time, no lock is held.
-/

namespace ReverseProxy.Shutdown

/-! ## Locks of a coordinator -/

namespace Coordinator

variable (c : Coordinator)

theorem trigger_fst (r : Reason) : (c.trigger r).1 = !c.locks.shuttingDown := by
  cases h : c.locks.shuttingDown <;> simp [trigger, Locks.trigger, h]

theorem trigger_shuttingDown (r : Reason) : (c.trigger r).2.locks.shuttingDown = true := by
  cases h : c.locks.shuttingDown <;> simp [trigger, Locks.trigger, h, setFlag, announce]

theorem trigger_held (r : Reason) : (c.trigger r).2.locks.held = c.locks.held := by
  cases h : c.locks.shuttingDown <;> simp [trigger, Locks.trigger, h, setFlag, announce]

variable {c}

theorem tryLock_of_shuttingDown (h : c.locks.shuttingDown = true) : c.tryLock = none := by
  simp [tryLock, Locks.take, h]

theorem tryLock_of_running (h : c.locks.shuttingDown = false) :
    c.tryLock = some { c with locks := { c.locks with held := c.locks.held + 1 } } := by
  simp [tryLock, Locks.take, h]

theorem tryLock_isSome (c : Coordinator) : c.tryLock.isSome = !c.locks.shuttingDown := by
  cases h : c.locks.shuttingDown with
  | true => simp [tryLock_of_shuttingDown h]
  | false => simp [tryLock_of_running h]

theorem locksFree_iff : c.locksFree = true ↔ c.locks.held = 0 := by
  simp [locksFree]

/-- From one coordinator to a later one, shutdown stays begun and no lock was taken. -/
structure Falling (c d : Coordinator) : Prop where
  flag : c.locks.shuttingDown = true → d.locks.shuttingDown = true
  held : d.locks.held ≤ c.locks.held

theorem Falling.refl (c : Coordinator) : Falling c c := ⟨id, Nat.le_refl _⟩

theorem Falling.trans {c d e : Coordinator} (h : Falling c d) (h' : Falling d e) : Falling c e :=
  ⟨h'.flag ∘ h.flag, Nat.le_trans h'.held h.held⟩

theorem Falling.held_eq_zero {d : Coordinator} (h : Falling c d) (hc : c.locks.held = 0) :
    d.locks.held = 0 := by
  have hle := h.held
  omega

theorem falling_trigger (c : Coordinator) (r : Reason) : Falling c (c.trigger r).2 :=
  ⟨fun _ => c.trigger_shuttingDown r, Nat.le_of_eq (c.trigger_held r)⟩

theorem falling_release (c : Coordinator) : Falling c c.release := ⟨id, Nat.sub_le _ _⟩

theorem falling_leave (c : Coordinator) (counted : Bool) : Falling c (c.leave counted) := by
  cases counted <;> exact ⟨id, Nat.le_refl _⟩

end Coordinator

/-! ## Locks in the background -/

namespace Timeline

open Coordinator (Falling)

variable {t u : Timeline}

theorem falling_fire (t : Timeline) (task : Task) :
    Falling t.coordinator (t.fire task).coordinator := by
  cases task with
  | trigger time r => exact Coordinator.falling_trigger _ r
  | release time => exact Coordinator.falling_release _
  | leave time counted => exact Coordinator.falling_leave _ counted
  | participate s counted delay => exact .refl _

theorem closeUnowned_locks (t : Timeline) :
    t.closeUnowned.coordinator.locks = t.coordinator.locks := by
  unfold closeUnowned
  split <;> rfl

theorem falling_closeUnowned (t : Timeline) :
    Falling t.coordinator t.closeUnowned.wakeParticipants.coordinator := by
  constructor
  · intro h
    exact (congrArg Locks.shuttingDown t.closeUnowned_locks).trans h
  · exact Nat.le_of_eq (congrArg Locks.held t.closeUnowned_locks)

theorem falling_step? {limit : Nat} {inclusive : Bool} (h : t.step? limit inclusive = some u) :
    Falling t.coordinator u.coordinator := by
  obtain ⟨⟨time, i, task⟩, -, h⟩ := Option.bind_eq_some_iff.mp h
  obtain ⟨-, h⟩ := Option.ite_none_right_eq_some.mp h
  cases h
  exact (falling_fire { t with now := max t.now time, tasks := t.tasks.eraseIdx i } task).trans
    (falling_closeUnowned _)

theorem falling_runTo (limit fuel : Nat) (t : Timeline) :
    Falling t.coordinator (runTo limit fuel t).coordinator := by
  induction fuel generalizing t with
  | zero => exact .refl _
  | succ fuel ih =>
      rw [runTo]
      cases hs : t.step? limit true with
      | none => exact .refl _
      | some u => exact (falling_step? hs).trans (ih u)

theorem falling_settle (t : Timeline) : Falling t.coordinator t.settle.coordinator :=
  (falling_closeUnowned t).trans (falling_runTo _ _ _)

/-- When something was found, it is there at the end of the wait. -/
theorem falling_waitFrom {α : Type} (find : Coordinator → Option α) (limit fuel : Nat)
    (t : Timeline) :
    Falling t.coordinator (waitFrom find limit fuel t).2.coordinator ∧
      ((waitFrom find limit fuel t).1.isSome →
        (find (waitFrom find limit fuel t).2.coordinator).isSome) := by
  induction fuel generalizing t with
  | zero => exact ⟨.refl _, fun h => by cases h⟩
  | succ fuel ih =>
      rw [waitFrom]
      cases hf : find t.coordinator with
      | some a => exact ⟨.refl _, fun _ => by simp [hf]⟩
      | none =>
          cases hs : t.step? limit false with
          | none => exact ⟨.refl _, fun h => by cases h⟩
          | some u =>
              obtain ⟨hfall, hfound⟩ := ih u
              exact ⟨(falling_step? hs).trans hfall, hfound⟩

theorem falling_wait {α : Type} (t : Timeline) (ms : Nat) (find : Coordinator → Option α) :
    Falling t.coordinator (t.wait ms find).2.2.coordinator :=
  (falling_waitFrom find (t.now + ms) (2 * t.tasks.length + 1) t).1.trans (falling_settle _)

/-- What was found may be gone once everything that is due has happened, but no lock is taken. -/
theorem wait_found {α : Type} (t : Timeline) (ms : Nat) (find : Coordinator → Option α)
    (h : (t.wait ms find).1.isSome) :
    ∃ c, (find c).isSome ∧ Falling c (t.wait ms find).2.2.coordinator :=
  ⟨_, (falling_waitFrom find (t.now + ms) (2 * t.tasks.length + 1) t).2 h, falling_settle _⟩

theorem falling_waitForLocks (t : Timeline) :
    Falling t.coordinator t.waitForLocks.2.2.coordinator :=
  falling_wait t t.timeout fun c => if c.locksFree then some () else none

/-- A wait that ended in time leaves no lock held. -/
theorem waitForLocks_held (h : t.waitForLocks.1 = true) :
    t.waitForLocks.2.2.coordinator.locks.held = 0 := by
  obtain ⟨c, hfree, hfall⟩ :=
    wait_found t t.timeout (fun c => if c.locksFree then some () else none) h
  have hc : c.locksFree = true := by
    simpa using hfree
  exact hfall.held_eq_zero (Coordinator.locksFree_iff.mp hc)

end Timeline

end ReverseProxy.Shutdown
