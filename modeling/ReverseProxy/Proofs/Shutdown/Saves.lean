import ReverseProxy.Proofs.Inventory.Saving
import ReverseProxy.Proofs.Shutdown.Waiting

/-!
# Locks and saves in every order

Locks are taken and given back, shutdown is triggered, the locks are waited for, and inventories are
saved, in any order. A save may also take its lock, write and give the lock back in steps of their
own, between which anything else may happen. The count of held locks is the number of live ones, no
lock is granted after a trigger, and when a wait after the trigger has ended in time, nothing is
written any more.
-/

namespace ReverseProxy.Shutdown

/-- What a lock is held for. -/
inductive Work
  | guarding
  /-- A save that has not written yet. -/
  | saving (p : FilePath)
  /-- A save that has written, or failed to. -/
  | saved (p : FilePath) (failure : Option InventoryError)
deriving DecidableEq

/-- Whether the lock can be given back. A save that has begun writes first. -/
def Work.isDone : Work → Bool
  | guarding | saved .. => true
  | saving _ => false

/-- A coordinator with the files that are saved and the locks that are live. Locks are numbered in
the order in which they were granted. -/
structure Session where
  coordinator : Coordinator
  tree : FileTree
  granted : Nat := 0
  live : List (Nat × Work) := []

inductive Event
  | tryLock
  /-- A live lock is given back, its work done. -/
  | release (lock : Nat)
  | trigger (r : Reason)
  /-- A wait for the locks ends. -/
  | waited (inTime : Bool)
  /-- A save from beginning to end. -/
  | save (p : FilePath) (inv : Inventory) (f : Fleet)
  | beginSave (p : FilePath)
  | write (lock : Nat) (p : FilePath) (inv : Inventory) (f : Fleet)

def Event.isTrigger : Event → Bool
  | trigger _ => true
  | _ => false

namespace Session

/-- Takes a lock for some work, if shutdown has not begun. -/
def take (s : Session) (w : Work) : Session :=
  match s.coordinator.tryLock with
  | some c =>
    { s with coordinator := c, granted := s.granted + 1, live := (s.granted, w) :: s.live }
  | none => s

def drop (s : Session) (l : Nat × Work) : Session :=
  { s with coordinator := s.coordinator.release, live := s.live.erase l }

def put (s : Session) (n : Nat) (p : FilePath) (r : Except InventoryError FileTree) : Session :=
  { s with
    tree := Inventory.treeAfter s.tree r
    live := (n, .saved p (Inventory.failureOf r)) :: s.live.erase (n, .saving p) }

/-- What a whole save leaves behind. -/
def saved (s : Session) (r : Coordinator × Except InventoryError FileTree) : Session :=
  { s with coordinator := r.1, tree := Inventory.treeAfter s.tree r.2 }

/-- What follows; none if it cannot happen. -/
def step? (s : Session) : Event → Option Session
  | .tryLock => some (s.take .guarding)
  | .release n => (s.live.find? fun l => l.1 = n && l.2.isDone).map s.drop
  | .trigger r => some { s with coordinator := (s.coordinator.trigger r).2 }
  | .waited inTime => if inTime → s.coordinator.locksFree then some s else none
  | .save p inv f => some (s.saved (inv.save f s.tree p s.coordinator))
  | .beginSave p => some (s.take (.saving p))
  | .write n p inv f =>
    if (n, .saving p) ∈ s.live then some (s.put n p (inv.write f s.tree p)) else none

def run? (s : Session) : List Event → Option Session
  | [] => some s
  | e :: es => (s.step? e).bind (·.run? es)

/-- A session without locks. -/
def start (c : Coordinator) (t : FileTree) : Session := { coordinator := c, tree := t }

end Session

end ReverseProxy.Shutdown

namespace ReverseProxy.Shutdown.Session

variable {s s' : Session} {b : Bool}

/-! ## The invariant -/

/-- The held locks are the live ones, and shutdown has begun if it was triggered. -/
structure Counted (s : Session) (triggered : Bool) : Prop where
  held : s.coordinator.locks.held = s.live.length
  flag : s.coordinator.locks.shuttingDown = triggered

theorem counted_start {c : Coordinator} (t : FileTree) (h : c.locks = {}) :
    Counted (start c t) false where
  held := by simp [start, h]
  flag := by simp [start, h]

theorem take_of_shuttingDown (w : Work) (h : s.coordinator.locks.shuttingDown = true) :
    s.take w = s := by
  simp [take, Coordinator.tryLock_of_shuttingDown h]

theorem Counted.take (hc : Counted s b) (w : Work) : Counted (s.take w) b := by
  cases b with
  | true =>
      rw [take_of_shuttingDown w hc.flag]
      exact hc
  | false =>
      constructor
      · simp [Session.take, Coordinator.tryLock_of_running hc.flag, hc.held]
      · simp [Session.take, Coordinator.tryLock_of_running hc.flag, hc.flag]

theorem Counted.drop {l : Nat × Work} (hc : Counted s b) (hl : l ∈ s.live) :
    Counted (s.drop l) b where
  held := by
    simp [Session.drop, Coordinator.release, Locks.release, hc.held, List.length_erase_of_mem hl]
  flag := hc.flag

theorem length_put {n : Nat} {p : FilePath} (r : Except InventoryError FileTree)
    (hl : (n, .saving p) ∈ s.live) : (s.put n p r).live.length = s.live.length := by
  have hpos := List.length_pos_of_mem hl
  simp only [put, List.length_cons, List.length_erase_of_mem hl]
  omega

/-- A whole save gives back the lock it took. -/
theorem Counted.save (hc : Counted s b) (p : FilePath) (inv : Inventory) (f : Fleet) :
    s.saved (inv.save f s.tree p s.coordinator) =
      { s with
        tree := if b then s.tree else Inventory.treeAfter s.tree (inv.write f s.tree p) } := by
  cases b with
  | true =>
      rw [inv.save_of_shuttingDown f s.tree p hc.flag]
      rfl
  | false =>
      rw [inv.save_of_running f s.tree p hc.flag]
      rfl

theorem Counted.step {e : Event} (hc : Counted s b) (hs : s.step? e = some s') :
    Counted s' (b || e.isTrigger) := by
  cases e with
  | tryLock =>
      cases hs
      simpa [Event.isTrigger] using hc.take .guarding
  | release n =>
      obtain ⟨l, hl, rfl⟩ := Option.map_eq_some_iff.mp hs
      simpa [Event.isTrigger] using hc.drop (List.mem_of_find?_eq_some hl)
  | trigger r =>
      cases hs
      exact ⟨by simp [Coordinator.trigger_held, hc.held],
        by simp [Coordinator.trigger_shuttingDown, Event.isTrigger]⟩
  | waited inTime =>
      obtain ⟨-, hs⟩ := Option.ite_none_right_eq_some.mp hs
      cases hs
      simpa [Event.isTrigger] using hc
  | save p inv f =>
      cases hs
      rw [hc.save p inv f]
      simp only [Event.isTrigger, Bool.or_false]
      exact ⟨hc.held, hc.flag⟩
  | beginSave p =>
      cases hs
      simpa [Event.isTrigger] using hc.take (.saving p)
  | write n p inv f =>
      obtain ⟨hl, hs⟩ := Option.ite_none_right_eq_some.mp hs
      cases hs
      simp only [Event.isTrigger, Bool.or_false]
      exact ⟨hc.held.trans (length_put _ hl).symm, hc.flag⟩

theorem Counted.run {es : List Event} (hc : Counted s b) (hr : s.run? es = some s') :
    Counted s' (b || es.any (·.isTrigger)) := by
  induction es generalizing s b with
  | nil =>
      cases hr
      simpa using hc
  | cons e es ih =>
      obtain ⟨m, hs, hr⟩ := Option.bind_eq_some_iff.mp hr
      rw [List.any_cons, ← Bool.or_assoc]
      exact ih (hc.step hs) hr

/-! ## After a trigger -/

/-- After a trigger a lock can only be given back, and only the saves that hold one write. -/
theorem Counted.step_triggered {e : Event} (hc : Counted s true) (hs : s.step? e = some s') :
    s'.live.length ≤ s.live.length ∧
      (s.live = [] → s' = { s with coordinator := s'.coordinator }) := by
  cases e with
  | tryLock =>
      cases hs
      simp [take_of_shuttingDown _ hc.flag]
  | release n =>
      obtain ⟨l, hl, rfl⟩ := Option.map_eq_some_iff.mp hs
      have hmem := List.mem_of_find?_eq_some hl
      refine ⟨List.length_erase_le, fun hnone => ?_⟩
      rw [hnone] at hmem
      cases hmem
  | trigger r =>
      cases hs
      exact ⟨Nat.le_refl _, fun _ => rfl⟩
  | waited inTime =>
      obtain ⟨-, hs⟩ := Option.ite_none_right_eq_some.mp hs
      cases hs
      exact ⟨Nat.le_refl _, fun _ => rfl⟩
  | save p inv f =>
      cases hs
      rw [hc.save p inv f]
      exact ⟨Nat.le_refl _, fun _ => rfl⟩
  | beginSave p =>
      cases hs
      simp [take_of_shuttingDown _ hc.flag]
  | write n p inv f =>
      obtain ⟨hl, hs⟩ := Option.ite_none_right_eq_some.mp hs
      cases hs
      refine ⟨Nat.le_of_eq (length_put _ hl), fun hnone => ?_⟩
      rw [hnone] at hl
      cases hl

theorem Counted.run_triggered {es : List Event} (hc : Counted s true) (hr : s.run? es = some s') :
    s'.live.length ≤ s.live.length ∧ (s.live = [] → s'.live = [] ∧ s'.tree = s.tree) := by
  induction es generalizing s with
  | nil =>
      cases hr
      exact ⟨Nat.le_refl _, fun h => ⟨h, rfl⟩⟩
  | cons e es ih =>
      obtain ⟨m, hs, hr⟩ := Option.bind_eq_some_iff.mp hr
      obtain ⟨hle, hquiet⟩ := hc.step_triggered hs
      obtain ⟨hle', hquiet'⟩ := ih (hc.step hs) hr
      refine ⟨Nat.le_trans hle' hle, fun hnone => ?_⟩
      have hm := hquiet hnone
      obtain ⟨hlive, htree⟩ := hquiet' (by rw [hm, hnone])
      exact ⟨hlive, by rw [htree, hm]⟩

/-! ## What follows from it -/

theorem Counted.release {l : Nat × Work} (hc : Counted s b) (hl : l ∈ s.live) :
    s.coordinator.release.locks.held + 1 = s.coordinator.locks.held := by
  have hpos := List.length_pos_of_mem hl
  simp only [Coordinator.release, Locks.release, hc.held]
  omega

/-- A save that nothing interrupts is a save in steps. -/
theorem Counted.save_run (hc : Counted s false) (p : FilePath) (inv : Inventory) (f : Fleet) :
    s.run? [.beginSave p, .write s.granted p inv f, .release s.granted] =
      (s.step? (.save p inv f)).map ({ · with granted := s.granted + 1 }) := by
  simp [run?, step?, hc.save, Session.take, Coordinator.tryLock_of_running hc.flag, put,
    Work.isDone, Session.drop, Coordinator.release, Locks.release]

theorem Counted.waited {es : List Event} (hc : Counted s true)
    (hr : s.run? (.waited true :: es) = some s') : s'.live = [] ∧ s'.tree = s.tree := by
  obtain ⟨m, hs, hr⟩ := Option.bind_eq_some_iff.mp hr
  obtain ⟨hfree, hs⟩ := Option.ite_none_right_eq_some.mp hs
  cases hs
  have hnone : s.live = [] := by
    rw [← List.length_eq_zero_iff, ← hc.held]
    exact Coordinator.locksFree_iff.mp (hfree rfl)
  exact (hc.run_triggered hr).2 hnone

theorem run?_append {es₁ es₂ : List Event} {s₁ : Session} (h₁ : s.run? es₁ = some s₁) :
    s.run? (es₁ ++ es₂) = s₁.run? es₂ := by
  induction es₁ generalizing s with
  | nil =>
      cases h₁
      rfl
  | cons e es ih =>
      obtain ⟨m, hs, h₁⟩ := Option.bind_eq_some_iff.mp h₁
      simp only [List.cons_append, run?, hs, Option.bind_some]
      exact ih h₁

/-- In every order of events, the held locks are the live ones and giving one back never passes
zero; the first trigger begins shutdown, and locks and saves are granted exactly until then. A save
gives its lock back however it ends, and one that is refused leaves the files alone. After a trigger
the number of live locks does not grow, and after a wait that then ended in time there is none, so
nothing writes any more. -/
theorem run?_guarded {c : Coordinator} {t : FileTree} {es : List Event} (hc : c.locks = {})
    (hr : (start c t).run? es = some s) :
    let begun := es.any (·.isTrigger)
    s.coordinator.locks.held = s.live.length ∧
      (∀ l ∈ s.live, s.coordinator.release.locks.held + 1 = s.coordinator.locks.held) ∧
      (∀ r, (s.coordinator.trigger r).1 = !begun) ∧ s.coordinator.tryLock.isSome = !begun ∧
      (∀ (inv : Inventory) f p, inv.save f s.tree p s.coordinator =
        (s.coordinator, if begun then .error .shuttingDown else inv.write f s.tree p)) ∧
      (∀ p inv f, s.step? (.save p inv f) =
        some { s with
          tree := if begun then s.tree else Inventory.treeAfter s.tree (inv.write f s.tree p) }) ∧
      (begun = false → ∀ p inv f,
        s.run? [.beginSave p, .write s.granted p inv f, .release s.granted] =
          (s.step? (.save p inv f)).map ({ · with granted := s.granted + 1 })) ∧
      (∀ es₁ es₂ s₁, es = es₁ ++ es₂ → (start c t).run? es₁ = some s₁ → es₁.any (·.isTrigger) →
        s.live.length ≤ s₁.live.length) ∧
      (∀ es₁ es₂ s₁, es = es₁ ++ .waited true :: es₂ → (start c t).run? es₁ = some s₁ →
        es₁.any (·.isTrigger) →
          s.live = [] ∧ s.tree = s₁.tree ∧ ∀ n p inv f, s.step? (.write n p inv f) = none) ∧
      ∀ tl : Timeline, tl.coordinator.locks = s.coordinator.locks → begun →
        tl.waitForLocks.1 = true → tl.waitForLocks.2.2.coordinator.locks = ⟨true, 0⟩ := by
  intro begun
  have hcount : Counted s begun := by
    simpa using (counted_start t hc).run hr
  have hbefore : ∀ {es₁ s₁}, (start c t).run? es₁ = some s₁ → es₁.any (·.isTrigger) →
      Counted s₁ true := by
    intro es₁ s₁ h₁ htrigger
    simpa [htrigger] using (counted_start t hc).run h₁
  refine ⟨hcount.held, fun _ => hcount.release, ?_, ?_, ?_, ?_, ?_, ?_, ?_, ?_⟩
  · intro r
    rw [Coordinator.trigger_fst, hcount.flag]
  · rw [Coordinator.tryLock_isSome, hcount.flag]
  · intro inv f p
    cases hb : begun with
    | true => exact inv.save_of_shuttingDown f s.tree p (hcount.flag.trans hb)
    | false => exact inv.save_of_running f s.tree p (hcount.flag.trans hb)
  · intro p inv f
    rw [step?, hcount.save p inv f]
  · intro hb p inv f
    exact (hb ▸ hcount).save_run p inv f
  · intro es₁ es₂ s₁ hes h₁ htrigger
    rw [hes, run?_append h₁] at hr
    exact ((hbefore h₁ htrigger).run_triggered hr).1
  · intro es₁ es₂ s₁ hes h₁ htrigger
    rw [hes, run?_append h₁] at hr
    obtain ⟨hlive, htree⟩ := (hbefore h₁ htrigger).waited hr
    exact ⟨hlive, htree, fun n p inv f => by simp [step?, hlive]⟩
  · intro tl hlocks hb hw
    have hfall := tl.falling_waitForLocks
    have hflag := hfall.flag (by rw [hlocks, hcount.flag, hb])
    have hheld := Timeline.waitForLocks_held hw
    rw [← hflag, ← hheld]

/-- A save is under way when shutdown is triggered; it writes and gives its lock back, the wait
ends, and another save is refused. -/
theorem run?_guarded_late :
    let c : Coordinator := { timeout := Coordinator.defaultTimeout }
    let p : FilePath := ⟨"inventory.toml"⟩
    let inv := Inventory.empty ⟨{}, false⟩
    let es₁ : List Event := [.beginSave p, .trigger .graceful, .write 0 p inv {}, .release 0]
    let es₂ : List Event := [.save p inv {}, .tryLock]
    c.locks = {} ∧ ∃ s, (start c .empty).run? (es₁ ++ .waited true :: es₂) = some s ∧
      s.live = [] ∧ s.tree.textAt ["inventory.toml"] = some "droplet = []\n" ∧
      inv.save {} s.tree p s.coordinator = (s.coordinator, .error .shuttingDown) := by
  intro c p inv es₁ es₂
  have htext : ((start c .empty).run? (es₁ ++ .waited true :: es₂)).bind
      (·.tree.textAt ["inventory.toml"]) = some "droplet = []\n" := by
    decide +kernel
  obtain ⟨s, hs, htext⟩ := Option.bind_eq_some_iff.mp htext
  obtain ⟨s₁, h₁⟩ : ∃ s₁, (start c .empty).run? es₁ = some s₁ :=
    Option.isSome_iff_exists.mp (by decide +kernel)
  have hg := run?_guarded rfl hs
  obtain ⟨-, -, -, -, hsave, -, -, -, hquiet, -⟩ := hg
  exact ⟨rfl, s, hs, (hquiet es₁ es₂ s₁ rfl h₁ rfl).1, htext, hsave inv {} p⟩

end ReverseProxy.Shutdown.Session
