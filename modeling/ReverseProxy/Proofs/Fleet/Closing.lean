import ReverseProxy.Proofs.Backend.Post
import ReverseProxy.Proofs.Fleet
import ReverseProxy.Proxy

/-!
# Monitors that are stopped

Whoever closes a backend takes its monitor, asks it to stop and waits until it has ended. In the
meantime the monitor goes on, a probe may be in flight, and others may close the same backend: they
find no monitor and return at once. A monitor that nobody holds has ended, unless a call still has
it in its hands: that is what `Sound` keeps.
-/

namespace ReverseProxy.Fleet

open Backend (Post)

/-! ## Occasions -/

/-- On what occasion backends are closed. -/
inductive Occasion
  | backend (h : Handle)
  | removal (inv : Inventory) (id : String)
  | inventory (inv : Inventory)
  | balancer (b : Balancer)
  | retirement (p : Proxy) (next : Nat)
  | proxy (p : Proxy)

namespace Occasion

/-- Whom they are to be closed one after another. -/
def handles (f : Fleet) : Occasion → List Handle
  | backend h => [h]
  | removal inv id => (inv.find? f id).toList
  | inventory inv => inv.members
  | balancer b => b.inventory.members
  | retirement p next =>
    if p.current = next then [] else (p.balancer?.map (·.inventory.members)).getD []
  | proxy p => (p.balancer?.map (·.inventory.members)).getD []

/-- What becomes of the fleet if nothing comes between. -/
def result (f : Fleet) : Occasion → Fleet
  | backend h => f.close h
  | removal inv id =>
    match inv.remove f id with
    | .ok (_, _, f) => f
    | .error _ => f
  | inventory inv => inv.close f
  | balancer b => b.close f
  | retirement p next => p.retire f next
  | proxy p => p.close f

theorem result_eq_closeAll (f : Fleet) (o : Occasion) : o.result f = f.closeAll (o.handles f) := by
  have hproxy (p : Proxy) : p.close f =
      f.closeAll ((p.balancer?.map (·.inventory.members)).getD []) := by
    rw [Proxy.close]
    cases p.balancer? <;> rfl
  cases o with
  | backend h => rfl
  | removal inv id =>
      simp only [result, handles, Inventory.remove]
      cases inv.find? f id <;> rfl
  | inventory inv => rfl
  | balancer b => rfl
  | retirement p next =>
      simp only [result, handles, Proxy.retire]
      split
      · rfl
      · exact hproxy p
  | proxy p => exact hproxy p

end Occasion

/-! ## Steps -/

inductive Stage
  | ready
  /-- The monitor of a backend has been taken, but not yet asked to stop. -/
  | taken (h : Handle)
  | awaiting (h : Handle)
deriving DecidableEq

/-- A call that closes backends: where it stands, and whom it has still to close. -/
structure Call where
  stage : Stage := .ready
  remaining : List Handle
deriving DecidableEq

def Call.busyWith (c : Call) (h : Handle) : Prop := c.stage = .taken h ∨ c.stage = .awaiting h

inductive Event
  | create (d : Backend.Description) (ctx : Backend.Context) (now : Nat)
  | act (h : Handle) (a : Post.Act)
  | use (h : Handle) (u : Backend.Use)
  | close (o : Occasion)
  | proceed (i : Nat)
  /-- Nobody holds a backend any longer, and its monitor is asked to stop. -/
  | drop (h : Handle)
  | shutDown

/-- The backends with their monitors, and the calls that close them. -/
structure Session where
  posts : List Post := []
  calls : List Call := []
  shuttingDown : Bool := false
  /-- Whom a close has returned for. -/
  returned : List Handle := []

namespace Session

variable {s s' : Session} {h : Handle}

/-- The fleet as it is known between two changes of a monitor. -/
def fleet (s : Session) : Fleet := ⟨s.posts.map (·.backend), s.shuttingDown⟩

def setCall (s : Session) (i : Nat) (c : Call) : Session := { s with calls := s.calls.set i c }

def updatePost (s : Session) (h : Handle) (g : Post → Post) : Session :=
  { s with posts := s.posts.modify h g }

def return_ (s : Session) (h : Handle) : Session := { s with returned := h :: s.returned }

/-- Lets a call go on: it takes the monitor of the next backend, if there is one to take, asks it to
stop, and waits for its end. -/
def proceed? (s : Session) (i : Nat) : Call → Option Session
  | ⟨.ready, []⟩ => none
  | ⟨.ready, h :: hs⟩ => (s.posts[h]?).map fun p =>
    if p.held then (s.updatePost h Post.take).setCall i ⟨.taken h, hs⟩
    else (s.return_ h).setCall i ⟨.ready, hs⟩
  | ⟨.taken h, hs⟩ => some ((s.updatePost h Post.cancel).setCall i ⟨.awaiting h, hs⟩)
  | ⟨.awaiting h, hs⟩ =>
    if (s.posts[h]?).any (·.point = .ended) then some ((s.return_ h).setCall i ⟨.ready, hs⟩)
    else none

/-- What follows; none if it cannot happen. -/
def step? (s : Session) : Event → Option Session
  | .create d ctx now => some <|
    match Backend.create d ctx now with
    | .ok b => { s with posts := s.posts ++ [.ofBackend b] }
    | .error _ => s
  | .act h a => do
    let p ← (← s.posts[h]?).step? s.shuttingDown a
    return s.updatePost h fun _ => p
  | .use h u => some (s.updatePost h (·.use u))
  | .close o => some { s with calls := s.calls ++ [{ remaining := o.handles s.fleet }] }
  | .proceed i => (s.calls[i]?).bind (s.proceed? i)
  | .drop h => some (s.updatePost h Post.cancel)
  | .shutDown => some { s with shuttingDown := true }

/-- Lets events happen one after another; none if one of them cannot. -/
def run? (s : Session) : List Event → Option Session
  | [] => some s
  | e :: es => (s.step? e).bind (·.run? es)

theorem run?_append (s : Session) (es es' : List Event) :
    s.run? (es ++ es') = (s.run? es).bind (·.run? es') := by
  induction es generalizing s with
  | nil => rfl
  | cons e es ih =>
      simp only [List.cons_append, run?, ih, Option.bind_assoc]

/-- Whether a call has the monitor of a backend in its hands. -/
def Busy (s : Session) (h : Handle) : Prop := ∃ c ∈ s.calls, c.busyWith h

/-! ## The invariant -/

/-- Whether a backend does not hold its monitor any longer, or never had one. -/
def Relieved (s : Session) (h : Handle) : Prop := ∃ p, s.posts[h]? = some p ∧ p.held = false

/-- A monitor that is not held has ended or is in the hands of a call, and those that calls have in
their hands or have returned for are not held. -/
structure Sound (s : Session) : Prop where
  relieved : ∀ h p, s.posts[h]? = some p → p.held = false → p.point = .ended ∨ s.Busy h
  taken : ∀ h, s.Busy h → s.Relieved h
  returned : ∀ h ∈ s.returned, s.Relieved h

theorem sound_initial : Sound {} := ⟨by simp, fun h ⟨c, hc, _⟩ => by simp at hc, by simp⟩

/-! ### Posts -/

theorem getElem?_updatePost (s : Session) (h : Handle) (g : Post → Post) (i : Handle) :
    (s.updatePost h g).posts[i]? = (s.posts[i]?).map fun p => if h = i then g p else p := by
  simp only [updatePost, List.getElem?_modify]
  split <;> simp

theorem Relieved.updatePost {g : Post → Post} (hr : s.Relieved h)
    (hg : ∀ p, s.posts[h]? = some p → p.held = false → (g p).held = false) (i : Handle) :
    (s.updatePost i g).Relieved h := by
  obtain ⟨p, hp, hheld⟩ := hr
  refine ⟨_, (getElem?_updatePost s i g h).trans (by rw [hp]; rfl), ?_⟩
  split
  · exact hg p hp hheld
  · exact hheld

/-- What leaves a backend in the hands it is in, and an ended monitor as it is, keeps the
invariant. -/
theorem Sound.updatePost {g : Post → Post} (hs : Sound s)
    (hheld : ∀ p, s.posts[h]? = some p → (g p).held = p.held)
    (hended : ∀ p, s.posts[h]? = some p → p.point = .ended → (g p).point = .ended) :
    Sound (s.updatePost h g) := by
  have hkeep (i : Handle) (hr : s.Relieved i) : (s.updatePost h g).Relieved i := by
    by_cases hi : h = i
    · subst hi
      exact hr.updatePost (fun p hp hfalse => (hheld p hp).trans hfalse) h
    · obtain ⟨p, hp, hfalse⟩ := hr
      exact ⟨p, by simp [getElem?_updatePost, hi, hp], hfalse⟩
  refine ⟨fun i p hp hfalse => ?_, fun i hb => hkeep i (hs.taken i hb),
    fun i hi => hkeep i (hs.returned i hi)⟩
  rw [getElem?_updatePost] at hp
  obtain ⟨p₀, hp₀, rfl⟩ := Option.map_eq_some_iff.mp hp
  by_cases hi : h = i
  · subst hi
    rw [if_pos rfl] at hfalse ⊢
    rw [hheld p₀ hp₀] at hfalse
    exact (hs.relieved h p₀ hp₀ hfalse).imp (hended p₀ hp₀) id
  · rw [if_neg hi] at hfalse ⊢
    exact hs.relieved i p₀ hp₀ hfalse

theorem Sound.create (hs : Sound s) (b : Backend) :
    Sound { s with posts := s.posts ++ [.ofBackend b] } := by
  have hkeep (i : Handle) (hr : s.Relieved i) :
      Relieved { s with posts := s.posts ++ [.ofBackend b] } i := by
    obtain ⟨p, hp, hfalse⟩ := hr
    exact ⟨p, (List.getElem?_append_left (List.getElem?_eq_some_iff.mp hp).1).trans hp, hfalse⟩
  refine ⟨fun i p hp hfalse => ?_, fun i hb => hkeep i (hs.taken i hb),
    fun i hi => hkeep i (hs.returned i hi)⟩
  rw [List.getElem?_append] at hp
  split at hp
  · exact hs.relieved i p hp hfalse
  · -- A backend that comes without a monitor has none that could go on.
    rw [List.mem_singleton.mp (List.mem_of_getElem? hp)] at hfalse ⊢
    have hnone : b.monitor = none := by simpa [Post.ofBackend] using hfalse
    exact .inl (by simp [Post.ofBackend, Post.Point.ofBackend, hnone])

/-! ### Calls -/

variable {i : Nat} {c c' : Call} {hs' : List Handle}

theorem Busy.setCall (hb : s.Busy h) (hi : s.calls[i]? = some c)
    (hc : c.busyWith h → c'.busyWith h) : (s.setCall i c').Busy h := by
  obtain ⟨c₀, hmem, hbusy⟩ := hb
  obtain ⟨j, hj⟩ := List.getElem?_of_mem hmem
  by_cases hij : i = j
  · subst hij
    rw [hj] at hi
    cases hi
    exact ⟨c', List.mem_set (List.getElem?_eq_some_iff.mp hj).1 c', hc hbusy⟩
  · exact ⟨c₀, List.mem_of_getElem? ((List.getElem?_set_ne hij).trans hj), hbusy⟩

theorem Busy.of_setCall (hb : (s.setCall i c').Busy h) : s.Busy h ∨ c'.busyWith h := by
  obtain ⟨c₀, hmem, hbusy⟩ := hb
  rcases List.mem_or_eq_of_mem_set hmem with hmem | rfl
  · exact .inl ⟨c₀, hmem, hbusy⟩
  · exact .inr hbusy

/-- A call takes the monitor of a backend. -/
theorem Sound.take (hs : Sound s) (hi : s.calls[i]? = some ⟨.ready, h :: hs'⟩) {p : Post}
    (hp : s.posts[h]? = some p) :
    Sound ((s.updatePost h Post.take).setCall i ⟨.taken h, hs'⟩) := by
  have hkeep (j : Handle) (hr : s.Relieved j) : (s.updatePost h Post.take).Relieved j :=
    hr.updatePost (fun _ _ _ => rfl) h
  refine ⟨fun j q hq hfalse => ?_, fun j hb => ?_, fun j hj => hkeep j (hs.returned j hj)⟩
  · by_cases hhj : h = j
    · subst hhj
      exact .inr ⟨_, List.mem_set (List.getElem?_eq_some_iff.mp hi).1 _, .inl rfl⟩
    · have hget := (s.getElem?_updatePost h Post.take j).symm.trans hq
      simp only [hhj, if_false, Option.map_id'] at hget
      refine (hs.relieved j q hget hfalse).imp id fun hb => ?_
      exact Busy.setCall (s := s.updatePost h Post.take) hb hi (by simp [Call.busyWith])
  · rcases hb.of_setCall with hb | hb
    · exact hkeep j (hs.taken j hb)
    · have hhj : h = j := by simpa [Call.busyWith] using hb
      subst hhj
      exact ⟨p.take, (s.getElem?_updatePost h Post.take h).trans (by simp [hp]), rfl⟩

/-- A call that goes on with the monitor in its hands, or lets it go when it has ended. -/
theorem Sound.setCall (hs : Sound s) (hi : s.calls[i]? = some c)
    (hc : ∀ h, c'.busyWith h → c.busyWith h)
    (hended : ∀ h p, s.posts[h]? = some p → c.busyWith h → ¬ c'.busyWith h → p.point = .ended) :
    Sound (s.setCall i c') := by
  refine ⟨fun j p hp hfalse => ?_, fun j hb => ?_, hs.returned⟩
  · rcases hs.relieved j p hp hfalse with hend | hb
    · exact .inl hend
    · by_cases hkeep : c.busyWith j → c'.busyWith j
      · exact .inr (hb.setCall hi hkeep)
      · obtain ⟨hbusy, hfree⟩ := Classical.not_imp.mp hkeep
        exact .inl (hended j p hp hbusy hfree)
  · rcases hb.of_setCall with hb | hb
    · exact hs.taken j hb
    · exact hs.taken j ⟨c, List.mem_of_getElem? hi, hc j hb⟩

theorem Sound.return_ (hs : Sound s) (hr : s.Relieved h) : Sound (s.return_ h) where
  relieved := hs.relieved
  taken := hs.taken
  returned := by
    intro i hi
    rcases List.mem_cons.mp hi with rfl | hi
    · exact hr
    · exact hs.returned i hi

theorem Sound.proceed (hs : Sound s) (hi : s.calls[i]? = some c)
    (hstep : s.proceed? i c = some s') : Sound s' := by
  obtain ⟨stage, remaining⟩ := c
  cases stage with
  | ready =>
      cases remaining with
      | nil => cases hstep
      | cons h hs' =>
          obtain ⟨p, hp, rfl⟩ := Option.map_eq_some_iff.mp hstep
          split
          · exact hs.take hi hp
          · rename_i hheld
            refine Sound.setCall (hs.return_ ⟨p, hp, by simpa using hheld⟩) hi ?_ ?_
            · exact fun _ hb => by simp [Call.busyWith] at hb
            · exact fun _ _ _ hb => by simp [Call.busyWith] at hb
  | taken h =>
      cases hstep
      have hcancel : Sound (s.updatePost h Post.cancel) :=
        hs.updatePost (fun _ _ => rfl) (fun _ _ hend => hend)
      refine hcancel.setCall hi ?_ ?_
      · exact fun _ hb => by simpa [Call.busyWith] using hb
      · exact fun _ _ _ hb hfree => absurd (by simpa [Call.busyWith] using hb) hfree
  | awaiting h =>
      obtain ⟨hend, hstep⟩ := Option.ite_none_right_eq_some.mp hstep
      cases hstep
      have hbusy : s.Busy h := ⟨_, List.mem_of_getElem? hi, .inr rfl⟩
      refine (hs.return_ (hs.taken h hbusy)).setCall hi ?_ ?_
      · exact fun _ hb => by simp [Call.busyWith] at hb
      · intro j p hp hb _
        have hj : h = j := by simpa [Call.busyWith] using hb
        subst hj
        have hp : s.posts[h]? = some p := hp
        simpa [hp] using hend

theorem Sound.act {a : Post.Act} {p p' : Post} (hs : Sound s) (hp : s.posts[h]? = some p)
    (ha : p.step? s.shuttingDown a = some p') : Sound (s.updatePost h fun _ => p') := by
  refine hs.updatePost (fun q hq => ?_) (fun q hq hend => ?_)
  · rw [hp] at hq
    cases hq
    obtain ⟨_, -, rfl⟩ := Option.map_eq_some_iff.mp ha
    rfl
  · rw [hp] at hq
    cases hq
    rw [Post.step?_of_ended hend] at ha
    cases ha

theorem Sound.step {e : Event} (hs : Sound s) (hstep : s.step? e = some s') : Sound s' := by
  cases e with
  | create d ctx now =>
      cases hstep
      cases Backend.create d ctx now with
      | error e => exact hs
      | ok b => exact hs.create b
  | act h a =>
      obtain ⟨p, hp, hstep⟩ := Option.bind_eq_some_iff.mp hstep
      obtain ⟨p', ha, hstep⟩ := Option.bind_eq_some_iff.mp hstep
      cases hstep
      exact hs.act hp ha
  | use h u =>
      cases hstep
      exact hs.updatePost (fun _ _ => rfl) (fun _ _ hend => hend)
  | close o =>
      cases hstep
      have hbusy (h : Handle) :
          Busy { s with calls := s.calls ++ [{ remaining := o.handles s.fleet }] } h ↔ s.Busy h := by
        simp [Busy, or_and_right, exists_or, Call.busyWith]
      refine ⟨fun h p hp hfalse => ?_, fun h hb => hs.taken h ((hbusy h).mp hb), hs.returned⟩
      exact (hs.relieved h p hp hfalse).imp id (hbusy h).mpr
  | proceed i =>
      obtain ⟨c, hi, hstep⟩ := Option.bind_eq_some_iff.mp hstep
      exact hs.proceed hi hstep
  | drop h =>
      cases hstep
      exact hs.updatePost (fun _ _ => rfl) (fun _ _ hend => hend)
  | shutDown =>
      cases hstep
      exact ⟨hs.relieved, hs.taken, hs.returned⟩

theorem Sound.run? {es : List Event} (hs : Sound s) (hrun : s.run? es = some s') : Sound s' := by
  induction es generalizing s with
  | nil =>
      cases hrun
      exact hs
  | cons e es ih =>
      obtain ⟨s₁, hstep, hrest⟩ := Option.bind_eq_some_iff.mp hrun
      exact ih (hs.step hstep) hrest

end Session

end ReverseProxy.Fleet
