import Mathlib.Algebra.GroupWithZero.Nat
import Mathlib.Algebra.Order.BigOperators.Group.List
import Mathlib.Algebra.Order.Group.Nat
import ReverseProxy.Proofs.Proxy.Journeys

/-!
# Every request of a run, and its mark on the backends

The gauge of a backend counts the requests on their way to it, and its windows add up to those it
has returned, whatever was served meanwhile. `run?_requests` puts this beside the way of each single
request.
-/

namespace ReverseProxy

theorem sum_map_set {α M : Type} [AddCommMonoid M] (g : α → M) {xs : List α} {i : Nat} {x : α}
    (hx : xs[i]? = some x) (y : α) :
    ((xs.set i y).map g).sum + g x = (xs.map g).sum + g y := by
  induction xs generalizing i with
  | nil => cases hx
  | cons a xs ih =>
      cases i with
      | zero =>
          cases hx
          simp only [List.set_cons_zero, List.map_cons, List.sum_cons]
          rw [add_right_comm, add_comm (g y), add_right_comm]
      | succ i =>
          simp only [List.set_cons_succ, List.map_cons, List.sum_cons, add_assoc]
          exact congrArg (g a + ·) (ih hx)

namespace Backend

/-! ## Windows add up -/

instance : AddCommMonoid Window where
  add := Window.merge
  zero := .empty
  add_assoc u v w := by
    change Window.merge (u.merge v) w = u.merge (v.merge w)
    simp only [Window.merge, Nat.add_assoc]
  zero_add w := by
    change Window.empty.merge w = w
    simp only [Window.merge, Window.empty, Nat.zero_add]
  add_zero w := by
    change w.merge .empty = w
    simp only [Window.merge, Window.empty, Nat.add_zero]
  add_comm v w := by
    change v.merge w = w.merge v
    simp only [Window.merge, Nat.add_comm]
  nsmul := @nsmulRec _ ⟨.empty⟩ ⟨Window.merge⟩

theorem Window.record_eq_add (w : Window) (latency : Nat) (failed : Bool) :
    w.record latency failed = w + Window.empty.record latency failed := by
  change w.record latency failed = w.merge (Window.empty.record latency failed)
  simp [record, merge, empty]

theorem running_beginCycle (b : Backend) (now : Nat) :
    (b.beginCycle now).transport.running = b.transport.running := by
  unfold beginCycle
  split
  · rfl
  · split <;> rfl

/-- A cycle takes the window and leaves an empty one, or leaves it alone. -/
theorem collected_beginCycle (b : Backend) (now : Nat) :
    b.collected + (b.beginCycle now).transport.window = b.transport.window := by
  unfold collected beginCycle
  cases b.monitor with
  | none => exact zero_add b.transport.window
  | some m =>
      by_cases hm : m.phase = .probing
      · simp only [hm, if_true]
        exact zero_add b.transport.window
      · simp only [hm, if_false]
        exact add_zero b.transport.window

theorem transport_setHealthy (b : Backend) (healthy : Bool) :
    (b.setHealthy healthy).transport = b.transport := rfl

theorem transport_endCycle (b : Backend) (outcome : Http.Outcome Http.Status)
    (shuttingDown : Bool) : ((b.endCycle outcome).settle shuttingDown).transport = b.transport := by
  have hsettle : ∀ b : Backend, (b.settle shuttingDown).transport = b.transport := fun b => by
    unfold settle
    split <;> rfl
  rw [hsettle]
  unfold endCycle
  split
  · rfl
  · split <;> rfl

end Backend

theorem Fleet.transport_beginCycle (f : Fleet) (h : Handle) (now : Nat) :
    (f.beginCycle h now).transport h =
      ((f.get? h).map fun b => (b.beginCycle now).transport).getD .idle := by
  rw [transport, beginCycle, get?_update, Option.map_map]
  congr 2
  funext b
  simp only [Function.comp_apply, if_true]

namespace Proxy

open Backend (Transport Window)

/-- What a request leaves in the windows of a backend. -/
def Entry.window (h : Handle) : Entry → Window
  | returned i latency result =>
    if i = h then Window.empty.record latency (Http.isFailure (result.map (·.status))) else 0
  | _ => 0

namespace Exchange

/-- One if the request is on its way to a backend. -/
def carried (h : Handle) (e : Exchange) : Nat :=
  match e.trace with
  | [.forwarded i _] => if i = h then 1 else 0
  | _ => 0

def window (h : Handle) (e : Exchange) : Window := (e.trace.map (·.window h)).sum

end Exchange

namespace Session

/-- The windows taken from a backend so far, added up. -/
def collected (s : Session) (h : Handle) : Window :=
  ((s.drained.filter (·.1 = h)).map (·.2)).sum

/-- Since a session began with a fleet, each gauge has counted the requests on their way, and the
windows have taken in what was returned. -/
structure Balanced (f : Fleet) (s : Session) : Prop where
  gauge : ∀ h, (s.fleet.transport h).running =
    (f.transport h).running + (s.exchanges.map (·.carried h)).sum
  windows : ∀ h, s.collected h + (s.fleet.transport h).window =
    (f.transport h).window + (s.exchanges.map (·.window h)).sum

variable {f f' : Fleet} {s s' : Session} {x y : Exchange} {i : Nat}

/-- What is done to the transports is the mark of one request, as it goes on. -/
def Marks (x y : Exchange) (f f' : Fleet) : Prop :=
  ∀ h, x.carried h ≤ (f.transport h).running →
    (f'.transport h).running + x.carried h = (f.transport h).running + y.carried h ∧
      (f'.transport h).window = (f.transport h).window + y.window h

theorem Balanced.set (hb : Balanced f s) (hx : s.exchanges[i]? = some x)
    (hwindow : ∀ h, x.window h = 0) (p : Proxy) (hmark : Marks x y s.fleet f') :
    Balanced f { s with proxy := p, fleet := f', exchanges := s.exchanges.set i y } := by
  have hle : ∀ h, x.carried h ≤ (s.fleet.transport h).running := fun h => by
    rw [hb.gauge h]
    refine Nat.le_add_left_of_le ?_
    exact List.le_sum_of_mem (List.mem_map_of_mem (List.mem_of_getElem? hx))
  constructor
  · intro h
    have hsum := sum_map_set (·.carried h) hx y
    have hgauge := hb.gauge h
    have hrunning := (hmark h (hle h)).1
    dsimp only at hsum ⊢
    omega
  · intro h
    have hsum := sum_map_set (·.window h) hx y
    rw [hwindow h, add_zero] at hsum
    dsimp only at hsum ⊢
    rw [(hmark h (hle h)).2, hsum, ← add_assoc, ← add_assoc, ← hb.windows h]
    rfl

/-- A request that goes on at one backend marks its transport only. -/
theorem marks_update {g : Backend → Backend} {h : Handle} (change : Transport → Transport)
    (hg : ∀ b, (g b).transport = change b.transport) (hh : h < f.backends.length)
    (hself : ∀ t : Transport, x.carried h ≤ t.running →
      (change t).running + x.carried h = t.running + y.carried h ∧
      (change t).window = t.window + y.window h)
    (hother : ∀ j, h ≠ j → x.carried j = y.carried j ∧ y.window j = 0) :
    Marks x y f (f.update h g) := by
  intro j hle
  by_cases hj : h = j
  · subst hj
    rw [Fleet.transport_update_self hg hh]
    exact hself _ hle
  · obtain ⟨hcarried, hwindow⟩ := hother j hj
    rw [Fleet.transport_update_of_ne f g hj, hcarried, hwindow, add_zero]
    exact ⟨rfl, rfl⟩

section

variable {v : Visit} {g : Generation} {h j : Handle} {out : Http.Request}

theorem carried_forwarded :
    (⟨v, g, [.forwarded h out]⟩ : Exchange).carried j = if h = j then 1 else 0 := rfl

theorem window_forwarded : (⟨v, g, [.forwarded h out]⟩ : Exchange).window j = 0 := by
  simp [Exchange.window, Entry.window]

theorem window_cancelled : (⟨v, g, [.forwarded h out, .cancelled]⟩ : Exchange).window j = 0 := by
  simp [Exchange.window, Entry.window]

theorem window_answered {latency : Nat} {result : Http.Outcome Http.Response}
    {r : Http.Response} :
    (⟨v, g, [.forwarded h out, .returned h latency result, .answered r]⟩ : Exchange).window j =
      if h = j then Window.empty.record latency (Http.isFailure (result.map (·.status))) else 0 := by
  simp [Exchange.window, Entry.window]

theorem Balanced.arrived (hb : Balanced f s) :
    Balanced f { s with exchanges := s.exchanges ++ [⟨v, g, []⟩] } where
  gauge h := by
    rw [List.map_append, List.sum_append]
    exact hb.gauge h
  windows h := by
    rw [List.map_append, List.sum_append]
    exact (hb.windows h).trans (congrArg (_ + ·) (add_zero _).symm)

theorem Balanced.handled (hb : Balanced f s) (hi : s.exchanges[i]? = some ⟨v, g, []⟩)
    (hthere : ∀ h out, s.arrival v g = .forwarded h out → h < s.fleet.backends.length) :
    Balanced f (s.handled i v g) := by
  refine hb.set hi (fun _ => rfl) _ ?_
  cases harr : s.arrival v g with
  | answered r => exact fun h _ => ⟨rfl, (add_zero _).symm⟩
  | upgrading h' out => exact fun h _ => ⟨rfl, (add_zero _).symm⟩
  | forwarded h out =>
      refine marks_update Transport.start (fun _ => rfl) (hthere h out harr) ?_ ?_
      · intro t _
        rw [Entry.ofArrival, carried_forwarded, window_forwarded, if_pos rfl, add_zero]
        exact ⟨rfl, rfl⟩
      · intro j hj
        rw [Entry.ofArrival, carried_forwarded, window_forwarded, if_neg hj]
        exact ⟨rfl, rfl⟩

theorem Balanced.completed (hb : Balanced f s)
    (hi : s.exchanges[i]? = some ⟨v, g, [.forwarded h out]⟩) (hthere : h < s.fleet.backends.length)
    (latency : Nat) (result : Http.Outcome Http.Response) :
    Balanced f (s.completed i v g h out latency result) := by
  refine hb.set hi (fun _ => window_forwarded) _ (marks_update
    (·.complete latency (Http.isFailure (result.map (·.status)))) (fun _ => rfl) hthere ?_ ?_)
  · intro t hle
    rw [carried_forwarded, if_pos rfl] at hle
    rw [carried_forwarded, window_answered, if_pos rfl, if_pos rfl, ← Window.record_eq_add]
    exact ⟨Nat.sub_add_cancel hle, rfl⟩
  · intro j hj
    rw [carried_forwarded, window_answered, if_neg hj, if_neg hj]
    exact ⟨rfl, rfl⟩

theorem Balanced.cancelled (hb : Balanced f s)
    (hi : s.exchanges[i]? = some ⟨v, g, [.forwarded h out]⟩)
    (hthere : h < s.fleet.backends.length) : Balanced f (s.cancelled i v g h out) := by
  refine hb.set hi (fun _ => window_forwarded) _
    (marks_update Transport.cancel (fun _ => rfl) hthere ?_ ?_)
  · intro t hle
    rw [carried_forwarded, if_pos rfl] at hle
    rw [carried_forwarded, window_cancelled, if_pos rfl, add_zero]
    exact ⟨Nat.sub_add_cancel hle, rfl⟩
  · intro j hj
    rw [carried_forwarded, window_cancelled, if_neg hj]
    exact ⟨rfl, rfl⟩

end

theorem taken_of_keepsHealth {c : Change} (hk : c.keepsHealth = true) (f : Fleet) :
    c.taken f = [] := by
  cases c <;> first | rfl | cases hk

/-- A change leaves the gauges alone, and a window that it empties is taken. -/
def Settles (c : Change) (f f' : Fleet) : Prop :=
  ∀ h, (f'.transport h).running = (f.transport h).running ∧
    (((c.taken f).filter (·.1 = h)).map (·.2)).sum + (f'.transport h).window =
      (f.transport h).window

theorem settles_of_eq {c : Change} (htaken : c.taken f = [])
    (htransport : ∀ h, f'.transport h = f.transport h) : Settles c f f' := by
  intro h
  rw [htaken, htransport h]
  exact ⟨rfl, zero_add _⟩

theorem settles_beginCycle (f : Fleet) (i : Handle) (now : Nat) :
    Settles (.beginCycle i now) f (f.beginCycle i now) := by
  intro h
  by_cases hi : i = h
  · subst hi
    simp only [Change.taken, List.filter_cons, decide_true, if_true, List.filter_nil,
      List.map_cons, List.map_nil, List.sum_singleton, Fleet.transport_beginCycle]
    rw [Fleet.transport]
    cases f.get? i with
    | none => exact ⟨rfl, zero_add (0 : Window)⟩
    | some b => exact ⟨b.running_beginCycle now, b.collected_beginCycle now⟩
  · rw [Fleet.beginCycle, Fleet.transport_update_of_ne f _ hi]
    simp only [Change.taken, List.filter_cons, decide_eq_false hi, Bool.false_eq_true, if_false,
      List.filter_nil, List.map_nil, List.sum_nil, zero_add, and_self]

theorem settles_of_fleetChange {c : Change} (hc : FleetChange f c f') : Settles c f f' := by
  cases hc with
  | unchanged hk => exact settles_of_eq (taken_of_keepsHealth hk f) fun _ => rfl
  | extended hidle b => exact settles_of_eq rfl (Fleet.transport_extend hidle f)
  | closed hk hs => exact settles_of_eq (taken_of_keepsHealth hk f) (f.transport_closeAll hs)
  | setHealthy h healthy =>
      refine settles_of_eq rfl (Fleet.transport_update_of_eq (fun b => ?_) f h)
      exact b.transport_setHealthy healthy
  | begun h now => exact settles_beginCycle f h now
  | ended h outcome =>
      refine settles_of_eq rfl (Fleet.transport_update_of_eq (fun b => ?_) f h)
      exact b.transport_endCycle outcome f.shuttingDown

theorem Balanced.changed {c : Change} (hb : Balanced f s) (hc : Settles c s.fleet f') (p : Proxy) :
    Balanced f { s with proxy := p, fleet := f', drained := s.drained ++ c.taken s.fleet } where
  gauge h := (hc h).1.trans (hb.gauge h)
  windows h := by
    rw [← hb.windows h, ← (hc h).2, ← add_assoc]
    simp only [collected, List.filter_append, List.map_append, List.sum_append]

variable {first : Session} {es : List Event} {ev : Event}

/-- Requests go to backends that are there, so every step leaves its mark. -/
theorem Balanced.step (hb : Balanced f s) (hs : s.step? ev = some s') (hf : Sound first)
    (hempty : first.exchanges = []) (hr : first.run? es = some s) : Balanced f s' := by
  have hr' : first.run? (es ++ [ev]) = some s' := by
    rw [run?_snoc, hr]
    exact hs
  cases step_of_step? hs with
  | arrived v => exact hb.arrived
  | @handled i v g hi =>
      refine hb.handled hi fun h out harr => ?_
      have hnew : (s.handled i v g).exchanges[i]? = some ⟨v, g, [.forwarded h out]⟩ := by
        rw [Session.handled, harr]
        exact List.getElem?_set_self (List.getElem?_eq_some_iff.mp hi).1
      rw [← s.length_enter (s.arrival v g)]
      exact (hf.followed_run hempty hr' i _ hnew).sent hf hr' rfl
  | completed hi latency result =>
      exact hb.completed hi ((hf.followed_run hempty hr _ _ hi).sent hf hr rfl) latency result
  | left hi =>
      exact hb.set hi (fun _ => rfl) s.proxy fun h _ => ⟨rfl, (add_zero _).symm⟩
  | cancelled hi => exact hb.cancelled hi ((hf.followed_run hempty hr _ _ hi).sent hf hr rfl)
  | changed hc => exact hb.changed (settles_of_fleetChange (fleetChange_of_result? hc)) _

theorem Balanced.run (hb : Balanced f first) (hf : Sound first) (hempty : first.exchanges = [])
    (hr : first.run? es = some s) : Balanced f s := by
  induction es using List.reverseRecOn generalizing s with
  | nil =>
      cases hr
      exact hb
  | append_singleton es ev ih =>
      rw [run?_snoc] at hr
      obtain ⟨m, hm, hs⟩ := Option.bind_eq_some_iff.mp hr
      exact (ih hm).step hs hf hempty hm

end Session

end Proxy

end ReverseProxy
