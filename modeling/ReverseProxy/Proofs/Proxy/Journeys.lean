import Mathlib.Data.List.Induction
import ReverseProxy.Proofs.Proxy.Changes

/-!
# The way of a request

A request that is handled is answered at once or goes to one healthy member of the balancer of its
generation, and the answer of that backend is the answer to the request. `Journey` lists all that
can have been done; it is kept to whatever changes meanwhile.
-/

namespace ReverseProxy.Proxy

/-! ## Journeys -/

/-- A plain request goes to a healthy member of a balancer, as the settings of its generation want
it to be forwarded. -/
structure Forwards (v : Visit) (g : Generation) (b : Balancer) (f : Fleet) (h : Handle)
    (out : Http.Request) : Prop where
  member : h ∈ b.inventory.members
  sent : ∃ host, f.standing h = some (host, true) ∧
    v.request.forwardedTo host (g.peer v.client) = .ok out
  plain : v.request.headers.asksForWebsocket = false

/-- The traces of a request that is handled by one generation, with that balancer, while its
backends stand as in a fleet. -/
inductive Journey (v : Visit) (g : Generation) (b : Balancer) (f : Fleet) : List Entry → Prop
  | noBackend (hnone : ∀ h ∈ b.inventory.members, ∀ host, f.standing h ≠ some (host, true)) :
      Journey v g b f [.answered noBackend]
  | unroutable {h host e} (hmember : h ∈ b.inventory.members)
      (hhealthy : f.standing h = some (host, true))
      (hout : v.request.forwardedTo host (g.peer v.client) = .error e) :
      Journey v g b f [.answered backendFailed]
  | upgrading {h host out} (hmember : h ∈ b.inventory.members)
      (hhealthy : f.standing h = some (host, true))
      (hout : v.request.forwardedTo host (g.peer v.client) = .ok out)
      (hasks : v.request.headers.asksForWebsocket = true) (hcan : v.upgradable = true) :
      Journey v g b f [.upgrading h out]
  | cannotUpgrade (hasks : v.request.headers.asksForWebsocket = true)
      (hcannot : v.upgradable = false) : Journey v g b f [.answered cannotUpgrade]
  | forwarded {h out} (hf : Forwards v g b f h out) : Journey v g b f [.forwarded h out]
  | answered {h out} (hf : Forwards v g b f h out) (latency : Nat)
      (result : Http.Outcome Http.Response) : Journey v g b f
      [.forwarded h out, .returned h latency result, .answered (answerOf result)]
  | cancelled {h out} (hf : Forwards v g b f h out) :
      Journey v g b f [.forwarded h out, .cancelled]

variable {v : Visit} {g : Generation} {b : Balancer} {f f' : Fleet} {trace : List Entry}

theorem Forwards.congr {h : Handle} {out : Http.Request} (hf : Forwards v g b f h out)
    (hstand : ∀ h ∈ b.inventory.members, f'.standing h = f.standing h) :
    Forwards v g b f' h out := by
  obtain ⟨host, hhealthy, hout⟩ := hf.sent
  exact ⟨hf.member, ⟨host, (hstand h hf.member).trans hhealthy, hout⟩, hf.plain⟩

/-- A journey depends only on how the members stand. -/
theorem Journey.congr (hj : Journey v g b f trace)
    (hstand : ∀ h ∈ b.inventory.members, f'.standing h = f.standing h) :
    Journey v g b f' trace := by
  cases hj with
  | noBackend hnone =>
      refine .noBackend fun h hh host => ?_
      rw [hstand h hh]
      exact hnone h hh host
  | unroutable hmember hhealthy hout =>
      exact .unroutable hmember ((hstand _ hmember).trans hhealthy) hout
  | upgrading hmember hhealthy hout hasks hcan =>
      exact .upgrading hmember ((hstand _ hmember).trans hhealthy) hout hasks hcan
  | cannotUpgrade hasks hcannot => exact .cannotUpgrade hasks hcannot
  | forwarded hf => exact .forwarded (hf.congr hstand)
  | answered hf latency result => exact .answered (hf.congr hstand) latency result
  | cancelled hf => exact .cancelled (hf.congr hstand)

theorem Journey.forwards {h : Handle} {out : Http.Request}
    (hj : Journey v g b f [.forwarded h out]) : Forwards v g b f h out := by
  cases hj with
  | forwarded hf => exact hf

/-- Whoever handles a request has the balancer of its generation choose. -/
theorem journey_handle {p : Proxy} {b' : Balancer} (hb : p.balancers[g.balancer]? = some b')
    (hinv : b'.inventory = b.inventory) (v : Visit) (f : Fleet) :
    Journey v g b f [.ofArrival (p.handle g f v.request v.client v.upgradable).1] := by
  simp only [handle, pickFrom_eq hb]
  cases hpick : (b'.pick f).1 with
  | none =>
      refine .noBackend fun h hh host hstand => ?_
      obtain ⟨m, hm, hpair⟩ := Option.map_eq_some_iff.mp hstand
      have hill := Balancer.pick_eq_none hpick (hinv ▸ hh) hm
      rw [Prod.mk.injEq, hill] at hpair
      cases hpair.2
  | some h =>
      obtain ⟨hmember, m, hm, hhealthy⟩ := Balancer.pick_eq_some hpick
      rw [hinv] at hmember
      have hstand : f.standing h = some (m.host, true) := by
        rw [Fleet.standing, hm, Option.map_some, hhealthy]
      simp only [Option.bind_some, hm, Option.map_some]
      cases hout : v.request.forwardedTo m.host (g.peer v.client) with
      | error e => exact .unroutable hmember hstand hout
      | ok out =>
          cases hasks : v.request.headers.asksForWebsocket with
          | false => exact .forwarded ⟨hmember, ⟨_, hstand, hout⟩, hasks⟩
          | true =>
              cases hcan : v.upgradable with
              | false => exact .cannotUpgrade hasks hcan
              | true => exact .upgrading hmember hstand hout hasks hcan

namespace Session

/-! ## Requests of a run -/

/-- The `i`-th request of a run came while `s₁` was reached, whose generation it noted and which
served `b`; some events came after it. -/
structure Arrived (first : Session) (es : List Event) (i : Nat) (v : Visit) (g : Generation)
    (s₁ : Session) (b : Balancer) (after : List Event) : Prop where
  reached : ∃ before, es = before ++ .arrive v :: after ∧ first.run? before = some s₁
  number : i = s₁.exchanges.length
  generation : g = s₁.proxy.generation
  served : s₁.proxy.balancer? = some b

/-- What has become of the `i`-th request. Either it still waits, or left while it waited, or it was
handled in `s₂`. Its journey is one for the health of the backends then, and also for their health on
its arrival if nothing happened to it between. What a backend has returned is what the request was
completed with after that. -/
inductive Fate (s₁ : Session) (b : Balancer) (after : List Event) (i : Nat) (v : Visit)
    (g : Generation) (trace : List Entry) : Prop
  | waiting (ht : trace = [])
  | left (ht : trace = [.cancelled])
  | handled {between rest : List Event} {s₂ : Session}
      (hafter : after = between ++ .handle i :: rest)
      (hreached : s₁.run? (.arrive v :: between) = some s₂)
      (hjourney : Journey v g b s₂.fleet trace)
      (harrival : (∀ ev ∈ between, ev.keepsHealth = true) → Journey v g b s₁.fleet trace)
      (hreturned : ∀ latency result, (∃ h, .returned h latency result ∈ trace) ↔
        .complete i latency result ∈ rest)

def Followed (first : Session) (es : List Event) (i : Nat) (e : Exchange) : Prop :=
  ∃ s₁ b after, Arrived first es i e.visit e.generation s₁ b after ∧
    Fate s₁ b after i e.visit e.generation e.trace

variable {first s s' s₁ : Session} {es after : List Event} {ev : Event} {i : Nat}

theorem Arrived.snoc (ha : Arrived first es i v g s₁ b after) (ev : Event) :
    Arrived first (es ++ [ev]) i v g s₁ b (after ++ [ev]) where
  reached := by
    obtain ⟨before, hes, hrun⟩ := ha.reached
    exact ⟨before, by rw [hes, List.append_assoc, List.cons_append], hrun⟩
  number := ha.number
  generation := ha.generation
  served := ha.served

theorem Arrived.run? (ha : Arrived first es i v g s₁ b after) (hr : first.run? es = some s) :
    s₁.run? (.arrive v :: after) = some s := by
  obtain ⟨before, hes, hrun⟩ := ha.reached
  rw [hes, run?_append, hrun] at hr
  exact hr

theorem Arrived.sound (ha : Arrived first es i v g s₁ b after) (hf : Sound first) : Sound s₁ := by
  obtain ⟨before, -, hrun⟩ := ha.reached
  exact hf.run hrun

theorem Arrived.members (ha : Arrived first es i v g s₁ b after) (hf : Sound first) :
    ∀ h ∈ b.inventory.members, h < s₁.fleet.backends.length :=
  (ha.sound hf).members _ (List.mem_map_of_mem (List.mem_of_getElem? ha.served))

/-- The balancer of the generation is still there, with another cursor at most. -/
theorem Arrived.balancer (ha : Arrived first es i v g s₁ b after) (hf : Sound first)
    (hr : first.run? es = some s) :
    ∃ b', s.proxy.balancers[g.balancer]? = some b' ∧ b'.inventory = b.inventory := by
  obtain ⟨more, hmore⟩ := ((ha.sound hf).later_run (ha.run? hr)).inventories
  have hold : s₁.proxy.inventories[g.balancer]? = some b.inventory := by
    rw [ha.generation]
    exact (List.getElem?_map ..).trans (congrArg (Option.map _) ha.served)
  have hnew : s.proxy.inventories[g.balancer]? = some b.inventory := by
    rw [← hmore, List.getElem?_append_left (List.getElem?_eq_some_iff.mp hold).1]
    exact hold
  rw [inventories, List.getElem?_map] at hnew
  exact Option.map_eq_some_iff.mp hnew

/-! ### What has become of a request, one event later -/

theorem Fate.snoc (hf : Fate s₁ b after i v g trace)
    (hev : ∀ latency result, ev ≠ .complete i latency result) :
    Fate s₁ b (after ++ [ev]) i v g trace := by
  cases hf with
  | waiting ht => exact .waiting ht
  | left ht => exact .left ht
  | handled hafter hreached hjourney harrival hreturned =>
      refine .handled (by rw [hafter, List.append_assoc, List.cons_append]) hreached hjourney
        harrival fun latency result => ?_
      rw [hreturned, List.mem_append, List.mem_singleton,
        or_iff_left (hev latency result).symm]

theorem Arrived.handled (ha : Arrived first es i v g s₁ b after) (hf : Sound first)
    (hr : first.run? es = some s) :
    Fate s₁ b (after ++ [.handle i]) i v g [.ofArrival (s.arrival v g)] := by
  obtain ⟨b', hb', hinv⟩ := ha.balancer hf hr
  have hrun := ha.run? hr
  have hjourney := journey_handle hb' hinv v s.fleet
  refine .handled rfl hrun hjourney (fun hk => hjourney.congr fun h hh => ?_)
    fun latency result => ?_
  · refine ((ha.sound hf).standing_run hrun ?_ (ha.members hf h hh)).symm
    exact List.forall_mem_cons.mpr ⟨rfl, hk⟩
  · -- A request that has just been handled has no result yet.
    cases harr : s.arrival v g <;> simp [Entry.ofArrival]

/-- A request on its way has been handled, and whatever its journey may become, it becomes. -/
theorem Fate.proceed {h : Handle} {out : Http.Request} {trace' : List Entry}
    (hf : Fate s₁ b after i v g [.forwarded h out])
    (hproceed : ∀ f, Forwards v g b f h out → Journey v g b f trace')
    (hreturned : ∀ latency result, (∃ h, .returned h latency result ∈ trace') ↔
      ev = .complete i latency result) :
    Fate s₁ b (after ++ [ev]) i v g trace' := by
  cases hf with
  | waiting ht => cases ht
  | left ht => cases ht
  | @handled between rest s₂ hafter hreached hjourney harrival hbefore =>
      have hafter' : after ++ [ev] = between ++ .handle i :: (rest ++ [ev]) := by
        rw [hafter, List.append_assoc, List.cons_append]
      refine .handled hafter' hreached (hproceed _ hjourney.forwards)
        (fun hk => hproceed _ (harrival hk).forwards) fun latency result => ?_
      have hnone : .complete i latency result ∉ rest := by simp [← hbefore]
      rw [hreturned, List.mem_append, List.mem_singleton, or_iff_right hnone, eq_comm]

theorem Followed.snoc {e : Exchange} (hf : Followed first es i e)
    (hev : ∀ latency result, ev ≠ .complete i latency result) :
    Followed first (es ++ [ev]) i e := by
  obtain ⟨s₁, b, after, harrived, hfate⟩ := hf
  exact ⟨s₁, b, after ++ [ev], harrived.snoc ev, hfate.snoc hev⟩

/-- One request goes on, and all others stay where they are. -/
theorem followed_set {trace' : List Entry}
    (hall : ∀ j e, s.exchanges[j]? = some e → Followed first es j e)
    (hi : s.exchanges[i]? = some ⟨v, g, trace⟩)
    (hev : ∀ j latency result, ev = .complete j latency result → i = j)
    (hfate : ∀ s₁ b after, Arrived first es i v g s₁ b after → Fate s₁ b after i v g trace →
      Fate s₁ b (after ++ [ev]) i v g trace') (j : Nat) (e : Exchange)
    (hj : (s.exchanges.set i ⟨v, g, trace'⟩)[j]? = some e) : Followed first (es ++ [ev]) j e := by
  by_cases hij : i = j
  · subst hij
    rw [List.getElem?_set_self (List.getElem?_eq_some_iff.mp hi).1] at hj
    cases hj
    obtain ⟨s₁, b, after, harrived, hold⟩ := hall i _ hi
    exact ⟨s₁, b, after ++ [ev], harrived.snoc ev, hfate s₁ b after harrived hold⟩
  · rw [List.getElem?_set_ne hij] at hj
    exact (hall j e hj).snoc fun latency result heq => hij (hev j latency result heq)

theorem Step.followed (hs : Step s ev s') (hf : Sound first) (hr : first.run? es = some s)
    (hall : ∀ i e, s.exchanges[i]? = some e → Followed first es i e) (i : Nat) (e : Exchange)
    (hi : s'.exchanges[i]? = some e) : Followed first (es ++ [ev]) i e := by
  cases hs with
  | arrived v =>
      by_cases hlt : i < s.exchanges.length
      · rw [List.getElem?_append_left hlt] at hi
        exact (hall i e hi).snoc (by simp)
      · -- It is the request that has just arrived.
        obtain ⟨hlt', rfl⟩ := List.getElem?_eq_some_iff.mp hi
        rw [List.length_append, List.length_singleton] at hlt'
        have hlast : i = s.exchanges.length := by omega
        subst hlast
        rw [List.getElem_concat_length rfl]
        have hserved := List.getElem?_eq_getElem (hf.run hr).current
        exact ⟨s, _, [], ⟨⟨es, rfl, hr⟩, rfl, rfl, hserved⟩, .waiting rfl⟩
  | handled hold =>
      refine followed_set hall hold (by simp) (fun _ _ _ harrived _ => ?_) i e hi
      exact harrived.handled hf hr
  | completed hold latency result =>
      refine followed_set hall hold (by simp +contextual) (fun _ _ _ _ hfate => ?_) i e hi
      refine hfate.proceed (fun _ hforwards => .answered hforwards latency result) ?_
      simp [eq_comm]
  | left hold => exact followed_set hall hold (by simp) (fun _ _ _ _ _ => .left rfl) i e hi
  | cancelled hold =>
      refine followed_set hall hold (by simp) (fun _ _ _ _ hfate => ?_) i e hi
      exact hfate.proceed (fun _ hforwards => .cancelled hforwards) (by simp)
  | changed _ => exact (hall i e hi).snoc (by simp)

theorem Sound.followed_run (hf : Sound first) (hempty : first.exchanges = [])
    (hr : first.run? es = some s) :
    ∀ i e, s.exchanges[i]? = some e → Followed first es i e := by
  induction es using List.reverseRecOn generalizing s with
  | nil =>
      cases hr
      simp [hempty]
  | append_singleton es ev ih =>
      rw [run?_snoc] at hr
      obtain ⟨m, hm, hs⟩ := Option.bind_eq_some_iff.mp hr
      exact (step_of_step? hs).followed hf hm (ih hm)

theorem Followed.sent {e : Exchange} (h : Followed first es i e) (hf : Sound first)
    (hr : first.run? es = some s) {j : Handle} {out : Http.Request}
    (ht : e.trace = [.forwarded j out]) : j < s.fleet.backends.length := by
  obtain ⟨s₁, b, after, harrived, hfate⟩ := h
  rw [ht] at hfate
  cases hfate with
  | waiting ht => cases ht
  | left ht => cases ht
  | handled _ _ hjourney _ _ =>
      have hlater := (harrived.sound hf).later_run (harrived.run? hr)
      have hmember := harrived.members hf _ hjourney.forwards.member
      exact Nat.lt_of_lt_of_le hmember hlater.fleet

end Session

end ReverseProxy.Proxy
