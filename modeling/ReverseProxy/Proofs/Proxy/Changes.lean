import ReverseProxy.Proofs.Proxy.Session

/-!
# What lasts while a session goes on

Inventories and backends are only added to, and nothing but a change of health changes how a backend
stands. So a generation that was noted once serves as well at any later time.
-/

namespace ReverseProxy

namespace Proxy

/-! ## Proxies -/

def inventories (p : Proxy) : List Inventory := p.balancers.map (·.inventory)

variable {p : Proxy} {f : Fleet}

theorem pickFrom_eq {i : Nat} {b : Balancer} (hb : p.balancers[i]? = some b) (f : Fleet) :
    p.pickFrom i f = ((b.pick f).1, p.updateAt i fun _ => (b.pick f).2) := by
  simp only [pickFrom, hb]

/-- Choosing moves a cursor at most. -/
theorem inventories_pickFrom (p : Proxy) (i : Nat) (f : Fleet) :
    (p.pickFrom i f).2.inventories = p.inventories := by
  cases hb : p.balancers[i]? with
  | none => simp only [pickFrom, hb]
  | some b =>
      rw [pickFrom_eq hb]
      refine List.ext_getElem? fun j => ?_
      simp only [inventories, updateAt, List.getElem?_map, List.getElem?_modify]
      by_cases hj : i = j
      · subst hj
        simp [hb, Balancer.pick_inventory]
      · simp [hj]

theorem current_pickFrom (p : Proxy) (i : Nat) (f : Fleet) :
    (p.pickFrom i f).2.current = p.current := by
  unfold pickFrom
  split <;> rfl

theorem inventories_addBalancer (p : Proxy) (b : Balancer) :
    (p.addBalancer b).2.inventories = p.inventories ++ [b.inventory] := by
  simp [inventories, addBalancer]

theorem length_inventories (p : Proxy) : p.inventories.length = p.balancers.length :=
  List.length_map _

theorem close_eq_closeAll (p : Proxy) (f : Fleet) : ∃ hs, p.close f = f.closeAll hs := by
  unfold close
  cases p.balancer? with
  | none => exact ⟨[], rfl⟩
  | some b => exact ⟨b.inventory.members, rfl⟩

theorem retire_eq_closeAll (p : Proxy) (f : Fleet) (next : Nat) :
    ∃ hs, p.retire f next = f.closeAll hs := by
  unfold retire
  split
  · exact ⟨[], rfl⟩
  · exact p.close_eq_closeAll f

/-! ## Changes -/

/-- What a change does to the fleet: it adds backends without requests, closes some, or does
something to one backend that its host and its requests do not notice. -/
inductive FleetChange (f : Fleet) : Change → Fleet → Prop
  | unchanged {c : Change} (hk : c.keepsHealth = true) : FleetChange f c f
  | extended {new : List Backend} (hidle : ∀ m ∈ new, m.transport = .idle) (b : Balancer) :
      FleetChange f (.make new b) (f.extend new)
  | closed {c : Change} (hk : c.keepsHealth = true) (hs : List Handle) :
      FleetChange f c (f.closeAll hs)
  | setHealthy (h : Handle) (healthy : Bool) :
      FleetChange f (.setHealthy h healthy) (f.update h (·.setHealthy healthy))
  | begun (h : Handle) (now : Nat) : FleetChange f (.beginCycle h now) (f.beginCycle h now)
  | ended (h : Handle) (outcome : Http.Outcome Http.Status) :
      FleetChange f (.endCycle h outcome) (f.endCycle h outcome)

variable {p' : Proxy} {f' : Fleet} {c : Change}

theorem fleetChange_of_result? (hc : c.result? p f = some (p', f')) : FleetChange f c f' := by
  cases c with
  | setSettings settings =>
      cases hc
      exact .unchanged rfl
  | make new b =>
      obtain ⟨⟨-, hidle⟩, hs⟩ := Option.ite_none_right_eq_some.mp hc
      cases hs
      exact .extended hidle b
  | serve next =>
      obtain ⟨-, hs⟩ := Option.ite_none_right_eq_some.mp hc
      cases hs
      obtain ⟨hs, hclosed⟩ := p.retire_eq_closeAll f next
      rw [hclosed]
      exact .closed rfl hs
  | replace settings next =>
      obtain ⟨-, hs⟩ := Option.ite_none_right_eq_some.mp hc
      cases hs
      obtain ⟨hs, hclosed⟩ := (p.setSettings settings).retire_eq_closeAll f next
      rw [hclosed]
      exact .closed rfl hs
  | close =>
      cases hc
      obtain ⟨hs, hclosed⟩ := p.close_eq_closeAll f
      rw [hclosed]
      exact .closed rfl hs
  | setHealthy h healthy =>
      cases hc
      exact .setHealthy h healthy
  | beginCycle h now =>
      cases hc
      exact .begun h now
  | endCycle h outcome =>
      cases hc
      exact .ended h outcome

theorem FleetChange.length_le (hc : FleetChange f c f') :
    f.backends.length ≤ f'.backends.length := by
  cases hc with
  | unchanged _ => exact Nat.le_refl _
  | extended hidle b =>
      rw [Fleet.extend, List.length_append]
      exact Nat.le_add_right _ _
  | closed _ hs => exact Nat.le_of_eq (f.length_closeAll hs).symm
  | setHealthy h healthy => exact Nat.le_of_eq (List.length_modify _ _ _).symm
  | begun h now => exact Nat.le_of_eq (List.length_modify _ _ _).symm
  | ended h outcome => exact Nat.le_of_eq (List.length_modify _ _ _).symm

theorem FleetChange.standing (hc : FleetChange f c f') (hk : c.keepsHealth = true)
    {h : Handle} (hh : h < f.backends.length) : f'.standing h = f.standing h := by
  cases hc with
  | unchanged _ => rfl
  | extended hidle b => exact Fleet.standing_extend_of_lt _ hh
  | closed _ hs => exact f.standing_closeAll hs h
  | setHealthy _ _ => cases hk
  | begun _ _ => cases hk
  | ended _ _ => cases hk

/-- A change may add an inventory, whose members are there, and has a balancer served that is there
too. -/
theorem proxy_of_result? (hc : c.result? p f = some (p', f'))
    (hcurrent : p.current < p.balancers.length) :
    p'.current < p'.balancers.length ∧ ∃ more, p'.inventories = p.inventories ++ more ∧
      ∀ inv ∈ more, ∀ h ∈ inv.members, h < f'.backends.length := by
  cases c with
  | make new b =>
      obtain ⟨⟨hmembers, -⟩, hs⟩ := Option.ite_none_right_eq_some.mp hc
      cases hs
      refine ⟨?_, [b.inventory], inventories_addBalancer _ b, fun inv hinv h hh => ?_⟩
      · simp only [addBalancer, List.length_append]
        exact Nat.lt_add_right _ hcurrent
      · rw [List.mem_singleton.mp hinv] at hh
        rw [Fleet.extend, List.length_append]
        exact hmembers h hh
  | serve next =>
      obtain ⟨hnext, hs⟩ := Option.ite_none_right_eq_some.mp hc
      cases hs
      exact ⟨hnext, [], (List.append_nil _).symm, by simp⟩
  | replace settings next =>
      obtain ⟨hnext, hs⟩ := Option.ite_none_right_eq_some.mp hc
      cases hs
      exact ⟨hnext, [], (List.append_nil _).symm, by simp⟩
  | _ =>
      cases hc
      exact ⟨hcurrent, [], (List.append_nil _).symm, by simp⟩

namespace Session

variable {s s' : Session} {e : Event} {es : List Event}

/-! ## Steps -/

theorem length_enter (s : Session) (a : Arrival) :
    (s.enter a).backends.length = s.fleet.backends.length := by
  cases a with
  | forwarded h out => exact List.length_modify _ _ _
  | answered r => rfl
  | upgrading h out => rfl

theorem standing_enter (s : Session) (a : Arrival) (h : Handle) :
    (s.enter a).standing h = s.fleet.standing h := by
  cases a with
  | forwarded i out => exact Fleet.standing_update (g := (·.startRequest)) (fun _ => ⟨rfl, rfl⟩) _ i h
  | answered r => rfl
  | upgrading i out => rfl

/-- The served balancer is there, and so are the members of every inventory. -/
structure Sound (s : Session) : Prop where
  current : s.proxy.current < s.proxy.balancers.length
  members : ∀ inv ∈ s.proxy.inventories, ∀ h ∈ inv.members, h < s.fleet.backends.length

theorem sound_start {settings : Settings} {b : Balancer}
    (hb : ∀ h ∈ b.inventory.members, h < f.backends.length) : Sound (start settings b f) where
  current := Nat.one_pos
  members inv hinv := by
    rw [List.mem_singleton.mp hinv]
    exact hb

theorem Sound.congr (h : Sound s) (hcurrent : s'.proxy.current = s.proxy.current)
    (hinventories : s'.proxy.inventories = s.proxy.inventories)
    (hlength : s'.fleet.backends.length = s.fleet.backends.length) : Sound s' where
  current := by
    rw [hcurrent, ← length_inventories, hinventories, length_inventories]
    exact h.current
  members := by
    rw [hinventories, hlength]
    exact h.members

theorem Sound.step (h : Sound s) (hs : Step s e s') : Sound s' := by
  cases hs with
  | arrived v => exact h.congr rfl rfl rfl
  | handled hi =>
      exact h.congr (current_pickFrom _ _ _) (inventories_pickFrom _ _ _) (s.length_enter _)
  | completed hi latency result => exact h.congr rfl rfl (List.length_modify _ _ _)
  | left hi => exact h.congr rfl rfl rfl
  | cancelled hi => exact h.congr rfl rfl (List.length_modify _ _ _)
  | changed hc =>
      obtain ⟨hcurrent, more, heq, hmore⟩ := proxy_of_result? hc h.current
      refine ⟨hcurrent, fun inv hinv i hi => ?_⟩
      rw [heq] at hinv
      rcases List.mem_append.mp hinv with hinv | hinv
      · exact Nat.lt_of_lt_of_le (h.members inv hinv i hi) (fleetChange_of_result? hc).length_le
      · exact hmore inv hinv i hi

/-- From one moment of a session to a later one, inventories and backends were added at most. -/
structure Later (s s' : Session) : Prop where
  inventories : s.proxy.inventories <+: s'.proxy.inventories
  fleet : s.fleet.backends.length ≤ s'.fleet.backends.length

theorem Later.refl (s : Session) : Later s s := ⟨List.prefix_refl _, Nat.le_refl _⟩

theorem Later.trans {s'' : Session} (h : Later s s') (h' : Later s' s'') : Later s s'' :=
  ⟨h.inventories.trans h'.inventories, Nat.le_trans h.fleet h'.fleet⟩

theorem Later.of_eq (hinventories : s'.proxy.inventories = s.proxy.inventories)
    (hlength : s'.fleet.backends.length = s.fleet.backends.length) : Later s s' :=
  ⟨⟨[], by rw [List.append_nil, hinventories]⟩, Nat.le_of_eq hlength.symm⟩

theorem Step.later (hs : Step s e s') (h : Sound s) : Later s s' := by
  cases hs with
  | arrived v => exact .of_eq rfl rfl
  | handled hi => exact .of_eq (inventories_pickFrom _ _ _) (s.length_enter _)
  | completed hi latency result => exact .of_eq rfl (List.length_modify _ _ _)
  | left hi => exact .of_eq rfl rfl
  | cancelled hi => exact .of_eq rfl (List.length_modify _ _ _)
  | changed hc =>
      obtain ⟨-, more, heq, -⟩ := proxy_of_result? hc h.current
      exact ⟨⟨more, heq.symm⟩, (fleetChange_of_result? hc).length_le⟩

theorem Step.standing (hs : Step s e s') (hk : e.keepsHealth = true) {h : Handle}
    (hh : h < s.fleet.backends.length) : s'.fleet.standing h = s.fleet.standing h := by
  cases hs with
  | arrived v => rfl
  | handled hi => exact s.standing_enter _ h
  | completed hi latency result =>
      exact Fleet.standing_update (g := (·.completeRequest latency (result.map (·.status))))
        (fun _ => ⟨rfl, rfl⟩) _ _ h
  | left hi => rfl
  | cancelled hi =>
      exact Fleet.standing_update (g := (·.cancelRequest)) (fun _ => ⟨rfl, rfl⟩) _ _ h
  | changed hc => exact (fleetChange_of_result? hc).standing hk hh

/-! ## Runs -/

theorem Sound.run (h : Sound s) (hr : s.run? es = some s') : Sound s' := by
  induction es generalizing s with
  | nil =>
      cases hr
      exact h
  | cons e es ih =>
      obtain ⟨m, hs, hr⟩ := Option.bind_eq_some_iff.mp hr
      exact ih (h.step (step_of_step? hs)) hr

theorem Sound.later_run (h : Sound s) (hr : s.run? es = some s') : Later s s' := by
  induction es generalizing s with
  | nil =>
      cases hr
      exact .refl _
  | cons e es ih =>
      obtain ⟨m, hs, hr⟩ := Option.bind_eq_some_iff.mp hr
      have hstep := step_of_step? hs
      exact (hstep.later h).trans (ih (h.step hstep) hr)

theorem Sound.standing_run (h : Sound s) (hr : s.run? es = some s')
    (hk : ∀ e ∈ es, e.keepsHealth = true) {i : Handle} (hi : i < s.fleet.backends.length) :
    s'.fleet.standing i = s.fleet.standing i := by
  induction es generalizing s with
  | nil =>
      cases hr
      rfl
  | cons e es ih =>
      obtain ⟨m, hs, hr⟩ := Option.bind_eq_some_iff.mp hr
      obtain ⟨he, hes⟩ := List.forall_mem_cons.mp hk
      have hstep := step_of_step? hs
      have hi' := Nat.lt_of_lt_of_le hi (hstep.later h).fleet
      exact (ih (h.step hstep) hr hes hi').trans (hstep.standing he hi)

end Session

end Proxy

end ReverseProxy
