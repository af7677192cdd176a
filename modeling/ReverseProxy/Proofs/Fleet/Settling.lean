import ReverseProxy.Proofs.Fleet.Monitors

/-!
# Fleets in which nothing is monitored again

Backends come to a fleet and their monitors stop, but a monitor that has stopped does not start
again: `Fleet.Settles` relates a fleet to what it becomes.
-/

namespace ReverseProxy

namespace Fleet

variable {f f' : Fleet}

/-- From one fleet to a later one, backends are added, and no backend from before is monitored
again. -/
structure Settles (f f' : Fleet) : Prop where
  grows : f.Grows f'
  monitored : ∀ h < f.backends.length, f'.monitored h = true → f.monitored h = true

theorem Settles.length_le (hf : f.Settles f') : f.backends.length ≤ f'.backends.length := by
  simpa [descriptions] using hf.grows.length_le

theorem settles_extend {bs : List Backend} (hg : f.Grows (f.extend bs)) :
    f.Settles (f.extend bs) :=
  ⟨hg, fun _ hh hm => (monitored_extend_of_lt bs hh).symm.trans hm⟩

theorem settles_create {d : Backend.Description} {ctx : Backend.Context} {now : Nat} {h : Handle}
    (hd : d.check = .ok () → d.Accepted) (hc : f.create d ctx now = .ok (h, f')) :
    f.Settles f' := by
  have hg := grows_create hd hc
  obtain ⟨-, rfl⟩ := Prod.ext_iff.mp (create_eq_add hc)
  exact settles_extend hg

theorem lt_of_create {d : Backend.Description} {ctx : Backend.Context} {now : Nat} {h : Handle}
    (hc : f.create d ctx now = .ok (h, f')) : h < f'.backends.length := by
  obtain ⟨rfl, rfl⟩ := Prod.ext_iff.mp (create_eq_add hc)
  simp [add]

theorem descriptions_getElem? (f : Fleet) {h : Handle} (hh : h < f.backends.length) :
    f.descriptions[h]? = some f.backends[h].description := by
  simp [descriptions, hh]

/-- Monitors that go on or stop where they are. -/
theorem settles_of_get? {g : Handle → Backend → Backend}
    (hget : ∀ h, f'.get? h = (f.get? h).map (g h))
    (hd : ∀ h b, (g h b).description = b.description)
    (hm : ∀ h b, (g h b).monitor.isSome = true → b.monitor.isSome = true) : f.Settles f' where
  grows := by
    refine .of_eq (List.ext_getElem? fun h => ?_)
    rw [← get?_description, ← get?_description, hget, Option.map_map]
    exact congrArg (Option.map · _) (funext (hd h))
  monitored := by
    intro h _
    rw [monitored, monitored, hget, Option.any_map]
    cases f.get? h with
    | none => simp
    | some b => exact hm h b

theorem settles_update {g : Backend → Backend} (hd : ∀ b, (g b).description = b.description)
    (hm : ∀ b, (g b).monitor.isSome = true → b.monitor.isSome = true) (f : Fleet) (h : Handle) :
    f.Settles (f.update h g) := by
  refine settles_of_get? (f.get?_update h g) (fun i b => ?_) (fun i b => ?_)
  · split
    · exact hd b
    · rfl
  · split
    · exact hm b
    · exact id

theorem settles_close (f : Fleet) (h : Handle) : f.Settles (f.close h) :=
  settles_update (g := Backend.close) (fun _ => rfl) (fun _ hm => by cases hm) f h

theorem monitored_of_settle {b : Backend} {shuttingDown : Bool}
    (hm : (b.settle shuttingDown).monitor.isSome = true) : b.monitor.isSome = true := by
  unfold Backend.settle at hm
  split at hm
  · cases hm
  · exact hm

/-! ## What becomes of backends by themselves -/

inductive Activity
  | beginCycle (h : Handle) (now : Nat)
  | endCycle (h : Handle) (outcome : Http.Outcome Http.Status)
  | close (h : Handle)
  | shutDown

def after (f : Fleet) : Activity → Fleet
  | .beginCycle h now => f.beginCycle h now
  | .endCycle h outcome => f.endCycle h outcome
  | .close h => f.close h
  | .shutDown => f.shutDown

theorem settles_after (f : Fleet) (a : Activity) : f.Settles (f.after a) := by
  cases a with
  | beginCycle h now =>
      refine settles_update (·.description_beginCycle now) (fun b hm => ?_) f h
      rwa [b.monitor_beginCycle] at hm
  | endCycle h outcome =>
      refine settles_update (fun b => ?_) (fun b hm => ?_) f h
      · rw [Backend.description_settle, b.description_endCycle]
      · rw [← b.monitor_endCycle outcome]
        exact monitored_of_settle hm
  | close h => exact f.settles_close h
  | shutDown =>
      refine settles_of_get? (g := fun _ => (·.settle true)) (fun h => ?_) (fun _ b => ?_)
        (fun _ b hm => monitored_of_settle hm)
      · simp [after, shutDown, get?]
      · exact b.description_settle true

end Fleet

end ReverseProxy
