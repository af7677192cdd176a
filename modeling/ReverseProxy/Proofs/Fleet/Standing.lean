import ReverseProxy.Proofs.Fleet

/-!
# What requests see of a fleet

Requests depend on the host and the health of a backend, and leave their mark on its transport.
Closing a backend changes neither, and new backends have no requests yet.
-/

namespace ReverseProxy.Fleet

variable {f : Fleet} {g : Backend → Backend} {h i : Handle}

/-! ## Host and health -/

/-- The host of a backend, and whether it is healthy. -/
def standing (f : Fleet) (h : Handle) : Option (String × Bool) :=
  (f.get? h).map fun b => (b.host, b.isHealthy)

theorem standing_update (hg : ∀ b, (g b).host = b.host ∧ (g b).isHealthy = b.isHealthy)
    (f : Fleet) (h i : Handle) : (f.update h g).standing i = f.standing i :=
  map_get?_update (fun b => Prod.ext (hg b).1 (hg b).2) f h i

theorem standing_closeAll (f : Fleet) (hs : List Handle) (i : Handle) :
    (f.closeAll hs).standing i = f.standing i := by
  refine closeAll_keeps (standing · i) (fun f h => ?_) f hs
  exact standing_update (g := Backend.close) (fun _ => ⟨rfl, rfl⟩) f h i

theorem standing_extend_of_lt (bs : List Backend) (hi : i < f.backends.length) :
    (f.extend bs).standing i = f.standing i := by
  rw [standing, standing, get?_extend_of_lt bs hi]

/-! ## Transports -/

/-- The accounting of a backend; there is none to a backend that is not there. -/
def transport (f : Fleet) (h : Handle) : Backend.Transport :=
  ((f.get? h).map (·.transport)).getD .idle

theorem transport_update_of_eq (hg : ∀ b, (g b).transport = b.transport) (f : Fleet)
    (h i : Handle) : (f.update h g).transport i = f.transport i := by
  rw [transport, map_get?_update hg]
  rfl

theorem transport_update_of_ne (f : Fleet) (g : Backend → Backend) (hne : h ≠ i) :
    (f.update h g).transport i = f.transport i := by
  simp [transport, get?_update, hne]

theorem transport_update_self {change : Backend.Transport → Backend.Transport}
    (hg : ∀ b, (g b).transport = change b.transport) (hh : h < f.backends.length) :
    (f.update h g).transport h = change (f.transport h) := by
  have hget : f.get? h = some f.backends[h] := List.getElem?_eq_getElem hh
  simp [transport, get?_update, hget, hg]

theorem transport_closeAll (f : Fleet) (hs : List Handle) (i : Handle) :
    (f.closeAll hs).transport i = f.transport i := by
  refine closeAll_keeps (transport · i) (fun f h => ?_) f hs
  exact transport_update_of_eq (g := Backend.close) (fun _ => rfl) f h i

theorem transport_extend {bs : List Backend} (hbs : ∀ b ∈ bs, b.transport = .idle) (f : Fleet)
    (i : Handle) : (f.extend bs).transport i = f.transport i := by
  by_cases hi : i < f.backends.length
  · rw [transport, get?_extend_of_lt bs hi]
    rfl
  · have hold : f.get? i = none := List.getElem?_eq_none (Nat.not_lt.mp hi)
    cases hnew : (f.extend bs).get? i with
    | none => simp [transport, hold, hnew]
    | some b =>
        have hget : bs[i - f.backends.length]? = some b := by
          rw [← hnew]
          exact (List.getElem?_append_right (Nat.not_lt.mp hi)).symm
        simp [transport, hold, hnew, hbs b (List.mem_of_getElem? hget)]

end ReverseProxy.Fleet
