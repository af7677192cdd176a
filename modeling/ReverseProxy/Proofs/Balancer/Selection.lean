import Mathlib.Data.List.Basic
import ReverseProxy.Balancer

/-!
# What a balancer chooses

Every strategy chooses a healthy member of the inventory, and none only if there is no healthy
member. Only the cursor changes.
-/

namespace ReverseProxy

namespace Balancer

variable {α β : Type}

/-! ## The next one in turn -/

/-- Going around once from any cursor passes every index. -/
theorem mem_around (cursor : Nat) {n i : Nat} (hi : i < n) :
    i ∈ (List.range n).map fun k => (cursor + k) % n := by
  have hlt : cursor % n < n := Nat.mod_lt _ (Nat.zero_lt_of_lt hi)
  have hsum : cursor % n + (i + (n - cursor % n)) = i + n := by omega
  refine List.mem_map.mpr ⟨(i + (n - cursor % n)) % n, List.mem_range.mpr (Nat.mod_lt _ ?_), ?_⟩
  · exact Nat.zero_lt_of_lt hi
  · calc (cursor + (i + (n - cursor % n)) % n) % n
        = (cursor + (i + (n - cursor % n))) % n := Nat.add_mod_mod _ _ _
      _ = (cursor % n + (i + (n - cursor % n))) % n := (Nat.mod_add_mod _ _ _).symm
      _ = (i + n) % n := by rw [hsum]
      _ = i := by rw [Nat.add_mod_right, Nat.mod_eq_of_lt hi]

theorem inTurn_eq_some {healthy : α → Bool} {xs : List α} {cursor i : Nat}
    (h : (inTurn healthy xs cursor).1 = some i) : ∃ x, xs[i]? = some x ∧ healthy x = true := by
  simp only [inTurn] at h
  split at h
  · rename_i j hfind
    cases h
    have hfound := List.find?_some hfind
    exact (Option.any_eq_true _ _).mp hfound
  · cases h

theorem inTurn_eq_none {healthy : α → Bool} {xs : List α} {cursor : Nat}
    (h : (inTurn healthy xs cursor).1 = none) : ∀ x ∈ xs, healthy x = false := by
  simp only [inTurn] at h
  split at h
  · cases h
  · rename_i hfind
    intro x hx
    obtain ⟨i, hi, rfl⟩ := List.getElem_of_mem hx
    have hnot := List.find?_eq_none.mp hfind i (mem_around cursor hi)
    simpa [hi] using hnot

/-! ## The one with the least key -/

theorem foldl_better_isSome (below : β → β → Bool) (key : α → β) (xs : List α) (x : α) :
    (xs.foldl (better below key) (some x)).isSome := by
  induction xs generalizing x with
  | nil => rfl
  | cons y ys ih =>
      simp only [List.foldl_cons, better]
      split
      · exact ih y
      · exact ih x

theorem foldl_better_mem (below : β → β → Bool) (key : α → β) (xs : List α) {best : Option α}
    {x : α} (h : xs.foldl (better below key) best = some x) : best = some x ∨ x ∈ xs := by
  induction xs generalizing best with
  | nil => exact .inl h
  | cons y ys ih =>
      rcases ih h with hy | hy
      · -- One of the two is the better one.
        cases best with
        | none =>
            cases hy
            exact .inr List.mem_cons_self
        | some b =>
            simp only [better] at hy
            split at hy
            · cases hy
              exact .inr List.mem_cons_self
            · exact .inl hy
      · exact .inr (List.mem_cons_of_mem y hy)

theorem least_mem {below : β → β → Bool} {key : α → β} {xs : List α} {x : α}
    (h : least below key xs = some x) : x ∈ xs := by
  rcases foldl_better_mem below key xs h with hnone | hx
  · cases hnone
  · exact hx

theorem least_eq_none {below : β → β → Bool} {key : α → β} {xs : List α}
    (h : least below key xs = none) : xs = [] := by
  cases xs with
  | nil => rfl
  | cons x xs =>
      have hsome := foldl_better_isSome below key xs x
      rw [least, List.foldl_cons, better] at h
      rw [h] at hsome
      cases hsome

/-! ## Choosing a backend -/

variable {b : Balancer} {f : Fleet} {h : Handle}

theorem mem_candidates {m : Backend} :
    (h, m) ∈ b.candidates f ↔ h ∈ b.inventory.members ∧ f.get? h = some m := by
  simp only [candidates, List.mem_filterMap, Option.map_eq_some_iff, Prod.mk.injEq]
  constructor
  · rintro ⟨i, hi, m', hm, rfl, rfl⟩
    exact ⟨hi, hm⟩
  · rintro ⟨hh, hm⟩
    exact ⟨h, hh, m, hm, rfl, rfl⟩

theorem pick_eq_some (hp : (b.pick f).1 = some h) :
    h ∈ b.inventory.members ∧ ∃ m, f.get? h = some m ∧ m.isHealthy = true := by
  suffices hc : ∃ m, (h, m) ∈ b.candidates f ∧ m.isHealthy = true by
    obtain ⟨m, hm, hhealthy⟩ := hc
    obtain ⟨hmember, hget⟩ := mem_candidates.mp hm
    exact ⟨hmember, m, hget, hhealthy⟩
  unfold pick at hp
  split at hp
  · obtain ⟨i, hi, hh⟩ := Option.bind_eq_some_iff.mp hp
    obtain ⟨⟨h', m⟩, hm, rfl⟩ := Option.map_eq_some_iff.mp hh
    obtain ⟨c, hc, hhealthy⟩ := inTurn_eq_some hi
    rw [hm, Option.some.injEq] at hc
    subst hc
    exact ⟨m, List.mem_of_getElem? hm, hhealthy⟩
  all_goals
    obtain ⟨⟨h', m⟩, hm, rfl⟩ := Option.map_eq_some_iff.mp hp
    obtain ⟨hmem, hhealthy⟩ := List.mem_filter.mp (least_mem hm)
    exact ⟨m, hmem, hhealthy⟩

/-- No backend is chosen only if no member is healthy. -/
theorem pick_eq_none (hp : (b.pick f).1 = none) {m : Backend} (hh : h ∈ b.inventory.members)
    (hm : f.get? h = some m) : m.isHealthy = false := by
  have hc := mem_candidates.mpr ⟨hh, hm⟩
  unfold pick at hp
  split at hp
  · cases hi : (inTurn (fun c : Handle × Backend => c.2.isHealthy) (b.candidates f) b.cursor).1 with
    | none => exact inTurn_eq_none hi _ hc
    | some i =>
        obtain ⟨c, hget, -⟩ := inTurn_eq_some hi
        simp [hi, hget] at hp
  all_goals
    have hnil := least_eq_none (Option.map_eq_none_iff.mp hp)
    exact Bool.eq_false_iff.mpr (List.filter_eq_nil_iff.mp hnil _ hc)

theorem pick_inventory (b : Balancer) (f : Fleet) : (b.pick f).2.inventory = b.inventory := by
  unfold pick
  split <;> rfl

end Balancer

end ReverseProxy
