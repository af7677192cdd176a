import Mathlib.Data.List.Basic
import Mathlib.Order.Defs.LinearOrder
import ReverseProxy.Proofs.Balancer.Selection
import ReverseProxy.Proofs.Scalar.Order

/-!
# Which backend a balancer chooses

Each strategy has a rule that leaves no choice: in turn, the cursor goes round to the first healthy
candidate and is left just after it (`Turn`); otherwise the first of the healthy candidates with the
least key is chosen (`Leftmost`).
-/

namespace ReverseProxy

namespace Balancer

/-! ## The first with the least key -/

section Leftmost

variable {α β κ : Type}

/-- The first element with the least key: all before it have larger keys, none after it a smaller
one. -/
def Leftmost [LT κ] [LE κ] (key : α → κ) (xs : List α) (x : α) : Prop :=
  ∃ before after, xs = before ++ x :: after ∧
    (∀ y ∈ before, key x < key y) ∧ ∀ y ∈ after, key x ≤ key y

/-- The order of the keys may be stated by other keys. -/
theorem Leftmost.imp {κ' : Type} [LT κ] [LE κ] [LT κ'] [LE κ'] {key : α → κ} {key' : α → κ'}
    {xs : List α} {x : α} (h : Leftmost key xs x)
    (hlt : ∀ y ∈ xs, key x < key y → key' x < key' y)
    (hle : ∀ y ∈ xs, key x ≤ key y → key' x ≤ key' y) : Leftmost key' xs x := by
  obtain ⟨before, after, rfl, hbefore, hafter⟩ := h
  refine ⟨before, after, rfl, fun y hy => ?_, fun y hy => ?_⟩
  · exact hlt y (List.mem_append_left _ hy) (hbefore y hy)
  · exact hle y (List.mem_append_right _ (.tail _ hy)) (hafter y hy)

theorem Leftmost.map {γ : Type} [LT κ] [LE κ] {g : α → γ} {key : γ → κ} {xs : List α} {x : α}
    (h : Leftmost (key ∘ g) xs x) : Leftmost key (xs.map g) (g x) := by
  obtain ⟨before, after, rfl, hbefore, hafter⟩ := h
  refine ⟨before.map g, after.map g, by simp, ?_, ?_⟩
  · exact List.forall_mem_map.mpr hbefore
  · exact List.forall_mem_map.mpr hafter

theorem Leftmost.mem [LT κ] [LE κ] {key : α → κ} {xs : List α} {x : α} (h : Leftmost key xs x) :
    x ∈ xs := by
  obtain ⟨before, after, rfl, -, -⟩ := h
  exact List.mem_append_right _ List.mem_cons_self

/-- The index of the first element with the least key. -/
theorem Leftmost.exists_getElem? [LT κ] [LE κ] {key : α → κ} {xs : List α} {x : α}
    (h : Leftmost key xs x) :
    ∃ p : Nat, xs[p]? = some x ∧ ∀ i < p, ∀ y, xs[i]? = some y → key x < key y := by
  obtain ⟨before, after, rfl, hbefore, -⟩ := h
  refine ⟨before.length, by simp, fun i hi y hy => hbefore y ?_⟩
  rw [List.getElem?_append_left hi] at hy
  exact List.mem_of_getElem? hy

variable [LinearOrder κ] {key : α → κ} {xs : List α} {x y : α}

theorem Leftmost.le (h : Leftmost key xs x) (hy : y ∈ xs) : key x ≤ key y := by
  obtain ⟨before, after, rfl, hbefore, hafter⟩ := h
  rcases List.mem_append.mp hy with hy | hy
  · exact (hbefore y hy).le
  · rcases List.mem_cons.mp hy with rfl | hy
    · exact le_rfl
    · exact hafter y hy

theorem leftmost_singleton (x : α) : Leftmost key [x] x := ⟨[], [], rfl, by simp, by simp⟩

/-- An element with a larger key may be put before all others. -/
theorem Leftmost.cons (h : Leftmost key xs x) (hlt : key x < key y) : Leftmost key (y :: xs) x := by
  obtain ⟨before, after, rfl, hbefore, hafter⟩ := h
  exact ⟨y :: before, after, rfl, List.forall_mem_cons.mpr ⟨hlt, hbefore⟩, hafter⟩

/-- An element may be put right after one whose key is no larger. -/
theorem Leftmost.insert {z : α} (h : Leftmost key (y :: xs) x) (hle : key y ≤ key z) :
    Leftmost key (y :: z :: xs) x := by
  obtain ⟨before, after, heq, hbefore, hafter⟩ := h
  cases before with
  | nil =>
      obtain ⟨rfl, rfl⟩ := List.cons.inj heq
      exact ⟨[], z :: xs, rfl, by simp, List.forall_mem_cons.mpr ⟨hle, hafter⟩⟩
  | cons y' before =>
      obtain ⟨rfl, rfl⟩ := List.cons.inj heq
      obtain ⟨hy, hbefore⟩ := List.forall_mem_cons.mp hbefore
      exact ⟨y :: z :: before, after, rfl,
        List.forall_mem_cons.mpr ⟨hy, List.forall_mem_cons.mpr ⟨hy.trans_le hle, hbefore⟩⟩, hafter⟩

variable {below : β → β → Bool} {view : α → β}

theorem foldl_better_leftmost (b : α)
    (hbelow : ∀ y ∈ b :: xs, ∀ z ∈ b :: xs, below (view y) (view z) = true ↔ key y < key z)
    (h : xs.foldl (better below view) (some b) = some x) : Leftmost key (b :: xs) x := by
  induction xs generalizing b with
  | nil =>
      cases h
      exact leftmost_singleton x
  | cons y ys ih =>
      rw [List.foldl_cons, better] at h
      have hyb := hbelow y (by simp) b (by simp)
      split at h
      · rename_i hlt
        have hrest := ih y (fun z hz w hw => hbelow z (.tail _ hz) w (.tail _ hw)) h
        exact hrest.cons ((hrest.le List.mem_cons_self).trans_lt (hyb.mp hlt))
      · rename_i hnot
        have hsub : ∀ z ∈ b :: ys, z ∈ b :: y :: ys := by simp +contextual
        have hrest := ih b (fun z hz w hw => hbelow z (hsub z hz) w (hsub w hw)) h
        exact hrest.insert (not_lt.mp (mt hyb.mpr hnot))

/-- The fold over the candidates finds the first with the least key, if its test agrees with the
order of the keys. -/
theorem least_leftmost
    (hbelow : ∀ y ∈ xs, ∀ z ∈ xs, below (view y) (view z) = true ↔ key y < key z)
    (h : least below view xs = some x) : Leftmost key xs x := by
  cases xs with
  | nil => cases h
  | cons b xs => exact foldl_better_leftmost b hbelow h

end Leftmost

/-! ## The next one in turn -/

/-- A turn of the cursor: the candidates that it passes are not healthy, and it is left just after
the one that it stops at. It goes once around if there is none. -/
inductive Turn (cs : List (Handle × Backend)) (cursor : Nat) : Option Handle → Nat → Prop
  | found (k : Nat) (h : Handle) (m : Backend) (hk : k < cs.length)
      (get : cs[(cursor + k) % cs.length]? = some (h, m)) (healthy : m.isHealthy = true)
      (passed : ∀ j < k, ∀ c, cs[(cursor + j) % cs.length]? = some c → c.2.isHealthy = false) :
      Turn cs cursor (some h) (((cursor + k) % cs.length + 1) % cs.length)
  | missed (unhealthy : ∀ c ∈ cs, c.2.isHealthy = false) :
      Turn cs cursor none (cursor % cs.length)

theorem inTurn_found {α : Type} {healthy : α → Bool} {xs : List α} {cursor i : Nat}
    (h : (inTurn healthy xs cursor).1 = some i) :
    ∃ k < xs.length, i = (cursor + k) % xs.length ∧
      (inTurn healthy xs cursor).2 = (i + 1) % xs.length ∧
      ∀ j < k, ∀ y, xs[(cursor + j) % xs.length]? = some y → healthy y = false := by
  simp only [inTurn] at h ⊢
  split at h
  · rename_i i' hfind
    cases h
    rw [List.find?_map] at hfind
    obtain ⟨k, hk, rfl⟩ := Option.map_eq_some_iff.mp hfind
    obtain ⟨-, hmem, hpassed⟩ := List.find?_range_eq_some.mp hk
    refine ⟨k, List.mem_range.mp hmem, rfl, rfl, fun j hj y hy => ?_⟩
    simpa [hy] using hpassed j hj
  · cases h

theorem inTurn_missed {α : Type} {healthy : α → Bool} {xs : List α} {cursor : Nat}
    (h : (inTurn healthy xs cursor).1 = none) :
    (inTurn healthy xs cursor).2 = cursor % xs.length := by
  simp only [inTurn] at h ⊢
  split at h
  · cases h
  · rfl

/-! ## Choosing a backend -/

variable {b : Balancer} {f : Fleet} {h : Handle}

theorem map_snd_candidates (b : Balancer) (f : Fleet) :
    (b.candidates f).map (·.2) = b.inventory.backends f := by
  simp [candidates, Inventory.backends, Fleet.select, List.map_filterMap, Function.comp_def]

theorem mem_backends {c : Handle × Backend} (hc : c ∈ b.candidates f) :
    c.2 ∈ b.inventory.backends f := by
  rw [← map_snd_candidates]
  exact List.mem_map_of_mem hc

theorem pick_eq_none_iff :
    (b.pick f).1 = none ↔ ∀ m ∈ b.inventory.backends f, m.isHealthy = false := by
  constructor
  · intro hnone m hm
    obtain ⟨h, hh, hget⟩ := List.mem_filterMap.mp hm
    exact pick_eq_none hnone hh hget
  · intro hall
    rw [Option.eq_none_iff_forall_ne_some]
    intro h hsome
    obtain ⟨hmember, m, hget, hhealthy⟩ := pick_eq_some hsome
    rw [hall m (List.mem_filterMap.mpr ⟨h, hmember, hget⟩)] at hhealthy
    cases hhealthy

theorem pick_turn (hs : b.strategy = .roundRobin) :
    Turn (b.candidates f) b.cursor (b.pick f).1 (b.pick f).2.cursor := by
  simp only [pick, hs]
  cases hi : (inTurn (fun c : Handle × Backend => c.2.isHealthy) (b.candidates f) b.cursor).1 with
  | none =>
      rw [inTurn_missed hi]
      exact .missed (inTurn_eq_none hi)
  | some i =>
      obtain ⟨k, hk, rfl, hnext, hpassed⟩ := inTurn_found hi
      obtain ⟨⟨h, m⟩, hget, hhealthy⟩ := inTurn_eq_some hi
      rw [hnext, Option.bind_some, hget]
      exact .found k h m hk hget hhealthy hpassed

variable (b f) in
/-- The healthy members of the inventory, in its order. -/
def healthyCandidates : List (Handle × Backend) := (b.candidates f).filter (·.2.isHealthy)

theorem pick_connections (hs : b.strategy = .leastConnections) (hp : (b.pick f).1 = some h) :
    ∃ m, Leftmost (·.2.connections) (b.healthyCandidates f) (h, m) := by
  simp only [pick, hs, Option.map_eq_some_iff] at hp
  obtain ⟨⟨h, m⟩, hleast, rfl⟩ := hp
  exact ⟨m, least_leftmost (fun _ _ _ _ => decide_eq_true_iff) hleast⟩

theorem pick_latency (hs : b.strategy = .lowestLatency) (hp : (b.pick f).1 = some h)
    (hl : ∀ m ∈ b.inventory.backends f, m.latency.isNaN = false) :
    ∃ m, Leftmost (·.2.latency) (b.healthyCandidates f) (h, m) := by
  simp only [pick, hs, Option.map_eq_some_iff] at hp
  obtain ⟨⟨h, m⟩, hleast, rfl⟩ := hp
  have hnumber : ∀ c ∈ b.healthyCandidates f, c.2.latency.isNaN = false :=
    fun c hc => hl c.2 (mem_backends (List.mem_of_mem_filter hc))
  have hfirst : Leftmost (fun c => Scalar.position c.2.latency) (b.healthyCandidates f) (h, m) :=
    least_leftmost
      (fun c hc c' hc' => Scalar.below_iff_position (hnumber c hc) (hnumber c' hc')) hleast
  have hm := hnumber (h, m) (least_mem hleast)
  refine ⟨m, hfirst.imp (fun c hc => ?_) fun c hc => ?_⟩
  · exact (Scalar.lt_iff_position hm (hnumber c hc)).mpr
  · exact (Scalar.le_iff_position hm (hnumber c hc)).mpr

/-- What every strategy chooses: nothing only if no member is healthy, else a healthy member; in
turn the first healthy one that the cursor comes to, otherwise the first healthy one with the fewest
requests in flight, or with the lowest latency. -/
theorem pick_chosen (b : Balancer) (f : Fleet)
    (hl : ∀ m ∈ b.inventory.backends f, m.latency.isNaN = false) :
    ((b.pick f).1 = none ↔ ∀ m ∈ b.inventory.backends f, m.isHealthy = false) ∧
      (∀ h, (b.pick f).1 = some h →
        h ∈ b.inventory.members ∧ ∃ m, f.get? h = some m ∧ m.isHealthy = true) ∧
      match b.strategy with
      | .roundRobin => Turn (b.candidates f) b.cursor (b.pick f).1 (b.pick f).2.cursor
      | .leastConnections => ∀ h, (b.pick f).1 = some h →
          ∃ m, Leftmost (·.2.connections) (b.healthyCandidates f) (h, m)
      | .lowestLatency => ∀ h, (b.pick f).1 = some h →
          ∃ m, Leftmost (·.2.latency) (b.healthyCandidates f) (h, m) := by
  refine ⟨pick_eq_none_iff, fun h => pick_eq_some, ?_⟩
  cases hs : b.strategy with
  | roundRobin => exact pick_turn hs
  | leastConnections => exact fun h => pick_connections hs
  | lowestLatency => exact fun h hp => pick_latency hs hp hl

/-- The backend with the lowest latency is not healthy, and two of the others have the same one. -/
theorem pick_chosen_tie :
    let backend (latency : Float) (healthy : Bool) : Backend :=
      let b := Backend.start (.ephemeral "a" "a" "10.0.0.1:80" "") ⟨{}, false⟩ 0
      { b with stats := { b.stats with healthy, latency := b.stats.latency.set latency } }
    let f : Fleet := { backends := [backend 0.5 false, backend 2 true, backend 1 true, backend 1 true] }
    let b : Balancer := ⟨.lowestLatency, 0, ⟨[0, 1, 2, 3], ⟨{}, false⟩⟩⟩
    (∀ m ∈ b.inventory.backends f, m.latency.isNaN = false) ∧ (b.pick f).1 = some 2 ∧
      ∃ m, Leftmost (·.2.latency) (b.healthyCandidates f) (2, m) := by
  intro backend f b
  have hnumbers : ∀ m ∈ b.inventory.backends f, m.latency.isNaN = false := by decide +kernel
  have hpick : (b.pick f).1 = some 2 := by decide +kernel
  obtain ⟨-, -, hleast⟩ := pick_chosen b f hnumbers
  exact ⟨hnumbers, hpick, hleast 2 hpick⟩

end Balancer

end ReverseProxy
