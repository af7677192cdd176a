import Mathlib.Data.List.Chain
import Mathlib.Data.List.Nodup
import Mathlib.Data.Nat.ModEq
import ReverseProxy.Proofs.Balancer.Choice
import ReverseProxy.Proofs.Inventory.Members

/-!
# Fairness of taking turns

However health changes from call to call, two members that are always healthy are chosen in turns,
and a member that is healthy for as many calls as there are members is chosen by one of them. Both
follow from how far each member is `ahead` of the cursor: the one chosen is the nearest of the healthy
ones, and the cursor comes nearer to all others by the same distance.
-/

namespace ReverseProxy

/-- Whether there is a backend under the handle that is healthy. -/
def Fleet.isHealthy (f : Fleet) (h : Handle) : Bool := (f.get? h).any (·.isHealthy)

namespace Balancer

/-! ## Distances on the circle -/

/-- How many indices the cursor passes before it comes to this one. -/
def ahead (n cursor i : Nat) : Nat :=
  if cursor % n ≤ i then i - cursor % n else i + n - cursor % n

section Ahead

variable {n cursor i j k : Nat}

theorem ahead_cases (n cursor i : Nat) :
    cursor % n ≤ i ∧ ahead n cursor i = i - cursor % n ∨
      i < cursor % n ∧ ahead n cursor i = i + n - cursor % n := by
  unfold ahead
  split <;> omega

theorem ahead_lt (hi : i < n) : ahead n cursor i < n := by
  have hc := Nat.mod_lt cursor (Nat.zero_lt_of_lt hi)
  have hahead := ahead_cases n cursor i
  omega

theorem ahead_inj (hi : i < n) (hj : j < n) (h : ahead n cursor i = ahead n cursor j) : i = j := by
  have hc := Nat.mod_lt cursor (Nat.zero_lt_of_lt hi)
  have hahead := ahead_cases n cursor i
  have hahead' := ahead_cases n cursor j
  omega

theorem add_ahead_mod (cursor : Nat) (hi : i < n) : (cursor + ahead n cursor i) % n = i := by
  have hc := Nat.mod_lt cursor (Nat.zero_lt_of_lt hi)
  have hahead := ahead_cases n cursor i
  rw [Nat.add_mod_eq_ite, Nat.mod_eq_of_lt (ahead_lt hi)]
  split <;> omega

theorem ahead_add_mod (hk : k < n) : ahead n cursor ((cursor + k) % n) = k := by
  have hc := Nat.mod_lt cursor (Nat.zero_lt_of_lt hk)
  have hahead := ahead_cases n cursor ((cursor + k) % n)
  rw [Nat.add_mod_eq_ite, Nat.mod_eq_of_lt hk] at hahead ⊢
  split at hahead <;> split <;> omega

/-- After an index has been chosen, the cursor is before the next one, or before the first. -/
theorem next_cases (hj : j < n) :
    j + 1 < n ∧ (j + 1) % n = j + 1 ∨ j + 1 = n ∧ (j + 1) % n = 0 := by
  rcases Nat.lt_or_eq_of_le (Nat.succ_le_of_lt hj) with hlt | rfl
  · exact .inl ⟨hlt, Nat.mod_eq_of_lt hlt⟩
  · exact .inr ⟨rfl, Nat.mod_self _⟩

/-- All other indices come before the one that has been chosen. -/
theorem ahead_next_self (hj : j < n) : ahead n ((j + 1) % n) j = n - 1 := by
  have hnext := next_cases hj
  have hahead := ahead_cases n ((j + 1) % n) j
  rw [Nat.mod_mod] at hahead
  omega

/-- The indices behind the one that has been chosen are nearer by the way to it. -/
theorem ahead_next (hi : i < n) (hj : j < n) (h : ahead n cursor j < ahead n cursor i) :
    ahead n ((j + 1) % n) i + (ahead n cursor j + 1) = ahead n cursor i := by
  have hc := Nat.mod_lt cursor (Nat.zero_lt_of_lt hi)
  have hnext := next_cases hj
  have hahead := ahead_cases n cursor i
  have hahead' := ahead_cases n cursor j
  have hafter := ahead_cases n ((j + 1) % n) i
  rw [Nat.mod_mod] at hafter
  omega

end Ahead

/-! ## One call -/

section Stop

variable {b : Balancer} {f : Fleet} {h h' : Handle} {i j : Nat}

/-- How many members the cursor passes before it comes to this one. -/
def distance (b : Balancer) (i : Nat) : Nat := ahead b.inventory.members.length b.cursor i

theorem distance_lt (hi : b.inventory.members[i]? = some h) :
    b.distance i < b.inventory.members.length :=
  ahead_lt (List.getElem?_eq_some_iff.mp hi).1

theorem map_fst_candidates (hsound : b.inventory.Sound f) :
    (b.candidates f).map (·.1) = b.inventory.members := by
  have hone : ∀ h ∈ b.inventory.members, ((f.get? h).map (h, ·)).map (·.1) = some h := by
    intro h hh
    obtain ⟨m, hm⟩ := Option.isSome_iff_exists.mp (hsound.get?_isSome hh)
    simp [hm]
  rw [candidates, List.map_filterMap, List.filterMap_congr hone, List.filterMap_some]

theorem pick_strategy (b : Balancer) (f : Fleet) : (b.pick f).2.strategy = b.strategy := by
  unfold pick
  split <;> rfl

/-- A call that stops at a member: no healthy one is nearer, and the cursor is left after it. -/
structure Stop (b : Balancer) (f : Fleet) (j : Nat) (h : Handle) : Prop where
  get : b.inventory.members[j]? = some h
  chosen : (b.pick f).1 = some h
  cursor : (b.pick f).2.cursor = (j + 1) % b.inventory.members.length
  nearest : ∀ i h', b.inventory.members[i]? = some h' → f.isHealthy h' = true →
    b.distance j ≤ b.distance i

/-- A healthy member is a healthy candidate, with its index. -/
theorem getElem?_candidates (hsound : b.inventory.Sound f)
    (hi : b.inventory.members[i]? = some h) (hh : f.isHealthy h = true) :
    ∃ m, (b.candidates f)[i]? = some (h, m) ∧ m.isHealthy = true := by
  rw [← map_fst_candidates hsound, List.getElem?_map] at hi
  obtain ⟨⟨h, m⟩, hc, rfl⟩ := Option.map_eq_some_iff.mp hi
  obtain ⟨-, hm⟩ := mem_candidates.mp (List.mem_of_getElem? hc)
  rw [Fleet.isHealthy, hm] at hh
  exact ⟨m, hc, hh⟩

theorem exists_stop (hs : b.strategy = .roundRobin) (hsound : b.inventory.Sound f)
    (hi : b.inventory.members[i]? = some h) (hh : f.isHealthy h = true) : ∃ j h', Stop b f j h' := by
  have hturn := pick_turn (f := f) hs
  have hlen : (b.candidates f).length = b.inventory.members.length := by
    rw [← map_fst_candidates hsound, List.length_map]
  generalize hchosen : (b.pick f).1 = chosen at hturn
  generalize hcursor : (b.pick f).2.cursor = cursor at hturn
  cases hturn with
  | missed unhealthy =>
      obtain ⟨m, hc, hhealthy⟩ := getElem?_candidates hsound hi hh
      rw [unhealthy (h, m) (List.mem_of_getElem? hc)] at hhealthy
      cases hhealthy
  | found k h' m hk get healthy passed =>
      rw [hlen] at hk get passed hcursor
      refine ⟨(b.cursor + k) % b.inventory.members.length, h', ?_, hchosen, hcursor, ?_⟩
      · have hmember := congrArg (Option.map (·.1)) get
        rwa [← List.getElem?_map, map_fst_candidates hsound] at hmember
      · intro i' h'' hi' hh'
        obtain ⟨m', hc, hhealthy⟩ := getElem?_candidates hsound hi' hh'
        rw [distance, ahead_add_mod hk]
        -- Otherwise the cursor has passed this member.
        by_contra hlt
        have hmod := add_ahead_mod b.cursor (List.getElem?_eq_some_iff.mp hi').1
        rw [passed _ (not_le.mp hlt) (h'', m') (hmod.symm ▸ hc)] at hhealthy
        cases hhealthy

theorem Stop.ne_of_ne (hstop : Stop b f j h) (hnodup : b.inventory.members.Nodup)
    (hi : b.inventory.members[i]? = some h') (hne : j ≠ i) : h ≠ h' := by
  rintro rfl
  have hj := (List.getElem?_eq_some_iff.mp hstop.get).1
  exact hne ((List.getElem?_inj hj hnodup).mp (hstop.get.trans hi.symm))

theorem Stop.distance_self (hstop : Stop b f j h) :
    (b.pick f).2.distance j = b.inventory.members.length - 1 := by
  rw [distance, pick_inventory, hstop.cursor]
  exact ahead_next_self (List.getElem?_eq_some_iff.mp hstop.get).1

/-- The cursor has come nearer to the other healthy members, by the same distance to each. -/
theorem Stop.distance_of_ne (hstop : Stop b f j h) (hi : b.inventory.members[i]? = some h')
    (hh : f.isHealthy h' = true) (hne : j ≠ i) :
    (b.pick f).2.distance i + (b.distance j + 1) = b.distance i := by
  have hi' := (List.getElem?_eq_some_iff.mp hi).1
  have hj' := (List.getElem?_eq_some_iff.mp hstop.get).1
  have hlt : b.distance j < b.distance i :=
    (hstop.nearest i h' hi hh).lt_of_ne fun heq => hne (ahead_inj hj' hi' heq)
  rw [distance, pick_inventory, hstop.cursor]
  exact ahead_next hi' hj' hlt

end Stop

/-! ## Two in turns -/

section Alternating

variable {α : Type}

/-- Two values in turns, the first one first. -/
inductive Alternating : α → α → List α → Prop
  | nil {x y : α} : Alternating x y []
  | cons {x y : α} {l : List α} (h : Alternating y x l) : Alternating x y (x :: l)

variable {x y : α} {l : List α}

theorem Alternating.isChain (h : Alternating x y l) (hne : x ≠ y) : l.IsChain (· ≠ ·) := by
  induction h with
  | nil => exact .nil
  | cons h ih =>
      refine List.isChain_cons.mpr ⟨fun z hz => ?_, ih hne.symm⟩
      cases h with
      | nil => cases hz
      | cons h =>
          cases hz
          exact hne

theorem Alternating.count_le [BEq α] [LawfulBEq α] (h : Alternating x y l) (hne : x ≠ y) :
    l.count y ≤ l.count x ∧ l.count x ≤ l.count y + 1 := by
  induction h with
  | nil => simp
  | cons h ih =>
      have hrest := ih hne.symm
      rw [List.count_cons_self, List.count_cons_of_ne hne]
      omega

end Alternating

/-! ## Runs of calls -/

/-- The choices of calls one after another, each with the backends as they are then. -/
def picks (b : Balancer) : List Fleet → List (Option Handle)
  | [] => []
  | f :: fs => (b.pick f).1 :: (b.pick f).2.picks fs

/-- The balancer after these calls. -/
def after (b : Balancer) : List Fleet → Balancer
  | [] => b
  | f :: fs => (b.pick f).2.after fs

section Picks

variable {b : Balancer} {f : Fleet} {fs gs : List Fleet} {h h₁ h₂ : Handle} {i i₁ i₂ : Nat}

theorem length_picks (b : Balancer) (fs : List Fleet) : (b.picks fs).length = fs.length := by
  induction fs generalizing b with
  | nil => rfl
  | cons f fs ih => exact congrArg (· + 1) (ih _)

theorem picks_append (b : Balancer) (fs gs : List Fleet) :
    b.picks (fs ++ gs) = b.picks fs ++ (b.after fs).picks gs := by
  induction fs generalizing b with
  | nil => rfl
  | cons f fs ih => exact congrArg ((b.pick f).1 :: ·) (ih _)

theorem inventory_after (b : Balancer) (fs : List Fleet) : (b.after fs).inventory = b.inventory := by
  induction fs generalizing b with
  | nil => rfl
  | cons f fs ih => exact (ih _).trans (pick_inventory b f)

theorem strategy_after (b : Balancer) (fs : List Fleet) : (b.after fs).strategy = b.strategy := by
  induction fs generalizing b with
  | nil => rfl
  | cons f fs ih => exact (ih _).trans (pick_strategy b f)

/-- A balancer that takes turns, with an inventory whose members are there at every call. -/
structure Steady (b : Balancer) (fs : List Fleet) : Prop where
  strategy : b.strategy = .roundRobin
  sound : ∀ f ∈ fs, b.inventory.Sound f

theorem Steady.tail (hb : Steady b (f :: fs)) : Steady (b.pick f).2 fs where
  strategy := (pick_strategy b f).trans hb.strategy
  sound := by
    rw [pick_inventory]
    exact fun g hg => hb.sound g (.tail _ hg)

theorem Steady.left (hb : Steady b (fs ++ gs)) : Steady b fs :=
  ⟨hb.strategy, fun g hg => hb.sound g (List.mem_append_left _ hg)⟩

theorem Steady.after (hb : Steady b (fs ++ gs)) : Steady (b.after fs) gs where
  strategy := (strategy_after b fs).trans hb.strategy
  sound := by
    rw [inventory_after]
    exact fun g hg => hb.sound g (List.mem_append_right _ hg)

theorem Steady.exists_stop (hb : Steady b (f :: fs)) (hi : b.inventory.members[i]? = some h)
    (hh : f.isHealthy h = true) : ∃ j h', Stop b f j h' :=
  Balancer.exists_stop hb.strategy (hb.sound f List.mem_cons_self) hi hh

/-- A member that stays healthy is chosen at the latest when the cursor has come to it. -/
theorem Steady.mem_picks (hb : Steady b fs) (hi : b.inventory.members[i]? = some h)
    (hh : ∀ f ∈ fs, f.isHealthy h = true) (hlt : b.distance i < fs.length) :
    some h ∈ b.picks fs := by
  induction fs generalizing b with
  | nil => exact absurd hlt (Nat.not_lt_zero _)
  | cons f fs ih =>
      obtain ⟨hhealthy, hrest⟩ := List.forall_mem_cons.mp hh
      obtain ⟨j, h', hstop⟩ := hb.exists_stop hi hhealthy
      rw [picks, hstop.chosen]
      by_cases hj : j = i
      · subst hj
        rw [hi.symm.trans hstop.get]
        exact List.mem_cons_self
      · have hnearer := hstop.distance_of_ne hi hhealthy hj
        rw [List.length_cons] at hlt
        exact .tail _ (ih hb.tail (by rwa [pick_inventory]) hrest (by omega))

theorem Steady.mem_picks_of_length (hb : Steady b fs) (hm : h ∈ b.inventory.members)
    (hh : ∀ f ∈ fs, f.isHealthy h = true) (hlen : fs.length = b.inventory.members.length) :
    some h ∈ b.picks fs := by
  obtain ⟨i, hi⟩ := List.mem_iff_getElem?.mp hm
  exact hb.mem_picks hi hh (hlen ▸ distance_lt hi)

/-- Of two members that stay healthy, the nearer one comes first, and from then on they take turns. -/
theorem Steady.alternating (hb : Steady b fs) (hi₁ : b.inventory.members[i₁]? = some h₁)
    (hi₂ : b.inventory.members[i₂]? = some h₂) (hh₁ : ∀ f ∈ fs, f.isHealthy h₁ = true)
    (hh₂ : ∀ f ∈ fs, f.isHealthy h₂ = true) (hlt : b.distance i₁ < b.distance i₂)
    {p : Option Handle → Bool} (hp : ∀ c, p c = true ↔ c = some h₁ ∨ c = some h₂) :
    Alternating (some h₁) (some h₂) ((b.picks fs).filter p) := by
  induction fs generalizing b h₁ h₂ i₁ i₂ with
  | nil => exact .nil
  | cons f fs ih =>
      obtain ⟨hhealthy₁, hrest₁⟩ := List.forall_mem_cons.mp hh₁
      obtain ⟨hhealthy₂, hrest₂⟩ := List.forall_mem_cons.mp hh₂
      obtain ⟨j, h', hstop⟩ := hb.exists_stop hi₁ hhealthy₁
      have hnodup := (hb.sound f List.mem_cons_self).nodup_members
      have hne₂ : j ≠ i₂ := by
        rintro rfl
        exact absurd (hstop.nearest i₁ h₁ hi₁ hhealthy₁) (not_le.mpr hlt)
      have hnearer₂ := hstop.distance_of_ne hi₂ hhealthy₂ hne₂
      have hi₁' : (b.pick f).2.inventory.members[i₁]? = some h₁ := by rwa [pick_inventory]
      have hi₂' : (b.pick f).2.inventory.members[i₂]? = some h₂ := by rwa [pick_inventory]
      rw [picks, hstop.chosen]
      by_cases hj : j = i₁
      · subst hj
        cases hi₁.symm.trans hstop.get
        rw [List.filter_cons_of_pos ((hp _).mpr (.inl rfl))]
        refine .cons (ih hb.tail hi₂' hi₁' hrest₂ hrest₁ ?_ fun c => (hp c).trans or_comm)
        have hlt₂ := distance_lt hi₂
        rw [hstop.distance_self]
        omega
      · have hnearer₁ := hstop.distance_of_ne hi₁ hhealthy₁ hj
        have hother : ¬ p (some h') = true := by
          rw [hp, Option.some.injEq, Option.some.injEq, not_or]
          exact ⟨hstop.ne_of_ne hnodup hi₁ hj, hstop.ne_of_ne hnodup hi₂ hne₂⟩
        rw [List.filter_cons_of_neg hother]
        exact ih hb.tail hi₁' hi₂' hrest₁ hrest₂ (by omega) hp

/-- Two members that stay healthy take turns; the one that the cursor comes to first begins. -/
theorem Steady.alternating_or (hb : Steady b fs) (hm₁ : h₁ ∈ b.inventory.members)
    (hm₂ : h₂ ∈ b.inventory.members) (hne : h₁ ≠ h₂) (hh₁ : ∀ f ∈ fs, f.isHealthy h₁ = true)
    (hh₂ : ∀ f ∈ fs, f.isHealthy h₂ = true) {p : Option Handle → Bool}
    (hp : ∀ c, p c = true ↔ c = some h₁ ∨ c = some h₂) :
    Alternating (some h₁) (some h₂) ((b.picks fs).filter p) ∨
      Alternating (some h₂) (some h₁) ((b.picks fs).filter p) := by
  obtain ⟨i₁, hi₁⟩ := List.mem_iff_getElem?.mp hm₁
  obtain ⟨i₂, hi₂⟩ := List.mem_iff_getElem?.mp hm₂
  rcases Nat.lt_trichotomy (b.distance i₁) (b.distance i₂) with hlt | heq | hgt
  · exact .inl (hb.alternating hi₁ hi₂ hh₁ hh₂ hlt hp)
  · have hsame := ahead_inj (List.getElem?_eq_some_iff.mp hi₁).1
      (List.getElem?_eq_some_iff.mp hi₂).1 heq
    rw [hsame, hi₂, Option.some.injEq] at hi₁
    exact absurd hi₁.symm hne
  · exact .inr (hb.alternating hi₂ hi₁ hh₂ hh₁ hgt fun c => (hp c).trans or_comm)

theorem picks_window (b : Balancer) (fs₁ fs₂ fs₃ : List Fleet) :
    ((b.picks (fs₁ ++ fs₂ ++ fs₃)).drop fs₁.length).take fs₂.length = (b.after fs₁).picks fs₂ := by
  rw [List.append_assoc, picks_append, picks_append, List.drop_left' (length_picks b fs₁),
    List.take_left' (length_picks _ fs₂)]

end Picks

/-- Taking turns is fair, wherever the cursor stands and however health changes from call to call:
two members that are always healthy are chosen in turns, neither more than once oftener than the
other, and a member that is healthy for as many calls in a row as there are members is chosen by one
of them. -/
theorem picks_fair {b : Balancer} {fs : List Fleet} (hs : b.strategy = .roundRobin)
    (hsound : ∀ f ∈ fs, b.inventory.Sound f) :
    (∀ h₁ ∈ b.inventory.members, ∀ h₂ ∈ b.inventory.members, h₁ ≠ h₂ →
      (∀ f ∈ fs, f.isHealthy h₁ = true ∧ f.isHealthy h₂ = true) →
        ((b.picks fs).filter fun c => c = some h₁ ∨ c = some h₂).IsChain (· ≠ ·) ∧
        (b.picks fs).count (some h₁) ≤ (b.picks fs).count (some h₂) + 1 ∧
        (b.picks fs).count (some h₂) ≤ (b.picks fs).count (some h₁) + 1) ∧
    ∀ h ∈ b.inventory.members, ∀ fs₁ fs₂ fs₃, fs = fs₁ ++ fs₂ ++ fs₃ →
      fs₂.length = b.inventory.members.length → (∀ f ∈ fs₂, f.isHealthy h = true) →
        some h ∈ ((b.picks fs).drop fs₁.length).take fs₂.length := by
  have hb : Steady b fs := ⟨hs, hsound⟩
  refine ⟨fun h₁ hm₁ h₂ hm₂ hne hh => ?_, fun h hm fs₁ fs₂ fs₃ hfs hlen hh => ?_⟩
  · have hne' : some h₁ ≠ some h₂ := fun heq => hne (Option.some.inj heq)
    have hturns := hb.alternating_or hm₁ hm₂ hne (fun f hf => (hh f hf).1) (fun f hf => (hh f hf).2)
      (p := fun c => c = some h₁ ∨ c = some h₂) (fun c => decide_eq_true_iff)
    rw [← List.count_filter (a := some h₁) (p := fun c => c = some h₁ ∨ c = some h₂) (by simp),
      ← List.count_filter (a := some h₂) (p := fun c => c = some h₁ ∨ c = some h₂) (by simp)]
    rcases hturns with hturns | hturns
    · have hcount := hturns.count_le hne'
      exact ⟨hturns.isChain hne', by omega, by omega⟩
    · have hcount := hturns.count_le hne'.symm
      exact ⟨hturns.isChain hne'.symm, by omega, by omega⟩
  · subst hfs
    have hafter : Steady (b.after fs₁) (fs₂ ++ fs₃) := by
      rw [List.append_assoc] at hb
      exact hb.after
    rw [picks_window]
    refine hafter.left.mem_picks_of_length ?_ hh ?_
    · rwa [inventory_after]
    · rwa [inventory_after]

/-- A cursor left over from a larger inventory, and a member that is healthy at every other call. -/
theorem picks_fair_leftover :
    let backend (id : String) (healthy : Bool) : Backend :=
      (Backend.start (.ephemeral id id "10.0.0.1:80" "") ⟨{}, false⟩ 0).setHealthy healthy
    let f (healthy : Bool) : Fleet :=
      { backends := [backend "a" true, backend "b" healthy, backend "c" true] }
    let b : Balancer := ⟨.roundRobin, 7, ⟨[0, 1, 2], ⟨{}, false⟩⟩⟩
    let fs := [f true, f false, f true, f false]
    b.strategy = .roundRobin ∧ (∀ g ∈ fs, b.inventory.Sound g) ∧
      b.picks fs = [some 1, some 2, some 0, some 2] ∧
      ((b.picks fs).filter fun c => c = some 0 ∨ c = some 2).IsChain (· ≠ ·) ∧
      (b.picks fs).count (some 0) ≤ (b.picks fs).count (some 2) + 1 ∧
      (b.picks fs).count (some 2) ≤ (b.picks fs).count (some 0) + 1 ∧
      some 0 ∈ ((b.picks fs).drop 1).take 3 := by
  intro backend f b fs
  have hsound : ∀ g ∈ fs, b.inventory.Sound g := by
    have hone (healthy : Bool) : b.inventory.Sound (f healthy) := by
      cases healthy <;> exact ⟨by decide +kernel, by decide +kernel⟩
    intro g hg
    simp only [fs, List.mem_cons, List.not_mem_nil, or_false] at hg
    rcases hg with rfl | rfl | rfl | rfl <;> exact hone _
  obtain ⟨hturns, hwindow⟩ := picks_fair (b := b) rfl hsound
  obtain ⟨hchain, hle, hge⟩ := hturns 0 (by decide) 2 (by decide) (by decide) (by decide +kernel)
  exact ⟨rfl, hsound, by decide +kernel, hchain, hle, hge,
    hwindow 0 (by decide) [f true] [f false, f true, f false] [] rfl rfl (by decide +kernel)⟩

end Balancer

end ReverseProxy
