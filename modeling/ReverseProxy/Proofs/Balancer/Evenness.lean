import Mathlib.Algebra.BigOperators.Group.List.Basic
import Mathlib.Data.Nat.ModEq
import ReverseProxy.Proofs.Balancer.Fairness
import ReverseProxy.Proofs.Fleet.Standing

/-!
# Evenness of the fewest requests in flight

Requests that are started one after another, each at the healthy member with the fewest requests in
flight, level the load: a backend that was chosen stays at most one request above every healthy one
(`Level`). From idle backends, the choices go round in the order of the inventory, so each backend
has its `share`.
-/

namespace ReverseProxy

namespace Fleet

def connections (f : Fleet) (h : Handle) : Nat := (f.transport h).running

/-- A request sets out to the backend that was chosen for it, if one was. -/
def startRequest (f : Fleet) : Option Handle → Fleet
  | some h => f.update h (·.startRequest)
  | none => f

variable {f : Fleet} {h : Handle}

theorem connections_of_get? {m : Backend} (hm : f.get? h = some m) :
    f.connections h = m.connections := by
  simp [connections, transport, hm, Backend.connections]

theorem get?_startRequest_of_ne {i : Handle} (hne : h ≠ i) :
    (f.startRequest (some h)).get? i = f.get? i := by
  rw [startRequest, get?_update]
  simp [hne]

theorem isHealthy_startRequest (f : Fleet) (h i : Handle) :
    (f.startRequest (some h)).isHealthy i = f.isHealthy i := by
  have hkeeps (m : Backend) : (if h = i then m.startRequest else m).isHealthy = m.isHealthy := by
    split <;> rfl
  simp only [isHealthy, startRequest, get?_update, Option.any_map, hkeeps]

theorem connections_startRequest (hh : h < f.backends.length) (i : Handle) :
    (f.startRequest (some h)).connections i = f.connections i + if i = h then 1 else 0 := by
  split
  · rename_i heq
    subst heq
    have hself : (f.update i (·.startRequest)).transport i = (f.transport i).start :=
      transport_update_self (fun _ => rfl) hh
    rw [connections, startRequest, hself]
    rfl
  · rename_i hne
    rw [connections, startRequest, transport_update_of_ne f _ (Ne.symm hne)]
    rfl

theorem grows_startRequest (f : Fleet) (h : Handle) : f.Grows (f.startRequest (some h)) :=
  .of_eq (descriptions_update (g := Backend.startRequest) (fun _ => rfl) f h)

end Fleet

namespace Balancer

/-- The choices for requests that are started one after another, none of which comes to an end, and
the fleet with all of them in flight. -/
def dispatch (b : Balancer) (f : Fleet) : Nat → List (Option Handle) × Fleet
  | 0 => ([], f)
  | m + 1 =>
    let next := b.pick f
    let rest := next.2.dispatch (f.startRequest next.1) m
    (next.1 :: rest.1, rest.2)

def healthyMembers (b : Balancer) (f : Fleet) : List Handle :=
  b.inventory.members.filter f.isHealthy

/-! ## One request -/

section Request

variable {b : Balancer} {f : Fleet} {h : Handle}

/-- A balancer over some healthy members, which looks for the fewest requests in flight. -/
structure Ready (b : Balancer) (f : Fleet) : Prop where
  strategy : b.strategy = .leastConnections
  sound : b.inventory.Sound f
  healthy : b.healthyMembers f ≠ []

/-- The healthy member that is chosen next. -/
def Next (b : Balancer) (f : Fleet) (h : Handle) : Prop :=
  Leftmost f.connections (b.healthyMembers f) h

theorem map_fst_healthyCandidates (hsound : b.inventory.Sound f) :
    (b.healthyCandidates f).map (·.1) = b.healthyMembers f := by
  have hsame : ∀ c ∈ b.candidates f, c.2.isHealthy = f.isHealthy c.1 := by
    rintro ⟨h, m⟩ hc
    simp [Fleet.isHealthy, (mem_candidates.mp hc).2]
  rw [healthyCandidates, List.filter_congr hsame, healthyMembers, ← map_fst_candidates hsound,
    List.filter_map]
  rfl

theorem pick_balancer (hs : b.strategy = .leastConnections) (f : Fleet) : (b.pick f).2 = b := by
  simp only [pick, hs]

theorem Ready.exists_next (hb : Ready b f) : ∃ h, (b.pick f).1 = some h ∧ Next b f h := by
  obtain ⟨i, hi⟩ := List.exists_mem_of_ne_nil _ hb.healthy
  obtain ⟨hmember, hhealthy⟩ := List.mem_filter.mp hi
  cases hp : (b.pick f).1 with
  | none =>
      obtain ⟨m, hm, hm'⟩ := (Option.any_eq_true _ _).mp hhealthy
      rw [pick_eq_none hp hmember hm] at hm'
      cases hm'
  | some h =>
      obtain ⟨m, hleast⟩ := pick_connections hb.strategy hp
      have hconnections : ∀ c ∈ b.healthyCandidates f, c.2.connections = f.connections c.1 :=
        fun c hc => (Fleet.connections_of_get?
          (mem_candidates.mp (List.mem_of_mem_filter hc)).2).symm
      have hfirst : Leftmost (f.connections ∘ (·.1)) (b.healthyCandidates f) (h, m) := by
        refine hleast.imp (fun c hc hlt => ?_) fun c hc hle => ?_
        · rwa [hconnections _ hleast.mem, hconnections c hc] at hlt
        · rwa [hconnections _ hleast.mem, hconnections c hc] at hle
      refine ⟨h, rfl, ?_⟩
      rw [Next, ← map_fst_healthyCandidates hb.sound]
      exact hfirst.map

theorem Next.lt_length (hn : Next b f h) : h < f.backends.length := by
  obtain ⟨m, hm, -⟩ := (Option.any_eq_true _ _).mp (List.mem_filter.mp hn.mem).2
  exact (List.getElem?_eq_some_iff.mp hm).1

theorem healthyMembers_startRequest (b : Balancer) (f : Fleet) (h : Handle) :
    b.healthyMembers (f.startRequest (some h)) = b.healthyMembers f :=
  List.filter_congr fun i _ => f.isHealthy_startRequest h i

theorem Ready.startRequest (hb : Ready b f) (h : Handle) :
    Ready b (f.startRequest (some h)) where
  strategy := hb.strategy
  sound := hb.sound.grows (f.grows_startRequest h)
  healthy := by
    rw [healthyMembers_startRequest]
    exact hb.healthy

end Request

/-! ## Requests one after another -/

section Run

variable {b : Balancer} {f : Fleet} {h : Handle}

theorem Ready.dispatch_succ (hb : Ready b f) (m : Nat) :
    ∃ h, Next b f h ∧ b.dispatch f (m + 1) =
      (some h :: (b.dispatch (f.startRequest (some h)) m).1,
        (b.dispatch (f.startRequest (some h)) m).2) := by
  obtain ⟨h, hp, hn⟩ := hb.exists_next
  exact ⟨h, hn, by rw [dispatch, pick_balancer hb.strategy, hp]⟩

/-- What every request keeps, a number of them keeps; `p` may speak of how many there were. -/
theorem Ready.dispatch_induction {p : Nat → Fleet → Prop} (hb : Ready b f)
    (hstep : ∀ n f h, Ready b f → Next b f h → p n f → p (n + 1) (f.startRequest (some h)))
    {n : Nat} (hp : p n f) (m : Nat) : p (n + m) (b.dispatch f m).2 := by
  induction m generalizing f n with
  | zero => exact hp
  | succ m ih =>
      obtain ⟨h, hn, hrun⟩ := hb.dispatch_succ m
      rw [hrun, Nat.add_comm m 1, ← Nat.add_assoc]
      exact ih (hb.startRequest h) (hstep n f h hb hn hp)

theorem Ready.length_dispatch (hb : Ready b f) (m : Nat) : (b.dispatch f m).1.length = m := by
  induction m generalizing f with
  | zero => rfl
  | succ m ih =>
      obtain ⟨h, -, hrun⟩ := hb.dispatch_succ m
      rw [hrun]
      exact congrArg (· + 1) (ih (hb.startRequest h))

theorem Ready.healthyMembers_dispatch (hb : Ready b f) (m : Nat) :
    b.healthyMembers (b.dispatch f m).2 = b.healthyMembers f :=
  hb.dispatch_induction (p := fun _ g => b.healthyMembers g = b.healthyMembers f)
    (n := 0) (fun _ g h _ _ hsame => (b.healthyMembers_startRequest g h).trans hsame) rfl m

/-- Backends that are no healthy members are left alone. -/
theorem Ready.get?_dispatch (hb : Ready b f) (hh : h ∉ b.healthyMembers f) (m : Nat) :
    (b.dispatch f m).2.get? h = f.get? h := by
  refine (hb.dispatch_induction (n := 0)
    (p := fun _ g => b.healthyMembers g = b.healthyMembers f ∧ g.get? h = f.get? h)
    (fun _ g i _ hn hsame => ?_) ⟨rfl, rfl⟩ m).2
  have hne : i ≠ h := by
    rintro rfl
    exact hh (hsame.1 ▸ hn.mem)
  exact ⟨(b.healthyMembers_startRequest g i).trans hsame.1,
    (Fleet.get?_startRequest_of_ne hne).trans hsame.2⟩

end Run

/-! ## The load is levelled -/

section Level

variable {b : Balancer} {f : Fleet} {h h' : Handle}

/-- At most one request above every healthy member. -/
def Level (b : Balancer) (f : Fleet) (h : Handle) : Prop :=
  ∀ i ∈ b.healthyMembers f, f.connections h ≤ f.connections i + 1

theorem Next.level (hn : Next b f h) : Level b (f.startRequest (some h)) h := by
  intro i hi
  rw [healthyMembers_startRequest] at hi
  have hle := hn.le hi
  rw [Fleet.connections_startRequest hn.lt_length, Fleet.connections_startRequest hn.lt_length,
    if_pos rfl]
  omega

/-- The next choice is among the lowest, so it may come level with the others, and nobody is left
behind by more than before. -/
theorem Level.startRequest (hl : Level b f h) (hn : Next b f h') :
    Level b (f.startRequest (some h')) h := by
  by_cases heq : h = h'
  · subst heq
    exact hn.level
  · intro i hi
    rw [healthyMembers_startRequest] at hi
    have hle := hl i hi
    rw [Fleet.connections_startRequest hn.lt_length, Fleet.connections_startRequest hn.lt_length,
      if_neg heq]
    omega

theorem Ready.level_dispatch (hb : Ready b f) (hl : Level b f h) (m : Nat) :
    Level b (b.dispatch f m).2 h :=
  hb.dispatch_induction (p := fun _ g => Level b g h) (n := 0)
    (fun _ _ _ _ hn hl => hl.startRequest hn) hl m

theorem Ready.chosen (hb : Ready b f) (m : Nat) :
    ∀ c ∈ (b.dispatch f m).1, ∃ h ∈ b.healthyMembers f, c = some h ∧
      Level b (b.dispatch f m).2 h := by
  induction m generalizing f with
  | zero => exact fun c hc => absurd hc List.not_mem_nil
  | succ m ih =>
      obtain ⟨h, hn, hrun⟩ := hb.dispatch_succ m
      have hb' := hb.startRequest h
      rw [hrun]
      refine List.forall_mem_cons.mpr ⟨⟨h, hn.mem, rfl, hb'.level_dispatch hn.level m⟩, ?_⟩
      rw [← b.healthyMembers_startRequest f h]
      exact ih hb'

end Level

/-! ## Sums and shares -/

section Share

variable {b : Balancer} {f : Fleet} {h : Handle} {k m i : Nat}

theorem sum_map_add_one {α : Type} {g g' : α → Nat} {xs : List α} {x : α} (hnodup : xs.Nodup)
    (hx : x ∈ xs) (hself : g' x = g x + 1) (hother : ∀ y, y ≠ x → g' y = g y) :
    (xs.map g').sum = (xs.map g).sum + 1 := by
  obtain ⟨before, after, rfl⟩ := List.append_of_mem hx
  obtain ⟨hnot, -⟩ := List.nodup_cons.mp (List.nodup_middle.mp hnodup)
  have hrest : ∀ y ∈ before ++ after, g' y = g y :=
    fun y hy => hother y fun heq => hnot (heq ▸ hy)
  obtain ⟨hbefore, hafter⟩ := List.forall_mem_append.mp hrest
  simp only [List.map_append, List.map_cons, List.sum_append, List.sum_cons, hself,
    List.map_congr_left hbefore, List.map_congr_left hafter]
  omega

theorem Ready.sum_dispatch (hb : Ready b f) (m : Nat) :
    ((b.healthyMembers f).map (b.dispatch f m).2.connections).sum =
      ((b.healthyMembers f).map f.connections).sum + m := by
  have hrun := hb.dispatch_induction (n := 0)
    (p := fun n g => b.healthyMembers g = b.healthyMembers f ∧
      ((b.healthyMembers f).map g.connections).sum =
        ((b.healthyMembers f).map f.connections).sum + n)
    (fun n g h hg hn hsum => ?_) ⟨rfl, rfl⟩ m
  · rw [hrun.2, Nat.zero_add]
  · refine ⟨(b.healthyMembers_startRequest g h).trans hsum.1, ?_⟩
    have hnodup : (b.healthyMembers g).Nodup := hg.sound.nodup_members.filter _
    rw [← Nat.add_assoc, ← hsum.2, ← hsum.1]
    refine sum_map_add_one hnodup hn.mem ?_ fun i hi => ?_
    · rw [Fleet.connections_startRequest hn.lt_length, if_pos rfl]
    · rw [Fleet.connections_startRequest hn.lt_length, if_neg hi, Nat.add_zero]

/-- How many of `m` requests fall to the `i`-th of `k` backends if they go round. -/
def share (k m i : Nat) : Nat := (m + k - 1 - i) / k

theorem split_share (hi : i < k) (m : Nat) :
    m + k - 1 - i = k * (m / k) + (m % k + k - 1 - i) := by
  have hsplit := Nat.div_add_mod m k
  generalize k * (m / k) = q at *
  omega

theorem share_eq (hi : i < k) (m : Nat) :
    share k m i = m / k + if i < m % k then 1 else 0 := by
  have hk := Nat.zero_lt_of_lt hi
  have hmod := Nat.mod_lt m hk
  rw [share, split_share hi, Nat.mul_add_div hk, Nat.add_right_inj]
  split
  · exact Nat.div_eq_of_lt_le (by omega) (by omega)
  · exact Nat.div_eq_of_lt (by omega)

/-- The next request falls to the next backend in the round. -/
theorem share_succ (hi : i < k) (m : Nat) :
    share k (m + 1) i = share k m i + if i = m % k then 1 else 0 := by
  have hmod := Nat.mod_lt m (Nat.zero_lt_of_lt hi)
  have hsum : m + 1 + k - 1 - i = m + k - 1 - i + 1 := by omega
  have hdvd : k ∣ m + k - 1 - i + 1 ↔ i = m % k := by
    have hrest : m % k + k - 1 - i + 1 = m % k + k - i := by omega
    rw [split_share hi, Nat.add_assoc, Nat.dvd_add_right (Nat.dvd_mul_right _ _), hrest]
    constructor
    · intro h
      have heq := Nat.eq_of_dvd_of_lt_two_mul (by omega) h (by omega)
      omega
    · rintro rfl
      rw [Nat.add_sub_cancel_left]
  simp only [share, hsum, Nat.succ_div, hdvd]

/-- Backends whose requests have gone round `m` times in all, where they stand in the round. -/
def Shared (b : Balancer) (f : Fleet) (m : Nat) : Prop :=
  ∀ i h, (b.healthyMembers f)[i]? = some h →
    f.connections h = share (b.healthyMembers f).length m i

theorem shared_of_idle (hidle : ∀ h ∈ b.healthyMembers f, f.connections h = 0) :
    Shared b f 0 := by
  intro i h hi
  have hlt := (List.getElem?_eq_some_iff.mp hi).1
  rw [hidle h (List.mem_of_getElem? hi), share, Nat.div_eq_of_lt (by omega)]

/-- The first of the lowest is the next in the round. -/
theorem Next.getElem?_of_shared (hn : Next b f h) (hshared : Shared b f m) :
    (b.healthyMembers f)[m % (b.healthyMembers f).length]? = some h := by
  obtain ⟨p, hp, hbefore⟩ := hn.exists_getElem?
  have hplt := (List.getElem?_eq_some_iff.mp hp).1
  have hlt := Nat.mod_lt m (Nat.zero_lt_of_lt hplt)
  have hnext := List.getElem?_eq_getElem hlt
  have hshare := hshared _ _ hnext
  have hshare' := hshared p h hp
  rw [share_eq hlt, if_neg (Nat.lt_irrefl _)] at hshare
  rw [share_eq hplt] at hshare'
  -- Behind the next one in the round there is none with more, and before it none with as few.
  rcases Nat.lt_trichotomy p (m % (b.healthyMembers f).length) with hlt' | heq | hgt
  · have hle := hn.le (List.mem_of_getElem? hnext)
    rw [if_pos hlt'] at hshare'
    omega
  · rwa [← heq]
  · have hlt' := hbefore _ hgt _ hnext
    omega

theorem Next.shared (hn : Next b f h) (hnodup : (b.healthyMembers f).Nodup)
    (hshared : Shared b f m) : Shared b (f.startRequest (some h)) (m + 1) := by
  intro i h' hi
  rw [healthyMembers_startRequest] at hi ⊢
  have hlt := (List.getElem?_eq_some_iff.mp hi).1
  rw [Fleet.connections_startRequest hn.lt_length, share_succ hlt, hshared i h' hi]
  have hnext := hn.getElem?_of_shared hshared
  refine congrArg _ (if_congr ⟨?_, ?_⟩ rfl rfl)
  · rintro rfl
    exact (List.getElem?_inj hlt hnodup).mp (hi.trans hnext.symm)
  · rintro rfl
    exact Option.some.inj (hi.symm.trans hnext)

theorem Ready.shared_dispatch (hb : Ready b f) (hidle : Shared b f 0) (m : Nat) :
    Shared b (b.dispatch f m).2 m := by
  have hrun := hb.dispatch_induction (n := 0) (p := fun n g => Shared b g n)
    (fun n g h hg hn hshared => hn.shared (hg.sound.nodup_members.filter _) hshared) hidle m
  rwa [Nat.zero_add] at hrun

end Share

/-- However uneven the load was, requests that are started one after another are all sent to healthy
members; each backend that was chosen ends at most one request above every healthy member, all
others are left as they are, and the healthy ones have as many requests more as were started. From
idle backends the requests go round in the order of the inventory. -/
theorem dispatch_even {b : Balancer} {f : Fleet} (hs : b.strategy = .leastConnections)
    (hsound : b.inventory.Sound f)
    (hhealthy : ∃ h ∈ b.inventory.members, f.isHealthy h = true) (m : Nat) :
    let healthy := b.healthyMembers f
    let choices := (b.dispatch f m).1
    let f' := (b.dispatch f m).2
    choices.length = m ∧
      (∀ c ∈ choices, ∃ h ∈ healthy, c = some h ∧
        ∀ i ∈ healthy, f'.connections h ≤ f'.connections i + 1) ∧
      (∀ h ∉ healthy, f'.get? h = f.get? h) ∧
      (healthy.map f'.connections).sum = (healthy.map f.connections).sum + m ∧
      ((∀ h ∈ healthy, f.connections h = 0) → ∀ i h, healthy[i]? = some h →
        f'.connections h = (m + healthy.length - 1 - i) / healthy.length) := by
  obtain ⟨h, hh, hhealthy⟩ := hhealthy
  have hb : Ready b f := ⟨hs, hsound, List.ne_nil_of_mem (List.mem_filter.mpr ⟨hh, hhealthy⟩)⟩
  have hsame := hb.healthyMembers_dispatch m
  refine ⟨hb.length_dispatch m, fun c hc => ?_, fun h hh => hb.get?_dispatch hh m,
    hb.sum_dispatch m, fun hidle i h hi => ?_⟩
  · obtain ⟨h, hh, heq, hlevel⟩ := hb.chosen m c hc
    exact ⟨h, hh, heq, fun i hi => hlevel i (hsame ▸ hi)⟩
  · have hshared := hb.shared_dispatch (shared_of_idle hidle) m i h (hsame ▸ hi)
    rwa [hsame] at hshared

/-- The second of four members is not healthy and has requests in flight, the others are idle. -/
theorem dispatch_even_unhealthy :
    let backend (id : String) (healthy : Bool) (running : Nat) : Backend :=
      let b := (Backend.start (.ephemeral id id "10.0.0.1:80" "") ⟨{}, false⟩ 0).setHealthy healthy
      { b with transport := { b.transport with running } }
    let f : Fleet := { backends :=
      [backend "a" true 0, backend "b" false 4, backend "c" true 0, backend "d" true 0] }
    let b : Balancer := ⟨.leastConnections, 0, ⟨[0, 1, 2, 3], ⟨{}, false⟩⟩⟩
    let choices := (b.dispatch f 5).1
    let f' := (b.dispatch f 5).2
    b.inventory.Sound f ∧ b.healthyMembers f = [0, 2, 3] ∧
      choices = [some 0, some 2, some 3, some 0, some 2] ∧
      (∀ i ∈ [0, 2, 3], f'.connections 2 ≤ f'.connections i + 1) ∧
      f'.get? 1 = f.get? 1 ∧ ([0, 2, 3].map f'.connections).sum = 5 ∧
      f'.connections 2 = (5 + 3 - 1 - 1) / 3 := by
  intro backend f b choices f'
  have hsound : b.inventory.Sound f := ⟨by decide +kernel, by decide +kernel⟩
  have hhealthy : b.healthyMembers f = [0, 2, 3] := by decide +kernel
  have hchoices : choices = [some 0, some 2, some 3, some 0, some 2] := by decide +kernel
  have heven := dispatch_even (b := b) (f := f) rfl hsound ⟨0, by decide, by decide +kernel⟩ 5
  simp only [hhealthy] at heven
  obtain ⟨-, hlevel, hothers, hsum, hshare⟩ := heven
  obtain ⟨h, -, heq, hle⟩ := hlevel (some 2) (by decide +kernel)
  cases heq
  have hidle : ∀ h ∈ [0, 2, 3], f.connections h = 0 := by decide +kernel
  exact ⟨hsound, hhealthy, hchoices, hle, hothers 1 (by decide), hsum,
    hshare hidle 1 2 rfl⟩

end Balancer

end ReverseProxy
