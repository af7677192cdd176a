import Mathlib.Algebra.BigOperators.Intervals
import Mathlib.Algebra.BigOperators.Ring.Finset
import Mathlib.Algebra.Order.BigOperators.Group.Finset
import Mathlib.Algebra.Order.BigOperators.Group.List
import Mathlib.Algebra.Order.Field.Rat
import Mathlib.Data.List.GetD
import Mathlib.Data.List.Induction
import Mathlib.Tactic.Linarith
import Mathlib.Tactic.Positivity
import Mathlib.Tactic.Ring
import ReverseProxy.Backend.Stats

/-!
# Rolling averages in exact arithmetic

Over the rationals a rolling average is a weighted mean of its samples: the first ten share one
weight, every later sample has a weight that decays with its age, and the weights add up to one. So
it never leaves the range of its samples.
-/

namespace ReverseProxy

open Scalar

theorem Scalar.raiseTo_rat (low a : Rat) : raiseTo low a = max a low := by
  have hatMost : atMost low a = decide (low ≤ a) := rfl
  by_cases h : low ≤ a
  · simp [raiseTo, hatMost, h]
  · simp [raiseTo, hatMost, h, le_of_lt (not_le.mp h)]

namespace Average

/-! ## Weights -/

/-- What the samples after the first ten contribute; the `i`-th is `g i`. -/
def later (d : Rat) (n : Nat) (g : Nat → Rat) : Rat :=
  ∑ i ∈ Finset.Icc 11 n, d * (1 - d) ^ (n - i) * g i

/-- The weighted mean of at least ten samples. -/
def weighted (d : Rat) (xs : List Rat) : Rat :=
  (1 - d) ^ (xs.length - 10) * ((xs.take 10).sum / 10) +
    later d xs.length fun i => xs.getD (i - 1) 0

section Weights

variable {d : Rat} {n : Nat} {g g' : Nat → Rat} {xs ys : List Rat} {x c : Rat}

theorem later_congr (h : ∀ i ∈ Finset.Icc 11 n, g i = g' i) : later d n g = later d n g' :=
  Finset.sum_congr rfl fun i hi => by rw [h i hi]

theorem later_mono (hd : 0 ≤ d) (hd' : d ≤ 1) (h : ∀ i ∈ Finset.Icc 11 n, g i ≤ g' i) :
    later d n g ≤ later d n g' := by
  refine Finset.sum_le_sum fun i hi => mul_le_mul_of_nonneg_left (h i hi) ?_
  exact mul_nonneg hd (pow_nonneg (sub_nonneg.mpr hd') _)

/-- With one more sample, those before it are scaled down. -/
theorem later_succ (hn : 10 ≤ n) (g : Nat → Rat) :
    later d (n + 1) g = g (n + 1) * d + later d n g * (1 - d) := by
  have hold : ∀ i ∈ Finset.Icc 11 n,
      d * (1 - d) ^ (n + 1 - i) * g i = d * (1 - d) ^ (n - i) * g i * (1 - d) := by
    intro i hi
    rw [Nat.succ_sub (Finset.mem_Icc.mp hi).2, pow_succ]
    ring
  rw [later, Finset.sum_Icc_succ_top (Nat.succ_le_succ hn), Nat.sub_self, pow_zero, mul_one,
    Finset.sum_congr rfl hold, ← Finset.sum_mul, add_comm, mul_comm d]
  rfl

theorem pow_add_later (d : Rat) (hn : 10 ≤ n) :
    (1 - d) ^ (n - 10) + later d n (fun _ => 1) = 1 := by
  induction n, hn using Nat.le_induction with
  | base => simp [later]
  | succ n hn ih =>
      calc (1 - d) ^ (n + 1 - 10) + later d (n + 1) (fun _ => 1)
          = ((1 - d) ^ (n - 10) + later d n fun _ => 1) * (1 - d) + d := by
            rw [later_succ hn, Nat.succ_sub hn, pow_succ]
            ring
        _ = 1 := by
            rw [ih]
            ring

theorem weighted_of_length (h : xs.length = 10) : weighted d xs = xs.sum / 10 := by
  simp [weighted, later, h, List.take_of_length_le]

theorem weighted_snoc (h : 10 ≤ xs.length) :
    weighted d (xs ++ [x]) = x * d + weighted d xs * (1 - d) := by
  have hold : later d xs.length (fun i => (xs ++ [x]).getD (i - 1) 0) =
      later d xs.length fun i => xs.getD (i - 1) 0 := by
    refine later_congr fun i hi => List.getD_append _ _ _ _ ?_
    have hrange := Finset.mem_Icc.mp hi
    omega
  have hnew : (xs ++ [x]).getD (xs.length + 1 - 1) 0 = x := by simp
  rw [weighted, List.length_append, List.length_singleton, later_succ h, hold, hnew,
    List.take_append_of_le_length h, Nat.succ_sub h, pow_succ, weighted]
  ring

theorem weighted_replicate (hn : 10 ≤ n) (c : Rat) : weighted d (List.replicate n c) = c := by
  have hlater : later d n (fun i => (List.replicate n c).getD (i - 1) 0) =
      later d n (fun _ => 1) * c := by
    rw [later, later, Finset.sum_mul]
    refine Finset.sum_congr rfl fun i hi => ?_
    have hrange := Finset.mem_Icc.mp hi
    rw [List.getD_replicate c (show i - 1 < n by omega), mul_one]
  rw [weighted, List.length_replicate, hlater, List.take_replicate, Nat.min_eq_left hn,
    List.sum_replicate]
  calc (1 - d) ^ (n - 10) * (10 • c / 10) + later d n (fun _ => 1) * c
      = ((1 - d) ^ (n - 10) + later d n fun _ => 1) * c := by
        rw [nsmul_eq_mul]
        ring
    _ = c := by rw [pow_add_later d hn, one_mul]

theorem weighted_mono (hd : 0 ≤ d) (hd' : d ≤ 1) (h : List.Forall₂ (· ≤ ·) xs ys) :
    weighted d xs ≤ weighted d ys := by
  have hsum : (xs.take 10).sum ≤ (ys.take 10).sum :=
    (List.forall₂_take 10 h).sum_le_sum
  have hsamples : ∀ i ∈ Finset.Icc 11 ys.length, xs.getD (i - 1) 0 ≤ ys.getD (i - 1) 0 := by
    intro i hi
    have hrange := Finset.mem_Icc.mp hi
    have hx : i - 1 < xs.length := by rw [h.length_eq]; omega
    have hy : i - 1 < ys.length := by omega
    rw [List.getD_eq_getElem _ _ hx, List.getD_eq_getElem _ _ hy]
    exact h.get hx hy
  rw [weighted, weighted, h.length_eq]
  refine add_le_add (mul_le_mul_of_nonneg_left ?_ (pow_nonneg (sub_nonneg.mpr hd') _)) ?_
  · exact div_le_div_of_nonneg_right hsum (by norm_num)
  · exact later_mono hd hd' hsamples

theorem le_weighted {lo : Rat} (hd : 0 ≤ d) (hd' : d ≤ 1) (hn : 10 ≤ xs.length)
    (h : ∀ x ∈ xs, lo ≤ x) : lo ≤ weighted d xs := by
  have hall : List.Forall₂ (· ≤ ·) (List.replicate xs.length lo) xs := by
    rw [← List.map_const', List.forall₂_map_left_iff, List.forall₂_same]
    exact h
  calc lo = weighted d (List.replicate xs.length lo) := (weighted_replicate hn lo).symm
    _ ≤ weighted d xs := weighted_mono hd hd' hall

theorem weighted_le {hi : Rat} (hd : 0 ≤ d) (hd' : d ≤ 1) (hn : 10 ≤ xs.length)
    (h : ∀ x ∈ xs, x ≤ hi) : weighted d xs ≤ hi := by
  have hall : List.Forall₂ (· ≤ ·) xs (List.replicate xs.length hi) := by
    rw [← List.map_const', List.forall₂_map_right_iff, List.forall₂_same]
    exact h
  calc weighted d xs ≤ weighted d (List.replicate xs.length hi) := weighted_mono hd hd' hall
    _ = hi := weighted_replicate hn hi

end Weights

/-! ## The state of an average -/

section Samples

variable {age d lo hi : Rat} {xs : List Rat} {a : Average Rat}

/-- An average that has taken in these samples. -/
structure Holds (d : Rat) (xs : List Rat) (a : Average Rat) : Prop where
  decay : a.decay = d
  count : a.count = min xs.length 10
  warming : xs.length < 10 → a.value = xs.sum
  warm : 10 ≤ xs.length → a.value = weighted d xs

/-- The weight of a new sample, for an average over `age` samples. -/
def decayOf (age : Rat) : Rat := 2 / (max age 1 + 1)

theorem decayOf_nonneg (age : Rat) : 0 ≤ decayOf age := by
  have hage := le_max_right age 1
  exact div_nonneg (by norm_num) (by linarith)

theorem decayOf_le_one (age : Rat) : decayOf age ≤ 1 := by
  have hage := le_max_right age 1
  exact (div_le_one (by linarith)).mpr (by linarith)

theorem holds_ofAge (age : Rat) : Holds (decayOf age) [] (ofAge age) where
  decay := by
    rw [ofAge, raiseTo_rat]
    rfl
  count := rfl
  warming := fun _ => rfl
  warm := fun h => absurd h (by simp)

/-- The tenth sample turns the sum into the mean, from then on the average decays. -/
theorem Holds.add (h : Holds d xs a) (x : Rat) : Holds d (xs ++ [x]) (a.add x) := by
  have hlength : (xs ++ [x]).length = xs.length + 1 := by simp
  by_cases hwarm : 10 ≤ xs.length
  · have hcount : ¬ a.count < warmUp := by simp [h.count, warmUp, hwarm]
    have hadd : a.add x = { a with value := x * a.decay + a.value * (1 - a.decay) } :=
      if_neg hcount
    rw [hadd]
    constructor
    · exact h.decay
    · simp only [h.count]
      omega
    · omega
    · intro _
      rw [weighted_snoc hwarm, h.decay, h.warm hwarm]
  · have hcount : a.count < warmUp := by simp [h.count, warmUp]; omega
    have hadd : a.add x =
        { a with
          value := if a.count + 1 = warmUp then (a.value + x) / 10 else a.value + x
          count := a.count + 1 } := if_pos hcount
    have hsum : a.value + x = (xs ++ [x]).sum := by
      rw [h.warming (not_le.mp hwarm), List.sum_append, List.sum_singleton]
    have hstep : a.count + 1 = warmUp ↔ xs.length + 1 = 10 := by
      rw [h.count, warmUp]
      omega
    rw [hadd, hsum]
    constructor
    · exact h.decay
    · simp only [h.count]
      omega
    · intro hlt
      exact if_neg (by rw [hstep]; omega)
    · intro hle
      rw [weighted_of_length (by omega)]
      exact if_pos (hstep.mpr (by omega))

theorem holds_addAll (age : Rat) (xs : List Rat) :
    Holds (decayOf age) xs ((ofAge age).addAll xs) := by
  induction xs using List.reverseRecOn with
  | nil => exact holds_ofAge age
  | append_singleton xs x ih =>
      rw [addAll, List.foldl_append]
      exact ih.add x

theorem Holds.isWarm_iff (h : Holds d xs a) : a.isWarm = true ↔ 10 ≤ xs.length := by
  simp [isWarm, h.count, warmUp]

theorem Holds.reported_of_lt (h : Holds d xs a) (hlt : xs.length < 10) : a.reported = 0 := by
  have hcold : ¬ a.isWarm = true := fun hwarm => not_le.mpr hlt (h.isWarm_iff.mp hwarm)
  exact if_neg hcold

theorem Holds.reported_of_le (h : Holds d xs a) (hle : 10 ≤ xs.length) :
    a.reported = weighted d xs := by
  rw [reported, if_pos (h.isWarm_iff.mpr hle), h.warm hle]

theorem Holds.le_reported (h : Holds (decayOf age) xs a) (hcold : xs.length < 10 → lo ≤ 0)
    (hlo : ∀ x ∈ xs, lo ≤ x) : lo ≤ a.reported := by
  rcases Nat.lt_or_ge xs.length 10 with hlt | hle
  · rw [h.reported_of_lt hlt]
    exact hcold hlt
  · rw [h.reported_of_le hle]
    exact le_weighted (decayOf_nonneg age) (decayOf_le_one age) hle hlo

theorem Holds.reported_le (h : Holds (decayOf age) xs a) (hcold : xs.length < 10 → 0 ≤ hi)
    (hhi : ∀ x ∈ xs, x ≤ hi) : a.reported ≤ hi := by
  rcases Nat.lt_or_ge xs.length 10 with hlt | hle
  · rw [h.reported_of_lt hlt]
    exact hcold hlt
  · rw [h.reported_of_le hle]
    exact weighted_le (decayOf_nonneg age) (decayOf_le_one age) hle hhi

theorem exists_bounds (hne : xs ≠ []) :
    ∃ lo ∈ xs, ∃ hi ∈ xs, ∀ x ∈ xs, lo ≤ x ∧ x ≤ hi := by
  have hset : xs.toFinset.Nonempty := List.toFinset_nonempty_iff _ |>.mpr hne
  obtain ⟨lo, hlo, hleast⟩ := xs.toFinset.exists_min_image id hset
  obtain ⟨hi, hhi, hmost⟩ := xs.toFinset.exists_max_image id hset
  simp only [List.mem_toFinset] at hlo hhi hleast hmost
  exact ⟨lo, hlo, hi, hhi, fun x hx => ⟨hleast x hx, hmost x hx⟩⟩

end Samples

end Average

/-! ## Windows -/

namespace Backend.Stats

/-- The statistics after some windows, each with the time that had elapsed, first one first. -/
def afterWindows {α : Type} [Scalar α] (s : Stats α) (ws : List (Window × Nat)) : Stats α :=
  ws.foldl (fun s w => s.recordWindow w.1 w.2) s

/-- What a window adds to the rolling latency. -/
def latencySample (w : Window × Nat) : Rat :=
  if w.1.requests = 0 then 0
  else secondsOfNanos w.1.latency / raiseTo elapsedFloor (secondsOfNanos w.2) / w.1.requests

/-- What a window adds to the rolling failure rate. -/
def failureSample (w : Window × Nat) : Rat :=
  if w.1.requests = 0 then 0 else w.1.errors / w.1.requests

theorem recordWindow_averages (s : Stats Rat) (w : Window × Nat) :
    (s.recordWindow w.1 w.2).latency = s.latency.add (latencySample w) ∧
      (s.recordWindow w.1 w.2).failureRate = s.failureRate.add (failureSample w) := by
  by_cases hw : w.1.requests = 0
  · rw [recordWindow, if_pos hw, latencySample, if_pos hw, failureSample, if_pos hw]
    exact ⟨rfl, rfl⟩
  · rw [recordWindow, if_neg hw, latencySample, if_neg hw, failureSample, if_neg hw]
    exact ⟨rfl, rfl⟩

theorem afterWindows_averages (s : Stats Rat) (ws : List (Window × Nat)) :
    (s.afterWindows ws).latency = s.latency.addAll (ws.map latencySample) ∧
      (s.afterWindows ws).failureRate = s.failureRate.addAll (ws.map failureSample) := by
  induction ws generalizing s with
  | nil => exact ⟨rfl, rfl⟩
  | cons w ws ih =>
      obtain ⟨hlatency, hfailures⟩ := recordWindow_averages s w
      obtain ⟨hlatencies, hrates⟩ := ih (s.recordWindow w.1 w.2)
      rw [hlatency] at hlatencies
      rw [hfailures] at hrates
      exact ⟨hlatencies, hrates⟩

theorem secondsOfNanos_nonneg (n : Nat) : (0 : Rat) ≤ secondsOfNanos n := by
  have hsum : (secondsOfNanos n : Rat) =
      (n / 1000000000 : Nat) + (n % 1000000000 : Nat) / (1000000000 : Nat) := rfl
  rw [hsum]
  positivity

theorem latencySample_nonneg (w : Window × Nat) : 0 ≤ latencySample w := by
  rw [latencySample]
  split
  · exact le_rfl
  · have hspan : (0 : Rat) ≤ raiseTo elapsedFloor (secondsOfNanos w.2) := by
      rw [raiseTo_rat]
      exact le_max_of_le_left (secondsOfNanos_nonneg _)
    exact div_nonneg (div_nonneg (secondsOfNanos_nonneg _) hspan) (Nat.cast_nonneg _)

theorem failureSample_nonneg (w : Window × Nat) : 0 ≤ failureSample w := by
  rw [failureSample]
  split
  · exact le_rfl
  · exact div_nonneg (Nat.cast_nonneg _) (Nat.cast_nonneg _)

theorem failureSample_le_one {w : Window × Nat} (h : w.1.errors ≤ w.1.requests) :
    failureSample w ≤ 1 := by
  rw [failureSample]
  split
  · exact zero_le_one
  · exact div_le_one_of_le₀ (Nat.cast_le.mpr h) (Nat.cast_nonneg _)

theorem reported_afterWindows (span : Nat) (first : Bool) {ws : List (Window × Nat)}
    (hws : ∀ w ∈ ws, w.1.errors ≤ w.1.requests) :
    let s : Stats Rat := (initial span first).afterWindows ws
    (0 ≤ s.failureRate.reported ∧ s.failureRate.reported ≤ 1) ∧ 0 ≤ s.latency.reported := by
  intro s
  obtain ⟨hlatency, hfailures⟩ := afterWindows_averages (initial span first) ws
  have hlatencies := Average.holds_addAll (ofNat span) (ws.map latencySample)
  have hrates := Average.holds_addAll (ofNat failureRateAge) (ws.map failureSample)
  rw [hlatency, hfailures]
  refine ⟨⟨hrates.le_reported (fun _ => le_rfl) ?_, hrates.reported_le (fun _ => zero_le_one) ?_⟩,
    hlatencies.le_reported (fun _ => le_rfl) ?_⟩
  · exact List.forall_mem_map.mpr fun w _ => failureSample_nonneg w
  · exact List.forall_mem_map.mpr fun w hw => failureSample_le_one (hws w hw)
  · exact List.forall_mem_map.mpr fun w _ => latencySample_nonneg w

end Backend.Stats

namespace Average

/-- In exact arithmetic an average reads zero until it has ten samples. From then on it is the
weighted mean of the first ten and of each later sample, with weights that are not negative and add
up to one, so it lies between the smallest and the largest sample. So a rolling failure rate stays
between zero and one and a rolling latency is never negative, whatever the windows and however much
time each of them took. -/
theorem reported_exact (age : Rat) (samples : List Rat) :
    let a : Average Rat := (ofAge age).addAll samples
    let d := 2 / (max age 1 + 1)
    let n := samples.length
    (n < 10 → a.reported = 0 ∧ a.isWarm = false) ∧
      (10 ≤ n → a.isWarm = true ∧
        a.reported = (1 - d) ^ (n - 10) * ((samples.take 10).sum / 10) +
          ∑ i ∈ Finset.Icc 11 n, d * (1 - d) ^ (n - i) * samples.getD (i - 1) 0 ∧
        0 ≤ (1 - d) ^ (n - 10) ∧ (∀ i, 0 ≤ d * (1 - d) ^ (n - i)) ∧
        (1 - d) ^ (n - 10) + ∑ i ∈ Finset.Icc 11 n, d * (1 - d) ^ (n - i) = 1 ∧
        ∃ lo ∈ samples, ∃ hi ∈ samples, (∀ x ∈ samples, lo ≤ x ∧ x ≤ hi) ∧
          lo ≤ a.reported ∧ a.reported ≤ hi) ∧
      ∀ span first (ws : List (Backend.Window × Nat)),
        (∀ w ∈ ws, w.1.errors ≤ w.1.requests) →
          let s : Backend.Stats Rat := (Backend.Stats.initial span first).afterWindows ws
          (0 ≤ s.failureRate.reported ∧ s.failureRate.reported ≤ 1) ∧
            0 ≤ s.latency.reported := by
  intro a d n
  have ha : Holds (decayOf age) samples a := holds_addAll age samples
  have hrest : 0 ≤ 1 - d := sub_nonneg.mpr (decayOf_le_one age)
  refine ⟨fun hlt => ?_, fun hle => ?_, fun span first ws hws =>
    Backend.Stats.reported_afterWindows span first hws⟩
  · refine ⟨ha.reported_of_lt hlt, Bool.eq_false_iff.mpr fun hwarm => ?_⟩
    exact not_le.mpr hlt (ha.isWarm_iff.mp hwarm)
  · have hsum := pow_add_later d hle
    simp only [later, mul_one] at hsum
    have hcold {p : Prop} (hlt : n < 10) : p := absurd hle (not_le.mpr hlt)
    have hne : samples ≠ [] := List.ne_nil_of_length_pos (Nat.lt_of_lt_of_le (by decide) hle)
    obtain ⟨lo, hlo, hi, hhi, hbounds⟩ := exists_bounds hne
    refine ⟨ha.isWarm_iff.mpr hle, ha.reported_of_le hle, pow_nonneg hrest _,
      fun i => mul_nonneg (decayOf_nonneg age) (pow_nonneg hrest _), hsum,
      lo, hlo, hi, hhi, hbounds, ?_, ?_⟩
    · exact ha.le_reported hcold fun x hx => (hbounds x hx).1
    · exact ha.reported_le hcold fun x hx => (hbounds x hx).2

/-- Two samples after the warm-up, and windows in which most requests failed. -/
theorem reported_exact_decayed :
    let samples : List Rat := [4, 4, 4, 4, 4, 4, 4, 4, 4, 14, 9, 1]
    let a : Average Rat := (ofAge 3).addAll samples
    let ws : List (Backend.Window × Nat) := List.replicate 11 (⟨4, 3, 5000000000⟩, 1000000000)
    let s : Backend.Stats Rat := (Backend.Stats.initial 30 true).afterWindows ws
    10 ≤ samples.length ∧ (∀ w ∈ ws, w.1.errors ≤ w.1.requests) ∧
      a.reported = 4 ∧ a.isWarm = true ∧
      (∃ lo ∈ samples, ∃ hi ∈ samples, (∀ x ∈ samples, lo ≤ x ∧ x ≤ hi) ∧
        lo ≤ a.reported ∧ a.reported ≤ hi) ∧
      s.failureRate.reported = 3 / 4 ∧ s.failureRate.reported ≤ 1 ∧
      s.latency.reported = 5 / 4 ∧ 0 ≤ s.latency.reported := by
  intro samples a ws s
  have hws : ∀ w ∈ ws, w.1.errors ≤ w.1.requests := by decide +kernel
  obtain ⟨-, hwarm, hwindows⟩ := reported_exact 3 samples
  obtain ⟨hisWarm, -, -, -, -, hbounds⟩ := hwarm (by decide)
  obtain ⟨⟨-, hrate⟩, hlatency⟩ := hwindows 30 true ws hws
  exact ⟨by decide, hws, by decide +kernel, hisWarm, hbounds, by decide +kernel, hrate,
    by decide +kernel, hlatency⟩

end Average

end ReverseProxy
