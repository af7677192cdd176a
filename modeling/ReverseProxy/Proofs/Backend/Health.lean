import Mathlib.Data.List.Induction
import ReverseProxy.Backend.Stats

/-!
# Health as a function of the past

Probes and overrides move the health of a backend one at a time. `health_afterEvents` says where they
have brought it, in terms of all that happened: of the failed probes at the end, of a probe that
succeeded since the last override, and of what that override said.
-/

namespace ReverseProxy.Backend

/-- What moves the health of a backend. -/
inductive HealthEvent
  | probe (success : Bool)
  | override (healthy : Bool)
deriving DecidableEq, Repr

namespace HealthEvent

def override? : HealthEvent → Option Bool
  | override healthy => some healthy
  | probe _ => none

/-! ## The past -/

/-- How many failed probes stand at the end, after the last successful probe or override. -/
def failuresAtEnd (es : List HealthEvent) : Nat := (es.reverse.takeWhile (· = probe false)).length

/-- Whether a probe succeeded since the last override, or ever if there was none. -/
def Recovered (es : List HealthEvent) : Prop :=
  probe true ∈ es.reverse.takeWhile (·.override?.isNone)

/-- What the last override said, or how it all began if there was none. -/
def lastSaid (first : Bool) (es : List HealthEvent) : Bool :=
  (es.reverse.findSome? override?).getD first

theorem failuresAtEnd_snoc (es : List HealthEvent) (e : HealthEvent) :
    failuresAtEnd (es ++ [e]) = if e = probe false then failuresAtEnd es + 1 else 0 := by
  by_cases he : e = probe false <;> simp [failuresAtEnd, he]

theorem recovered_snoc_probe (es : List HealthEvent) (success : Bool) :
    Recovered (es ++ [probe success]) ↔ success = true ∨ Recovered es := by
  cases success <;> simp [Recovered, override?]

theorem not_recovered_snoc_override (es : List HealthEvent) (healthy : Bool) :
    ¬ Recovered (es ++ [override healthy]) := by
  simp [Recovered, override?]

theorem lastSaid_snoc_probe (first : Bool) (es : List HealthEvent) (success : Bool) :
    lastSaid first (es ++ [probe success]) = lastSaid first es := by
  simp [lastSaid, override?, List.findSome?_cons]

theorem lastSaid_snoc_override (first : Bool) (es : List HealthEvent) (healthy : Bool) :
    lastSaid first (es ++ [override healthy]) = healthy := by
  simp [lastSaid, override?, List.findSome?_cons]

end HealthEvent

open HealthEvent

namespace Stats

variable {α : Type}

def apply (s : Stats α) : HealthEvent → Stats α
  | .probe success => (s.recordProbe success).2
  | .override healthy => s.setHealthy healthy

/-- The statistics after some events, first one first. -/
def afterEvents (s : Stats α) (es : List HealthEvent) : Stats α := es.foldl apply s

theorem afterEvents_snoc (s : Stats α) (es : List HealthEvent) (e : HealthEvent) :
    s.afterEvents (es ++ [e]) = (s.afterEvents es).apply e := by
  simp [afterEvents]

/-! ## One probe -/

theorem recordProbe_failures (s : Stats α) (success : Bool) :
    (s.recordProbe success).2.failures = if success then 0 else s.failures + 1 := by
  simp only [recordProbe]
  generalize (if success then 0 else s.failures + 1) = failures
  split
  · rfl
  · split <;> rfl

/-- A success readmits a backend; a failure ejects it once the streak is too long, and readmits
none. -/
theorem recordProbe_healthy (s : Stats α) (success : Bool) :
    (s.recordProbe success).2.healthy =
      (success || (s.healthy && decide (s.failures + 1 ≤ maxFailures))) := by
  cases success with
  | true => cases hs : s.healthy <;> simp [recordProbe, hs]
  | false =>
      cases hs : s.healthy with
      | false => simp [recordProbe, hs]
      | true =>
          simp only [recordProbe, hs, Bool.false_eq_true, if_false, Bool.false_or, Bool.true_and]
          generalize s.failures + 1 = failures
          by_cases hf : maxFailures < failures
          · simp [hf, Nat.not_le.mpr hf]
          · simp [hf, Nat.not_lt.mp hf]

theorem recordProbe_eq_some_iff (s : Stats α) (success healthy : Bool) :
    (s.recordProbe success).1 = some healthy ↔
      (s.recordProbe success).2.healthy ≠ s.healthy ∧
        healthy = (s.recordProbe success).2.healthy := by
  simp only [recordProbe]
  generalize (if success then 0 else s.failures + 1) = failures
  split
  · rename_i hcond
    simp [(Bool.and_eq_true_iff.mp hcond).1, eq_comm]
  · split
    · rename_i hcond
      have hs : s.healthy = false := by simpa using (Bool.and_eq_true_iff.mp hcond).1
      simp [hs, eq_comm]
    · simp

/-! ## The whole past -/

/-- The streak is what stands at the end, and health is what the past calls for. -/
structure Follows (first : Bool) (es : List HealthEvent) (s : Stats α) : Prop where
  failures : s.failures = failuresAtEnd es
  healthy : s.healthy = true ↔
    failuresAtEnd es ≤ maxFailures ∧ (Recovered es ∨ lastSaid first es = true)

theorem follows_initial [Scalar α] (span : Nat) (first : Bool) :
    Follows first [] (initial span first : Stats α) where
  failures := rfl
  healthy := by simp [initial, failuresAtEnd, Recovered, lastSaid]

theorem Follows.apply {first : Bool} {es : List HealthEvent} {s : Stats α}
    (h : Follows first es s) (e : HealthEvent) : Follows first (es ++ [e]) (s.apply e) := by
  cases e with
  | probe success =>
      constructor
      · cases success <;> simp [Stats.apply, recordProbe_failures, failuresAtEnd_snoc, h.failures]
      · rw [Stats.apply, recordProbe_healthy, recovered_snoc_probe, lastSaid_snoc_probe,
          failuresAtEnd_snoc, h.failures]
        cases success with
        | true => simp
        | false =>
            -- A streak that is short enough with one failure more was short enough before.
            have hshorter : failuresAtEnd es + 1 ≤ maxFailures → failuresAtEnd es ≤ maxFailures :=
              fun hle => Nat.le_of_succ_le hle
            simp only [Bool.false_or, Bool.and_eq_true, decide_eq_true_eq, h.healthy, if_true,
              Bool.false_eq_true, false_or]
            constructor
            · rintro ⟨⟨-, hsaid⟩, hle⟩
              exact ⟨hle, hsaid⟩
            · rintro ⟨hle, hsaid⟩
              exact ⟨⟨hshorter hle, hsaid⟩, hle⟩
  | override healthy =>
      constructor
      · simp [Stats.apply, setHealthy, failuresAtEnd_snoc]
      · simp [Stats.apply, setHealthy, failuresAtEnd_snoc, lastSaid_snoc_override,
          not_recovered_snoc_override]

theorem follows_afterEvents [Scalar α] (span : Nat) (first : Bool) (es : List HealthEvent) :
    Follows first es ((initial span first : Stats α).afterEvents es) := by
  induction es using List.reverseRecOn with
  | nil => exact follows_initial span first
  | append_singleton es e ih =>
      rw [afterEvents_snoc]
      exact ih.apply e

/-- However probes and overrides were mixed, the streak is the number of failed probes at the end,
and a backend is healthy exactly if there are at most five of them and either a probe succeeded
since the last override or that override, or else the beginning, said so. A probe tells the new
health exactly if it changed it. -/
theorem health_afterEvents [Scalar α] (span : Nat) (first : Bool) (es : List HealthEvent) :
    let s : Stats α := (initial span first).afterEvents es
    s.failures = failuresAtEnd es ∧
      (s.healthy = true ↔
        failuresAtEnd es ≤ 5 ∧ (Recovered es ∨ lastSaid first es = true)) ∧
      ∀ success healthy, (s.recordProbe success).1 = some healthy ↔
        (s.recordProbe success).2.healthy ≠ s.healthy ∧
          healthy = (s.recordProbe success).2.healthy := by
  intro s
  have hs : Follows first es s := follows_afterEvents span first es
  exact ⟨hs.failures, hs.healthy, s.recordProbe_eq_some_iff⟩

end Stats

end ReverseProxy.Backend
