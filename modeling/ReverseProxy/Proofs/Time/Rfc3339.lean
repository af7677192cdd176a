import ReverseProxy.Proofs.Text.Decimal
import ReverseProxy.Proofs.Time.Calendar
import ReverseProxy.Time.Rfc3339

/-!
# Timestamps from their parts

Each part of a timestamp that has been written is read back, whatever follows it, and date and clock
time in universal time determine the moment, leap seconds included.
-/

namespace ReverseProxy.Time

open Text

namespace Rfc3339

theorem fixedDigits_padded {w n : Nat} (hw : 0 < w) (h : n < 10 ^ w) (rest : List Char) :
    fixedDigits w (padded w n ++ rest) = some (n, rest) := by
  have hlength := length_padded hw h
  have hshort : ¬ (padded w n ++ rest).length < w := by
    simp only [List.length_append, hlength]
    omega
  rw [fixedDigits, if_neg hshort, List.take_left' hlength, List.drop_left' hlength,
    ofDigits?_padded]
  rfl

theorem fixedDigits_two {n : Nat} (h : n < 100) (rest : List Char) :
    fixedDigits 2 (padded 2 n ++ rest) = some (n, rest) :=
  fixedDigits_padded (by decide) h rest

theorem fixedDigits_four {n : Nat} (h : n < 10000) (rest : List Char) :
    fixedDigits 4 (padded 4 n ++ rest) = some (n, rest) :=
  fixedDigits_padded (by decide) h rest

/-! ## Fractions -/

theorem ofDigitsFrom?_trailing (n k : Nat) :
    ofDigitsFrom? 10 n (List.replicate k '0') = some (n * 10 ^ k) := by
  induction k generalizing n with
  | zero => simp [ofDigitsFrom?]
  | succ k ih =>
      have hz : digitValue? 10 '0' = some 0 := by decide
      simp only [List.replicate_succ, ofDigitsFrom?, hz]
      simpa [Nat.pow_succ, Nat.mul_assoc, Nat.mul_comm] using ih (n * 10)

/-- The digits of a fraction without the zeros at their end. -/
def significant (ds : List Char) : List Char := (ds.reverse.dropWhile (· = '0')).reverse

theorem significant_append (ds : List Char) :
    ∃ k, significant ds ++ List.replicate k '0' = ds := by
  have hzeros : ∀ c ∈ ds.reverse.takeWhile (· = '0'), c = '0' := fun c hc => by
    simpa using List.all_eq_true.mp List.all_takeWhile c hc
  refine ⟨(ds.reverse.takeWhile (· = '0')).length, ?_⟩
  rw [significant, ← List.reverse_replicate, ← List.eq_replicate_of_mem hzeros,
    ← List.reverse_append, List.takeWhile_append_dropWhile, List.reverse_reverse]

theorem mem_of_mem_significant {ds : List Char} {c : Char} (h : c ∈ significant ds) : c ∈ ds := by
  obtain ⟨k, hk⟩ := significant_append ds
  rw [← hk]
  exact List.mem_append_left _ h

variable {n : Nat}

theorem significant_ne_nil (hpos : n ≠ 0) : significant (padded 9 n) ≠ [] := by
  intro hnil
  obtain ⟨k, hk⟩ := significant_append (padded 9 n)
  have hread := ofDigits?_padded 9 n
  rw [hnil, List.nil_append] at hk
  have hne : padded 9 n ≠ [] := by
    simp [padded, digits_ne_nil]
  rw [ofDigits?_of_ne_nil hne, ← hk, ofDigitsFrom?_trailing] at hread
  have hzero : 0 * 10 ^ k = n := Option.some.inj hread
  omega

theorem nanosOfFraction_significant (hpos : n ≠ 0) (h : n < 1000000000) :
    nanosOfFraction (significant (padded 9 n)) = n := by
  obtain ⟨k, hk⟩ := significant_append (padded 9 n)
  have hlength : (significant (padded 9 n)).length + k = 9 := by
    have hall := congrArg List.length hk
    rwa [length_padded (by decide) h, List.length_append, List.length_replicate] at hall
  have hread := ofDigitsFrom?_append 10 0 (significant (padded 9 n)) (List.replicate k '0')
  have hne : padded 9 n ≠ [] := by
    simp [padded, digits_ne_nil]
  rw [hk, ← ofDigits?_of_ne_nil hne, ofDigits?_padded] at hread
  obtain ⟨m, hm, hn⟩ := Option.bind_eq_some_iff.mp hread.symm
  rw [ofDigitsFrom?_trailing, Option.some.injEq] at hn
  have hrest : 9 - (significant (padded 9 n)).length = k := by omega
  rw [nanosOfFraction, List.take_of_length_le (by omega),
    ofDigits?_of_ne_nil (significant_ne_nil hpos), hm, hrest]
  exact hn

/-- A fraction that is not zero, before something that is no digit. -/
theorem fraction_significant (hpos : n ≠ 0) (h : n < 1000000000) {c : Char}
    (hc : isDigit c = false) (rest : List Char) :
    fraction ('.' :: significant (padded 9 n) ++ c :: rest) = some (n, c :: rest) := by
  have hdigits : ∀ d ∈ significant (padded 9 n), isDigit d = true := fun d hd =>
    isDigit_of_mem_padded (mem_of_mem_significant hd)
  simp only [List.cons_append, fraction, takeWhile_append_stop hdigits hc,
    dropWhile_append_stop hdigits hc, List.isEmpty_iff, significant_ne_nil hpos,
    nanosOfFraction_significant hpos h, if_false]

end Rfc3339

/-! ## Moments -/

namespace Timestamp

variable (t : Timestamp)

theorem secondOfDay_lt : t.secondOfDay < 86400 := by
  simp only [secondOfDay]
  omega

/-- Whether a leap second comes at the end of its minute. -/
def IsRegular : Prop := t.nanos < 1000000000 ∨ t.secs % 60 = 59

instance : Decidable t.IsRegular := inferInstanceAs (Decidable (_ ∨ _))

theorem inRange_succ (h : ¬ t.IsRegular) : first ≤ t.secs + 1 ∧ t.secs + 1 ≤ last := by
  have hend : last % 60 = 59 := by decide
  have hsecond : t.secs % 60 ≠ 59 := fun heq => h (.inr heq)
  have hrange := t.inRange
  omega

theorem inSecond_sub : t.nanos - 1000000000 < 2000000000 := by
  have hnanos := t.inSecond
  omega

/-- The moment that is read off the clock: a leap second within a minute reads as the second after
it. -/
def carry : Timestamp :=
  if h : t.IsRegular then t
  else ⟨t.secs + 1, t.nanos - 1000000000, t.inRange_succ h, t.inSecond_sub⟩

theorem clock_isValid : t.clock.isValid = true := by
  have hday := t.secondOfDay_lt
  simp only [ClockTime.isValid, Bool.and_eq_true, decide_eq_true_eq]
  simp only [clock]
  refine ⟨⟨⟨by omega, by omega⟩, ?_⟩, by omega⟩
  split <;> omega

end Timestamp

end ReverseProxy.Time
