import Mathlib.Algebra.Ring.Nat
import Mathlib.Data.List.Induction
import ReverseProxy.Text.Decimal

/-!
# Numbers written and read

Numbers filled up to a width keep that width as long as they fit, consist of digits, and are read
back, in decimal and in hexadecimal.
-/

namespace ReverseProxy.Text

/-! ## Runs of characters -/

section Runs

variable {p : Char → Bool} {cs : List Char} {d : Char}

theorem takeWhile_append_stop (h : ∀ c ∈ cs, p c = true) (hd : p d = false) (rest : List Char) :
    (cs ++ d :: rest).takeWhile p = cs := by
  rw [List.takeWhile_append_of_pos h]
  simp [hd]

theorem dropWhile_append_stop (h : ∀ c ∈ cs, p c = true) (hd : p d = false) (rest : List Char) :
    (cs ++ d :: rest).dropWhile p = d :: rest := by
  rw [List.dropWhile_append_of_pos h]
  simp [hd]

end Runs

/-! ## Digits -/

theorem isDigit_digitChar {d : Nat} (h : d < 10) : isDigit (digitChar d) = true := by
  have all : ∀ e < 10, isDigit (digitChar e) = true := by decide
  exact all d h

/-- What holds of the ten digits holds of every character that is a digit. -/
theorem forall_isDigit {P : Char → Prop} (h : ∀ d < 10, P (digitChar d)) {c : Char}
    (hc : isDigit c = true) : P c := by
  simp only [isDigit, Bool.and_eq_true, decide_eq_true_eq, Char.le_def, UInt32.le_iff_toNat_le]
    at hc
  have hlow : 48 ≤ c.toNat := hc.1
  have hhigh : c.toNat ≤ 57 := hc.2
  have hdigit : digitChar (c.toNat - 48) = c := by
    rw [digitChar, if_pos (by omega), show 48 + (c.toNat - 48) = c.toNat by omega,
      Char.ofNat_toNat]
  rw [← hdigit]
  exact h _ (by omega)

/-- What is no digit in decimal is at most one of the larger digits. -/
theorem digitValue?_of_not_isDigit {c : Char} (h : isDigit c = false) :
    digitValue? 10 c = none := by
  have hdecimal : ¬ ('0' ≤ c && c ≤ '9') = true := Bool.eq_false_iff.mp h
  rw [digitValue?, hexValue?, if_neg hdecimal]
  split
  · rename_i hlower
    simp only [Bool.and_eq_true, decide_eq_true_eq, Char.le_def, UInt32.le_iff_toNat_le] at hlower
    have hlow : 97 ≤ c.toNat := hlower.1
    simp
    omega
  · split
    · rename_i hupper
      simp only [Bool.and_eq_true, decide_eq_true_eq, Char.le_def, UInt32.le_iff_toNat_le] at hupper
      have hlow : 65 ≤ c.toNat := hupper.1
      simp
      omega
    · rfl

theorem isSome_digitValue? (c : Char) : (digitValue? 10 c).isSome = isDigit c := by
  cases hc : isDigit c with
  | false => rw [digitValue?_of_not_isDigit hc, Option.isSome_none]
  | true =>
      exact forall_isDigit (P := fun c => (digitValue? 10 c).isSome = true)
        (fun d hd => by rw [digitValue?_digitChar hd, Option.isSome_some]) hc

theorem digitValue?_of_apart {p : Char → Bool} (h : ∀ d < 10, p (digitChar d) = false) {c : Char}
    (hc : p c = true) : digitValue? 10 c = none := by
  refine digitValue?_of_not_isDigit (Bool.eq_false_iff.mpr fun hdigit => ?_)
  have hp : p c = false := forall_isDigit (P := fun c => p c = false) h hdigit
  rw [hc] at hp
  contradiction

theorem isDigit_of_mem_digits {n : Nat} {c : Char} (h : c ∈ digits n) : isDigit c = true := by
  rw [digits] at h
  split at h
  · rename_i hn
    rw [List.mem_singleton.mp h]
    exact isDigit_digitChar hn
  · rcases List.mem_append.mp h with h | h
    · exact isDigit_of_mem_digits h
    · rw [List.mem_singleton.mp h]
      exact isDigit_digitChar (Nat.mod_lt n (by decide))
termination_by n

theorem digitChar_eq_zero {d : Nat} (h : d < 10) (hd : digitChar d = '0') : d = 0 := by
  have all : ∀ e < 10, digitChar e = '0' → e = 0 := by decide
  exact all d h hd

/-- No zero leads a number but zero itself. -/
theorem digits_head_ne_zero {n : Nat} (h : n ≠ 0) : (digits n).head? ≠ some '0' := by
  rw [digits]
  split
  · rename_i hn
    intro hz
    exact h (digitChar_eq_zero hn (Option.some.inj hz))
  · have ih := digits_head_ne_zero (n := n / 10) (by omega)
    cases hd : digits (n / 10) with
    | nil => exact absurd hd (digits_ne_nil _)
    | cons c cs =>
        rw [hd] at ih
        exact ih
termination_by n

theorem length_digits_le {n k : Nat} (hk : 0 < k) (h : n < 10 ^ k) : (digits n).length ≤ k := by
  induction k generalizing n with
  | zero => omega
  | succ k ih =>
      rw [digits]
      split
      · simp
      · have hdiv : n / 10 < 10 ^ k := by
          rw [Nat.pow_succ] at h
          omega
        have hpos : 0 < k := by
          cases k with
          | zero => simp at hdiv; omega
          | succ k => omega
        have hle := ih hpos hdiv
        simp only [List.length_append, List.length_singleton]
        omega

/-! ## Numbers of a width -/

theorem length_padded {w n : Nat} (hw : 0 < w) (h : n < 10 ^ w) : (padded w n).length = w := by
  have hle := length_digits_le hw h
  simp only [padded, List.length_append, List.length_replicate]
  omega

theorem isDigit_of_mem_padded {w n : Nat} {c : Char} (h : c ∈ padded w n) : isDigit c = true := by
  rcases List.mem_append.mp h with h | h
  · rw [List.eq_of_mem_replicate h]
    decide
  · exact isDigit_of_mem_digits h

theorem ofDigitsFrom?_zeros (k : Nat) (cs : List Char) :
    ofDigitsFrom? 10 0 (List.replicate k '0' ++ cs) = ofDigitsFrom? 10 0 cs := by
  induction k with
  | zero => rfl
  | succ k ih =>
      have hz : digitValue? 10 '0' = some 0 := by decide
      simpa [List.replicate_succ, ofDigitsFrom?, hz] using ih

theorem ofDigits?_of_ne_nil {base : Nat} {cs : List Char} (h : cs ≠ []) :
    ofDigits? base cs = ofDigitsFrom? base 0 cs := by
  cases cs with
  | nil => exact absurd rfl h
  | cons c cs => rfl

theorem ofDigits?_padded (w n : Nat) : ofDigits? 10 (padded w n) = some n := by
  have hne : padded w n ≠ [] := by
    simp [padded, digits_ne_nil]
  rw [ofDigits?_of_ne_nil hne, padded, ofDigitsFrom?_zeros, ofDigitsFrom?_digits]

/-- Something that is no digit among the digits. -/
theorem ofDigitsFrom?_eq_none {base acc : Nat} {cs : List Char} {c : Char} (hc : c ∈ cs)
    (hd : digitValue? base c = none) : ofDigitsFrom? base acc cs = none := by
  induction cs generalizing acc with
  | nil => cases hc
  | cons d ds ih =>
      rcases List.mem_cons.mp hc with rfl | hc
      · simp [ofDigitsFrom?, hd]
      · cases hv : digitValue? base d with
        | none => simp [ofDigitsFrom?, hv]
        | some v => simp [ofDigitsFrom?, hv, ih hc]

theorem ofDigits?_eq_none {base : Nat} {cs : List Char} {c : Char} (hc : c ∈ cs)
    (hd : digitValue? base c = none) : ofDigits? base cs = none := by
  rw [ofDigits?_of_ne_nil (List.ne_nil_of_mem hc), ofDigitsFrom?_eq_none hc hd]

theorem digits_append {n d : Nat} (hn : n ≠ 0) (hd : d < 10) :
    digits (n * 10 + d) = digits n ++ [digitChar d] := by
  rw [digits, if_neg (by omega), show (n * 10 + d) / 10 = n by omega,
    show (n * 10 + d) % 10 = d by omega]

/-- A character with a value in decimal is the digit of that value. -/
theorem eq_digitChar_of_digitValue? {c : Char} {d : Nat} (h : digitValue? 10 c = some d) :
    d < 10 ∧ c = digitChar d := by
  have hdigit : isDigit c = true := by rw [← isSome_digitValue?, h, Option.isSome_some]
  refine forall_isDigit (P := fun c => digitValue? 10 c = some d → d < 10 ∧ c = digitChar d)
    (fun e he hvalue => ?_) hdigit h
  obtain rfl := Option.some.inj ((digitValue?_digitChar he).symm.trans hvalue)
  exact ⟨he, rfl⟩

/-- A text that is read as a number holds the digits of that number, if no zero leads it. -/
theorem eq_digits_of_ofDigitsFrom? {cs : List Char} {n : Nat} (hne : cs ≠ [])
    (h : ofDigitsFrom? 10 0 cs = some n) (hzero : cs.head? = some '0' → cs.length = 1) :
    cs = digits n := by
  induction cs using List.reverseRecOn generalizing n with
  | nil => exact absurd rfl hne
  | append_singleton cs c ih =>
      rw [ofDigitsFrom?_append] at h
      obtain ⟨m, hm, h⟩ := Option.bind_eq_some_iff.mp h
      obtain ⟨d, hd, h⟩ := Option.bind_eq_some_iff.mp h
      obtain rfl := Option.some.inj h
      obtain ⟨hlt, rfl⟩ := eq_digitChar_of_digitValue? hd
      by_cases hcs : cs = []
      · subst hcs
        obtain rfl := Option.some.inj hm
        rw [digits, if_pos (by omega)]
        simp
      · have hhead : (cs ++ [digitChar d]).head? = cs.head? := by
          obtain ⟨e, es, rfl⟩ := List.exists_cons_of_ne_nil hcs
          rfl
        have hlead : cs.head? ≠ some '0' := fun h0 => by
          have hlength := hzero (hhead.trans h0)
          exact hcs (by simpa using hlength)
        have heq := ih hcs hm fun h0 => absurd h0 hlead
        have hm0 : m ≠ 0 := by
          rintro rfl
          exact hlead (by rw [heq, digits]; rfl)
        rw [heq, ← digits_append hm0 hlt]

/-! ## Signs -/

theorem toList_signedDecimal (n : Int) :
    (signedDecimal n).toList = (if n < 0 then ['-'] else []) ++ digits n.natAbs := by
  cases n with
  | ofNat n =>
      have hn : ¬ Int.ofNat n < 0 := Int.not_lt.mpr (Int.natCast_nonneg n)
      rw [if_neg hn]
      simp [signedDecimal, decimal]
  | negSucc n =>
      rw [if_pos (Int.negSucc_lt_zero n)]
      simp [signedDecimal, decimal]

/-! ## Hexadecimal -/

theorem length_hexPadded (w n : Nat) : (hexPadded w n).length = w := by
  induction w generalizing n with
  | zero => rfl
  | succ w ih => simp [hexPadded, ih]

theorem digitValue?_upperDigit {d : Nat} (h : d < 16) :
    digitValue? 16 (digitChar d).toUpper = some d := by
  have all : ∀ e < 16, digitValue? 16 (digitChar e).toUpper = some e := by decide
  exact all d h

theorem ofDigitsFrom?_hexPadded {w n : Nat} (h : n < 16 ^ w) :
    ofDigitsFrom? 16 0 (hexPadded w n) = some n := by
  induction w generalizing n with
  | zero =>
      have hn : n = 0 := by simpa using h
      rw [hn]
      rfl
  | succ w ih =>
      have hdiv : n / 16 < 16 ^ w := by
        rw [Nat.pow_succ] at h
        omega
      rw [hexPadded, ofDigitsFrom?_append, ih hdiv]
      simp [ofDigitsFrom?, digitValue?_upperDigit (Nat.mod_lt n (by decide : 16 > 0))]
      omega

theorem ofDigits?_hexPadded {w n : Nat} (hw : 0 < w) (h : n < 16 ^ w) :
    ofDigits? 16 (hexPadded w n) = some n := by
  have hne : hexPadded w n ≠ [] := by
    rw [← List.length_pos_iff, length_hexPadded]
    exact hw
  rw [ofDigits?_of_ne_nil hne, ofDigitsFrom?_hexPadded h]

end ReverseProxy.Text
