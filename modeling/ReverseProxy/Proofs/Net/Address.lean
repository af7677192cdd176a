import ReverseProxy.Net.Address
import ReverseProxy.Proofs.Text.Decimal

/-!
# Addresses in text

An address is written in digits, small letters, dots and colons only.
-/

namespace ReverseProxy.Net

/-- The characters of addresses. -/
def IsAddressChar (c : Char) : Prop :=
  Text.isDigit c = true ∨ ('a' ≤ c ∧ c ≤ 'f') ∨ c = '.' ∨ c = ':'

instance (c : Char) : Decidable (IsAddressChar c) :=
  inferInstanceAs (Decidable (Text.isDigit c = true ∨ ('a' ≤ c ∧ c ≤ 'f') ∨ c = '.' ∨ c = ':'))

/-- They are visible, and none of them is a comma. -/
theorem IsAddressChar.bounds {c : Char} (h : IsAddressChar c) :
    32 ≤ c.toNat ∧ c.toNat < 127 ∧ c.toNat ≠ 44 := by
  rcases h with h | ⟨hlow, hhigh⟩ | rfl | rfl
  · exact Text.forall_isDigit (P := fun c => 32 ≤ c.toNat ∧ c.toNat < 127 ∧ c.toNat ≠ 44)
      (by decide) h
  · have hlow : 97 ≤ c.toNat := hlow
    have hhigh : c.toNat ≤ 102 := hhigh
    omega
  · decide
  · decide

theorem isAddressChar_hexPadded {w n : Nat} {c : Char} (h : c ∈ Text.hexPadded w n) :
    IsAddressChar c.toLower := by
  induction w generalizing n with
  | zero => cases h
  | succ w ih =>
      rcases List.mem_append.mp h with h | h
      · exact ih h
      · rw [List.mem_singleton.mp h]
        have all : ∀ d < 16, IsAddressChar (Text.digitChar d).toUpper.toLower := by decide
        exact all _ (Nat.mod_lt n (by decide))

theorem isAddressChar_hexGroup {g : UInt16} {c : Char} (h : c ∈ hexGroup g) : IsAddressChar c := by
  simp only [hexGroup] at h
  split at h
  · rw [List.mem_singleton.mp h]
    exact .inl (by decide)
  · rename_i hgroup
    have hmem := (List.dropWhile_sublist _).mem h
    obtain ⟨d, hd, rfl⟩ := List.mem_map.mp hmem
    exact isAddressChar_hexPadded hd

theorem isAddressChar_joinGroups {gs : List UInt16} {c : Char} (h : c ∈ joinGroups gs) :
    IsAddressChar c := by
  fun_induction joinGroups gs with
  | case1 => cases h
  | case2 g => exact isAddressChar_hexGroup h
  | case3 g gs hgs ih =>
      rcases List.mem_append.mp h with h | h
      · exact isAddressChar_hexGroup h
      · rcases List.mem_cons.mp h with rfl | h
        · exact .inr (.inr (.inr rfl))
        · exact ih h

theorem isAddressChar_digits {n : Nat} {c : Char} (h : c ∈ Text.digits n) : IsAddressChar c :=
  .inl (Text.isDigit_of_mem_digits h)

theorem isAddressChar_printV4 {a b c d : UInt8} {x : Char} (h : x ∈ printV4 a b c d) :
    IsAddressChar x := by
  simp only [printV4, List.append_assoc, List.cons_append, List.mem_append, List.mem_cons] at h
  rcases h with h | rfl | h | rfl | h | rfl | h
  all_goals first | exact isAddressChar_digits h | exact .inr (.inr (.inl rfl))

theorem isAddressChar_printV6 {gs : List UInt16} {c : Char} (h : c ∈ printV6 gs) :
    IsAddressChar c := by
  unfold printV6 at h
  split at h
  · have hlead : [':', ':', 'f', 'f', 'f', 'f', ':'].all (IsAddressChar ·) = true := by decide
    rcases List.mem_append.mp h with h | h
    · exact of_decide_eq_true (List.all_eq_true.mp hlead c h)
    · exact isAddressChar_printV4 h
  · split at h
    split at h
    · simp only [List.mem_append, List.mem_cons] at h
      rcases h with h | rfl | rfl | h
      · exact isAddressChar_joinGroups h
      · exact .inr (.inr (.inr rfl))
      · exact .inr (.inr (.inr rfl))
      · exact isAddressChar_joinGroups h
    · exact isAddressChar_joinGroups h

theorem isAddressChar_print {ip : IpAddr} {c : Char} (h : c ∈ ip.print) : IsAddressChar c := by
  cases ip with
  | v4 a b c d => exact isAddressChar_printV4 h
  | v6 gs => exact isAddressChar_printV6 h

end ReverseProxy.Net
