import ReverseProxy.Proofs.Text.Decimal
import ReverseProxy.Toml.Document

/-!
# Integers written and read

A decimal integer is neither the beginning of a date nor of a time, and is read as the number it
writes as far as that has 64 bits.
-/

namespace ReverseProxy.Toml

open ReverseProxy.Text ReverseProxy.Time

section Digits

variable {ds : List Char}

/-! ## No date, no time -/

/-- After some digits of a line there is one more, or the line ends. -/
theorem fixedDigits_line (hds : ∀ c ∈ ds, isDigit c = true) (w : Nat) (rest : List Char) :
    Rfc3339.fixedDigits w (ds ++ '\n' :: rest) = none ∨
      ∃ n d r, Rfc3339.fixedDigits w (ds ++ '\n' :: rest) = some (n, d :: r) ∧
        (isDigit d = true ∨ d = '\n') := by
  rw [Rfc3339.fixedDigits]
  split
  · exact .inl rfl
  · by_cases hw : w ≤ ds.length
    · rw [List.take_append_of_le_length hw, List.drop_append_of_le_length hw]
      cases hn : ofDigits? 10 (ds.take w) with
      | none => exact .inl rfl
      | some n =>
          cases hr : ds.drop w with
          | nil => exact .inr ⟨n, '\n', rest, rfl, .inr rfl⟩
          | cons d r =>
              have hd : d ∈ ds := List.mem_of_mem_drop (hr ▸ List.mem_cons_self ..)
              exact .inr ⟨n, d, r ++ '\n' :: rest, rfl, .inl (hds d hd)⟩
    -- Too few digits: the end of the line is among the characters looked at.
    · have hmem : '\n' ∈ (ds ++ '\n' :: rest).take w := by
        rw [List.take_append]
        obtain ⟨k, hk⟩ : ∃ k, w - ds.length = k + 1 := ⟨w - ds.length - 1, by omega⟩
        rw [hk]
        simp
      rw [ofDigits?_eq_none hmem (by decide)]
      exact .inl rfl

theorem fixedDigits_sign {w : Nat} (hw : 0 < w) (cs : List Char) :
    Rfc3339.fixedDigits w ('-' :: cs) = none := by
  obtain ⟨k, rfl⟩ : ∃ k, w = k + 1 := ⟨w - 1, by omega⟩
  have hmem : '-' ∈ ('-' :: cs).take (k + 1) := by simp
  rw [Rfc3339.fixedDigits]
  split
  · rfl
  · rw [ofDigits?_eq_none hmem (by decide)]
    rfl

theorem literal_eq_none {c d : Char} (h : c ≠ d) (r : List Char) :
    Rfc3339.literal c (d :: r) = none := by
  simp [Rfc3339.literal, h]

theorem not_separator {d : Char} (hd : isDigit d = true ∨ d = '\n') : '-' ≠ d ∧ ':' ≠ d := by
  rcases hd with hd | rfl
  · exact forall_isDigit (P := fun d => '-' ≠ d ∧ ':' ≠ d) (by decide) hd
  · decide

theorem read_digits (secondsOptional : Bool) (hds : ∀ c ∈ ds, isDigit c = true)
    (rest : List Char) : Datetime.read secondsOptional (ds ++ '\n' :: rest) = none := by
  have hdate : readDate (ds ++ '\n' :: rest) = none := by
    rcases fixedDigits_line hds 4 rest with h | ⟨n, d, r, h, hd⟩
    · simp [readDate, Rfc3339.date, h]
    · simp [readDate, Rfc3339.date, h, literal_eq_none (not_separator hd).1]
  have htime : readTime secondsOptional (ds ++ '\n' :: rest) = none := by
    rcases fixedDigits_line hds 2 rest with h | ⟨n, d, r, h, hd⟩
    · simp [readTime, h]
    · simp [readTime, h, literal_eq_none (not_separator hd).2]
  rw [Datetime.read, hdate, htime]
  rfl

theorem read_sign (secondsOptional : Bool) (cs : List Char) :
    Datetime.read secondsOptional ('-' :: cs) = none := by
  have hdate : readDate ('-' :: cs) = none := by
    simp [readDate, Rfc3339.date, fixedDigits_sign]
  have htime : readTime secondsOptional ('-' :: cs) = none := by
    simp [readTime, fixedDigits_sign]
  rw [Datetime.read, hdate, htime]
  rfl

/-! ## Digits -/

theorem groupedDigits?_digits (hds : ∀ c ∈ ds, isDigit c = true) (hne : ds ≠ []) :
    groupedDigits? 10 ds = some ds := by
  induction ds with
  | nil => exact absurd rfl hne
  | cons c cs ih =>
      obtain ⟨hc, hcs⟩ := List.forall_mem_cons.mp hds
      have hvalue : (digitValue? 10 c).isNone = false :=
        forall_isDigit (P := fun c => (digitValue? 10 c).isNone = false) (by decide) hc
      cases cs with
      | nil => simp [groupedDigits?, hvalue]
      | cons d ds =>
          have hd : d ≠ '_' :=
            forall_isDigit (P := fun d => d ≠ '_') (by decide) (hcs d (List.mem_cons_self ..))
          rw [groupedDigits?.eq_def]
          simp [hvalue, hd, ih hcs (List.cons_ne_nil _ _)]

theorem decimalDigits?_digits (n : Nat) : decimalDigits? (digits n) = some (digits n) := by
  have hgroups := groupedDigits?_digits (fun _ => isDigit_of_mem_digits (n := n)) (digits_ne_nil n)
  by_cases hn : n = 0
  · have hzero : digits 0 = ['0'] := by
      rw [digits]
      rfl
    rw [hn, hzero] at hgroups ⊢
    simp [decimalDigits?, hgroups]
  · simp [decimalDigits?, hgroups, digits_head_ne_zero hn]

end Digits

/-! ## Integers -/

theorem splitSign_digits (n : Nat) : splitSign (digits n) = (false, digits n) := by
  have hall : ∀ c ∈ digits n, isDigit c = true := fun _ => isDigit_of_mem_digits
  unfold splitSign
  split
  · rename_i h
    exact absurd (hall '-' (by simp [h])) (by decide)
  · rename_i h
    exact absurd (hall '+' (by simp [h])) (by decide)
  · rfl

theorem integer?_digits (n : Nat) : integer? (digits n) = inInt64 n := by
  have hall : ∀ c ∈ digits n, isDigit c = true := fun _ => isDigit_of_mem_digits
  unfold integer?
  split
  · rename_i h
    exact absurd (hall 'x' (by simp [h])) (by decide)
  · rename_i h
    exact absurd (hall 'o' (by simp [h])) (by decide)
  · rename_i h
    exact absurd (hall 'b' (by simp [h])) (by decide)
  · rw [splitSign_digits]
    dsimp only
    rw [decimalDigits?_digits, Option.bind_eq_bind, Option.bind_some, ofDigits?_digits,
      Option.bind_eq_bind, Option.bind_some, if_neg Bool.false_ne_true]

theorem integer?_sign (n : Nat) : integer? ('-' :: digits n) = inInt64 (-(n : Int)) := by
  simp [integer?, splitSign, decimalDigits?_digits, ofDigits?_digits]

theorem integer?_signedDecimal {n : Int} (h : fitsSigned n = true) :
    integer? (signedDecimal n).toList = some n := by
  rw [toList_signedDecimal]
  split
  · rename_i hn
    have habs : -(n.natAbs : Int) = n := by omega
    rw [List.singleton_append, integer?_sign, habs, inInt64, if_pos h]
  · rename_i hn
    have habs : (n.natAbs : Int) = n := by omega
    rw [List.nil_append, integer?_digits, habs, inInt64, if_pos h]

theorem isWordChar_of_isDigit {c : Char} (h : isDigit c = true) : isWordChar c = true :=
  forall_isDigit (P := fun c => isWordChar c = true) (by decide) h

theorem isWordChar_signedDecimal {n : Int} {c : Char} (h : c ∈ (signedDecimal n).toList) :
    isWordChar c = true := by
  rw [toList_signedDecimal] at h
  rcases List.mem_append.mp h with h | h
  · split at h
    · rw [List.mem_singleton.mp h]
      decide
    · cases h
  · exact isWordChar_of_isDigit (isDigit_of_mem_digits h)

/-- An integer is no boolean. -/
theorem word?_of_integer? {cs : List Char} {n : Int} (h : integer? cs = some n) :
    word? cs = some (.integer n) := by
  unfold word?
  split
  · rename_i htrue
    rw [htrue] at h
    cases h
  · split
    · rename_i hfalse
      rw [hfalse] at h
      cases h
    · rw [h]
      rfl

theorem read_signedDecimal (secondsOptional : Bool) (n : Int) (rest : List Char) :
    Datetime.read secondsOptional ((signedDecimal n).toList ++ '\n' :: rest) = none := by
  rw [toList_signedDecimal]
  split
  · exact read_sign secondsOptional _
  · exact read_digits secondsOptional (fun _ => isDigit_of_mem_digits) rest

/-- An integer of 64 bits is read back, at the end of a line. -/
theorem readWord_signedDecimal {dialect : Dialect} {n : Int} (h : fitsSigned n = true)
    (rest : List Char) :
    readWord dialect ((signedDecimal n).toList ++ '\n' :: rest) =
      some (.integer n, '\n' :: rest) := by
  have hchars : ∀ c ∈ (signedDecimal n).toList, isWordChar c = true :=
    fun _ => isWordChar_signedDecimal
  rw [readWord, read_signedDecimal]
  dsimp only
  rw [takeWhile_append_stop hchars (by decide), dropWhile_append_stop hchars (by decide),
    word?_of_integer? (integer?_signedDecimal h)]
  rfl

end ReverseProxy.Toml
