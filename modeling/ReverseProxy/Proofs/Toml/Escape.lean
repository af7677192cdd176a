import ReverseProxy.Proofs.Text.Decimal
import ReverseProxy.Toml.Quoted

/-!
# Strings as they are written

In a basic string each character stands for itself or has an escape that is read as the character. In
a string over several lines at most two quotes stand in a row, so that only the closing ones end it.
-/

namespace ReverseProxy.Toml

open ReverseProxy.Text

/-! ## Characters -/

theorem le_iff_toNat_le {c d : Char} : c ≤ d ↔ c.toNat ≤ d.toNat := by
  rw [Char.le_def, UInt32.le_iff_toNat_le]
  rfl

theorem isPlain_of_not_control {c : Char} (hlow : ¬ c ≤ '\x1f') (hdel : c ≠ '\x7f') :
    isPlain c = true := by
  have hspace : ' ' ≤ c := by
    rw [le_iff_toNat_le] at *
    have h31 : '\x1f'.toNat = 31 := rfl
    have h32 : ' '.toNat = 32 := rfl
    omega
  simp [isPlain, hspace, hdel]

/-! ## Escapes -/

theorem scalar?_toNat (c : Char) : scalar? c.toNat = some c := by
  have h : c.toNat.isValidChar := c.valid
  rw [scalar?, dif_pos h]
  congr 1

theorem readHex_hexPadded {n w : Nat} {c : Char} (hw : 0 < w) (hc : c.toNat = n)
    (hn : n < 16 ^ w) (r : List Char) : readHex w (hexPadded w n ++ r) = some (c, r) := by
  have hlength := length_hexPadded w n
  have hshort : ¬ (hexPadded w n ++ r).length < w := by
    simp only [List.length_append, hlength]
    omega
  rw [readHex, if_neg hshort, List.take_left' hlength, List.drop_left' hlength,
    ofDigits?_hexPadded hw hn, ← hc]
  simp [scalar?_toNat]

/-- What a character is written as, outside of runs of quotes and of newlines that may stand. -/
def escaped (c : Char) : List Char :=
  if c = '\x08' then ['\\', 'b']
  else if c = '\t' then ['\\', 't']
  else if c = '\n' then ['\\', 'n']
  else if c = '\x0c' then ['\\', 'f']
  else if c = '\r' then ['\\', 'r']
  else if c = '\\' then ['\\', '\\']
  else if c ≤ '\x1f' || c = '\x7f' then '\\' :: 'u' :: hexPadded 4 c.toNat
  else [c]

/-- A character stands for itself or has an escape. -/
theorem escaped_cases (c : Char) :
    (∃ e, escaped c = '\\' :: e ∧
        ∀ dialect r, readEscape dialect (e ++ r) = some (c, r)) ∨
      (escaped c = [c] ∧ isPlain c = true ∧ c ≠ '\\') := by
  unfold escaped
  split
  · exact .inl ⟨_, rfl, fun dialect r => by simp [readEscape, *]⟩
  split
  · exact .inl ⟨_, rfl, fun dialect r => by simp [readEscape, *]⟩
  split
  · exact .inl ⟨_, rfl, fun dialect r => by simp [readEscape, *]⟩
  split
  · exact .inl ⟨_, rfl, fun dialect r => by simp [readEscape, *]⟩
  split
  · exact .inl ⟨_, rfl, fun dialect r => by simp [readEscape, *]⟩
  split
  · exact .inl ⟨_, rfl, fun dialect r => by simp [readEscape, *]⟩
  split
  · rename_i hcode
    have hsmall : c.toNat < 16 ^ 4 := by
      simp only [Bool.or_eq_true, decide_eq_true_eq] at hcode
      rcases hcode with hlow | rfl
      · have hle := le_iff_toNat_le.mp hlow
        have h31 : '\x1f'.toNat = 31 := rfl
        omega
      · decide
    exact .inl ⟨_, rfl, fun dialect r => by
      simpa [readEscape] using readHex_hexPadded (by decide) rfl hsmall r⟩
  · rename_i hback hcode
    simp only [Bool.or_eq_true, decide_eq_true_eq, not_or] at hcode
    exact .inr ⟨rfl, isPlain_of_not_control hcode.1 hcode.2, hback⟩

/-- How the body of a basic string begins. -/
theorem escapeFrom_cons (lines : Bool) (run : Nat) (c : Char) (cs : List Char) :
    (c = '"' ∧ run < 2 ∧ lines = true ∧
        escapeFrom lines run (c :: cs) = c :: escapeFrom lines (run + 1) cs) ∨
      (c = '\n' ∧ lines = true ∧ escapeFrom lines run (c :: cs) = c :: escapeFrom lines 0 cs) ∨
      (∃ e, escapeFrom lines run (c :: cs) = '\\' :: (e ++ escapeFrom lines 0 cs) ∧
        ∀ dialect r, readEscape dialect (e ++ r) = some (c, r)) ∨
      (isPlain c = true ∧ c ≠ '\\' ∧ c ≠ '"' ∧
        escapeFrom lines run (c :: cs) = c :: escapeFrom lines 0 cs) := by
  by_cases hquote : c = '"'
  · by_cases hrun : run < (if lines then 2 else 0)
    · cases lines with
      | true => exact .inl ⟨hquote, hrun, rfl, by rw [escapeFrom, if_pos hquote, if_pos hrun]⟩
      | false => cases hrun
    · refine .inr (.inr (.inl ⟨['"'], ?_, fun dialect r => by rw [hquote]; rfl⟩))
      rw [escapeFrom, if_pos hquote, if_neg hrun]
      rfl
  · by_cases hline : c = '\n' && lines
    · have hboth := hline
      simp only [Bool.and_eq_true, decide_eq_true_eq] at hboth
      exact .inr (.inl ⟨hboth.1, hboth.2, by rw [escapeFrom, if_neg hquote, if_pos hline]⟩)
    · have hpiece : escapeFrom lines run (c :: cs) = escaped c ++ escapeFrom lines 0 cs := by
        rw [escapeFrom, if_neg hquote, if_neg hline]
        rfl
      rcases escaped_cases c with ⟨e, he, hread⟩ | ⟨he, hplain, hback⟩
      · exact .inr (.inr (.inl ⟨e, by rw [hpiece, he]; rfl, hread⟩))
      · exact .inr (.inr (.inr ⟨hplain, hback, hquote, by rw [hpiece, he]; rfl⟩))

/-! ## Runs of quotes -/

/-- At most `limit` of `q` stand in a row, if `run` of them stand before. -/
def runsWithin (q : Char) (limit run : Nat) : List Char → Prop
  | [] => True
  | c :: cs =>
    if c = q then run < limit ∧ runsWithin q limit (run + 1) cs else runsWithin q limit 0 cs

section Runs

variable {q : Char} {limit : Nat}

def longer (q : Char) (acc : Nat × Nat) (c : Char) : Nat × Nat :=
  if c = q then (max acc.1 (acc.2 + 1), acc.2 + 1) else (acc.1, 0)

theorem le_foldl_longer (cs : List Char) (acc : Nat × Nat) :
    acc.1 ≤ (cs.foldl (longer q) acc).1 := by
  induction cs generalizing acc with
  | nil => exact Nat.le_refl _
  | cons c cs ih =>
      refine Nat.le_trans ?_ (ih (longer q acc c))
      unfold longer
      split
      · exact Nat.le_max_left _ _
      · exact Nat.le_refl _

theorem runsWithin_of_foldl {cs : List Char} {acc : Nat × Nat}
    (h : (cs.foldl (longer q) acc).1 ≤ limit) : runsWithin q limit acc.2 cs := by
  induction cs generalizing acc with
  | nil => trivial
  | cons c cs ih =>
      have hrest := ih h
      -- The longest run so far only grows, so the bound at the end holds here already.
      have hstep := Nat.le_trans (le_foldl_longer cs (longer q acc c)) h
      unfold runsWithin
      unfold longer at hrest hstep
      split
      · rename_i hc
        simp only [hc, if_true] at hrest hstep
        exact ⟨by omega, hrest⟩
      · rename_i hc
        simpa [hc] using hrest

theorem runsWithin_of_longestRun {cs : List Char} (h : longestRun q cs ≤ limit) :
    runsWithin q limit 0 cs := by
  have hfold : (cs.foldl (longer q) (0, 0)).1 ≤ limit := h
  exact runsWithin_of_foldl hfold

theorem ne_of_runsWithin_zero {cs : List Char} {run : Nat} (h : runsWithin q 0 run cs) :
    ∀ c ∈ cs, c ≠ q := by
  induction cs generalizing run with
  | nil => simp
  | cons c cs ih =>
      unfold runsWithin at h
      split at h
      · exact absurd h.1 (Nat.not_lt_zero _)
      · rename_i hc
        intro d hd
        rcases List.mem_cons.mp hd with rfl | hd
        · exact hc
        · exact ih h d hd

/-- At most so many of `q` lead, or there is nothing else. -/
def leadsWithin (q : Char) (limit : Nat) (cs : List Char) : Prop :=
  ∃ k ≤ limit, cs = List.replicate k q ∨ ∃ d r, d ≠ q ∧ cs = List.replicate k q ++ d :: r

theorem leadsWithin_nil : leadsWithin q limit [] := ⟨0, Nat.zero_le _, .inl rfl⟩

theorem leadsWithin_ne {c : Char} (h : c ≠ q) (cs : List Char) : leadsWithin q limit (c :: cs) :=
  ⟨0, Nat.zero_le _, .inr ⟨c, cs, h, rfl⟩⟩

theorem leadsWithin_cons {cs : List Char} (h : leadsWithin q limit cs) :
    leadsWithin q (limit + 1) (q :: cs) := by
  obtain ⟨k, hk, rfl | ⟨d, r, hd, rfl⟩⟩ := h
  · exact ⟨k + 1, by omega, .inl rfl⟩
  · exact ⟨k + 1, by omega, .inr ⟨d, r, hd, rfl⟩⟩

theorem leadsWithin_of_runsWithin {cs : List Char} {run : Nat} (h : runsWithin q limit run cs) :
    leadsWithin q (limit - run) cs := by
  induction cs generalizing run with
  | nil => exact leadsWithin_nil
  | cons c cs ih =>
      unfold runsWithin at h
      split at h
      · rename_i hc
        obtain ⟨hrun, hrest⟩ := h
        have hlimit : limit - run = limit - (run + 1) + 1 := by omega
        rw [hlimit, hc]
        exact leadsWithin_cons (ih hrest)
      · rename_i hc
        exact leadsWithin_ne hc cs

theorem leadsWithin_escapeFrom (run : Nat) (s : List Char) :
    leadsWithin '"' (2 - run) (escapeFrom true run s) := by
  induction s generalizing run with
  | nil => exact leadsWithin_nil
  | cons c cs ih =>
      rcases escapeFrom_cons true run c cs with ⟨hc, hrun, -, he⟩ | ⟨hc, -, he⟩ |
        ⟨e, he, -⟩ | ⟨-, -, hc, he⟩
      · have hlimit : 2 - run = 2 - (run + 1) + 1 := by omega
        rw [he, hlimit, hc]
        exact leadsWithin_cons (ih (run + 1))
      · rw [he, hc]
        exact leadsWithin_ne (by decide) _
      · rw [he]
        exact leadsWithin_ne (by decide) _
      · rw [he]
        exact leadsWithin_ne hc _

theorem cons_eq_replicate {d : Char} {r : List Char} {k : Nat}
    (h : d :: r = List.replicate k q) : d = q ∧ ∃ j, k = j + 1 ∧ r = List.replicate j q := by
  cases k with
  | zero => cases h
  | succ j => exact ⟨(List.cons.inj h).1, j, rfl, (List.cons.inj h).2⟩

theorem eq_replicate_of_escapeFrom {s : List Char} {run k : Nat}
    (h : escapeFrom true run s = List.replicate k '"') : s = List.replicate k '"' := by
  induction s generalizing run k with
  | nil => exact h
  | cons c cs ih =>
      rcases escapeFrom_cons true run c cs with ⟨hc, -, -, he⟩ | ⟨hc, -, he⟩ |
        ⟨e, he, -⟩ | ⟨-, -, hc, he⟩
      · rw [he] at h
        obtain ⟨-, j, rfl, hrest⟩ := cons_eq_replicate h
        rw [hc, ih hrest, List.replicate_succ]
      · rw [he, hc] at h
        exact absurd (cons_eq_replicate h).1 (by decide)
      · rw [he] at h
        exact absurd (cons_eq_replicate h).1 (by decide)
      · rw [he] at h
        exact absurd (cons_eq_replicate h).1 hc

end Runs

end ReverseProxy.Toml
