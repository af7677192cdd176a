import Mathlib.Data.List.TakeWhile
import ReverseProxy.Text.Blank

/-!
# Words in text

What a word in a list is up to its letter case and the blanks around it (`SameWord`). Among visible
ASCII characters, spaces and tabs this is what trimming and comparison of letters decide.
-/

namespace ReverseProxy.Text

/-- A text with spaces and tabs around a word. -/
def Pads (w cs : List Char) : Prop :=
  ∃ before after, cs = before ++ w ++ after ∧ ∀ c ∈ before ++ after, c = ' ' ∨ c = '\t'

/-- Two texts that differ only in letter case, and in spaces and tabs around them. -/
def SameWord (cs ds : List Char) : Prop :=
  ∃ v w, Pads v cs ∧ Pads w ds ∧ v.map Char.toLower = w.map Char.toLower

/-- Visible ASCII characters, spaces and tabs. -/
def IsVisible (c : Char) : Prop := (' ' ≤ c ∧ c ≤ '~') ∨ c = '\t'

instance (c : Char) : Decidable (IsVisible c) :=
  inferInstanceAs (Decidable ((' ' ≤ c ∧ c ≤ '~') ∨ c = '\t'))

theorem visible_of_all {cs : List Char} (h : cs.all (IsVisible ·) = true) :
    ∀ c ∈ cs, IsVisible c := fun c hc => of_decide_eq_true (List.all_eq_true.mp h c hc)

/-! ## Pieces -/

theorem drop_length_takeWhile {α : Type} (p : α → Bool) (l : List α) :
    l.drop (l.takeWhile p).length = l.dropWhile p :=
  calc l.drop (l.takeWhile p).length
    _ = (l.takeWhile p ++ l.dropWhile p).drop (l.takeWhile p).length := by
      rw [List.takeWhile_append_dropWhile]
    _ = l.dropWhile p := List.drop_left

theorem splitAtChar_eq_splitOn (sep : Char) (cs : List Char) :
    splitAtChar sep cs = cs.splitOn sep := by
  induction cs with
  | nil => simp [splitAtChar]
  | cons c cs ih =>
      rw [splitAtChar, ih, List.splitOn_cons_eq_if_modifyHead]
      cases hs : cs.splitOn sep with
      | nil => exact absurd hs (List.splitOn_ne_nil _ _)
      | cons p ps => simp

theorem mem_of_mem_splitOn {sep c : Char} {cs e : List Char} (he : e ∈ cs.splitOn sep)
    (hc : c ∈ e) : c ∈ cs := by
  induction cs generalizing e with
  | nil => simp_all
  | cons d cs ih =>
      rw [List.splitOn_cons_eq_if_modifyHead] at he
      split at he
      · rcases List.mem_cons.mp he with rfl | he
        · cases hc
        · exact .tail _ (ih he hc)
      · cases hs : cs.splitOn sep with
        | nil => exact absurd hs (List.splitOn_ne_nil _ _)
        | cons p ps =>
            rw [hs, List.modifyHead_cons] at he
            rw [hs] at ih
            rcases List.mem_cons.mp he with rfl | he
            · rcases List.mem_cons.mp hc with rfl | hc
              · exact List.mem_cons_self
              · exact .tail _ (ih List.mem_cons_self hc)
            · exact .tail _ (ih (.tail _ he) hc)

/-! ## Letter case -/

/-- What holds of the letters `A` to `Z` and their small ones, and of every other character and
itself, holds of every character and the one in lower case. -/
theorem toLower_cases {P : Char → Char → Prop}
    (upper : ∀ i < 26, P (Char.ofNat (65 + i)) (Char.ofNat (65 + i)).toLower)
    (other : ∀ c, P c c) (c : Char) : P c c.toLower := by
  by_cases hc : c.val ≥ 'A'.val ∧ c.val ≤ 'Z'.val
  · -- A capital is given by its number among the letters, so that only 26 cases are left.
    obtain ⟨hlow, hhigh⟩ := hc
    have hlow : 65 ≤ c.toNat := hlow
    have hhigh : c.toNat ≤ 90 := hhigh
    have hletter : Char.ofNat (65 + (c.toNat - 65)) = c := by
      rw [show 65 + (c.toNat - 65) = c.toNat by omega, Char.ofNat_toNat]
    rw [← hletter]
    exact upper _ (by omega)
  · have hsame : c.toLower = c := dif_neg hc
    rw [hsame]
    exact other c

theorem isBlank_toLower (c : Char) : isBlank c.toLower = isBlank c :=
  toLower_cases (P := fun c d => isBlank d = isBlank c) (by decide) (fun _ => rfl) c

/-! ## Trimming -/

theorem isBlank_of_pad {c : Char} (h : c = ' ' ∨ c = '\t') : isBlank c = true := by
  rcases h with rfl | rfl <;> decide

theorem isBlank_iff {c : Char} (h : IsVisible c) : isBlank c = true ↔ c = ' ' ∨ c = '\t' := by
  refine ⟨fun hb => ?_, isBlank_of_pad⟩
  rcases h with ⟨hlow, hhigh⟩ | rfl
  · have hlow : 32 ≤ c.toNat := hlow
    have hhigh : c.toNat ≤ 126 := hhigh
    have hspace : c.toNat = 32 := by
      simp only [isBlank, Bool.or_eq_true, Bool.and_eq_true, decide_eq_true_eq] at hb
      omega
    left
    rw [← Char.ofNat_toNat c, hspace]
  · exact .inr rfl

theorem trim_map_toLower (cs : List Char) :
    trim (cs.map Char.toLower) = (trim cs).map Char.toLower := by
  have h : isBlank ∘ Char.toLower = isBlank := funext isBlank_toLower
  simp only [trim, List.dropWhile_map, ← List.map_reverse, h]

theorem trim_of_not_blank {cs : List Char} (h : ∀ c ∈ cs, isBlank c = false) : trim cs = cs := by
  have hdrop : ∀ ds : List Char, (∀ c ∈ ds, isBlank c = false) → ds.dropWhile isBlank = ds := by
    intro ds hds
    cases ds with
    | nil => rfl
    | cons d ds => rw [List.dropWhile_cons_of_neg (by simp [hds d])]
  rw [trim, hdrop cs h, hdrop cs.reverse fun c hc => h c (List.mem_reverse.mp hc),
    List.reverse_reverse]

theorem trim_append_blank {cs after : List Char} (h : ∀ c ∈ after, isBlank c = true) :
    trim (cs ++ after) = trim cs := by
  have hafter : after.dropWhile isBlank = [] := List.dropWhile_eq_nil_iff.mpr h
  rw [trim, trim, List.dropWhile_append]
  split
  · rename_i hcs
    rw [hafter, List.isEmpty_iff.mp hcs]
  · rw [List.reverse_append, List.dropWhile_append_of_pos (by simpa using h)]

/-- Trimming takes nothing but blanks away. -/
theorem mem_trim_or_isBlank {c : Char} {cs : List Char} (hc : c ∈ cs) :
    c ∈ trim cs ∨ isBlank c = true := by
  have hdrop : ∀ {ds : List Char}, c ∈ ds → c ∈ ds.dropWhile isBlank ∨ isBlank c = true := by
    intro ds hds
    rw [← List.takeWhile_append_dropWhile (p := isBlank) (l := ds)] at hds
    exact (List.mem_append.mp hds).symm.imp_right List.mem_takeWhile_imp
  rcases hdrop hc with hc | hblank
  · refine (hdrop (List.mem_reverse.mpr hc)).imp_left fun hmem => ?_
    exact List.mem_reverse.mpr hmem
  · exact .inr hblank

theorem Pads.trim_eq {w cs : List Char} (h : Pads w cs) : trim cs = trim w := by
  obtain ⟨before, after, rfl, hpad⟩ := h
  obtain ⟨hbefore, hafter⟩ := List.forall_mem_append.mp hpad
  rw [trim_append_blank fun c hc => isBlank_of_pad (hafter c hc), trim,
    List.dropWhile_append_of_pos fun c hc => isBlank_of_pad (hbefore c hc), trim]

theorem pads_trim {cs : List Char} (h : ∀ c ∈ cs, IsVisible c) : Pads (trim cs) cs := by
  let rest := cs.dropWhile isBlank
  refine ⟨cs.takeWhile isBlank, (rest.reverse.takeWhile isBlank).reverse, ?_, fun c hc => ?_⟩
  · rw [List.append_assoc, trim, ← List.reverse_append, List.takeWhile_append_dropWhile,
      List.reverse_reverse, List.takeWhile_append_dropWhile]
  · rcases List.mem_append.mp hc with hc | hc
    · have hmem := (List.takeWhile_sublist isBlank).mem hc
      exact (isBlank_iff (h c hmem)).mp (List.mem_takeWhile_imp hc)
    · have hc := List.mem_reverse.mp hc
      have hmem : c ∈ rest := List.mem_reverse.mp ((List.takeWhile_sublist isBlank).mem hc)
      have hmem := (List.dropWhile_sublist isBlank).mem hmem
      exact (isBlank_iff (h c hmem)).mp (List.mem_takeWhile_imp hc)

/-- Among visible characters, blanks and letter case are what trimming and lowering take away. -/
theorem sameWord_iff {cs ds : List Char} (hcs : ∀ c ∈ cs, IsVisible c)
    (hds : ∀ c ∈ ds, IsVisible c) :
    SameWord cs ds ↔ sameLetters (trim cs) (trim ds) = true := by
  rw [sameLetters, beq_iff_eq]
  constructor
  · rintro ⟨v, w, hv, hw, hvw⟩
    rw [hv.trim_eq, hw.trim_eq, ← trim_map_toLower, ← trim_map_toLower, hvw]
  · intro h
    exact ⟨trim cs, trim ds, pads_trim hcs, pads_trim hds, h⟩

theorem sameWord_congr {cs ds word : List Char} (h : SameWord cs ds)
    (hcs : ∀ c ∈ cs, IsVisible c) (hds : ∀ c ∈ ds, IsVisible c) (hword : ∀ c ∈ word, IsVisible c) :
    SameWord cs word ↔ SameWord ds word := by
  have hsame : (trim cs).map Char.toLower = (trim ds).map Char.toLower :=
    beq_iff_eq.mp ((sameWord_iff hcs hds).mp h)
  rw [sameWord_iff hcs hword, sameWord_iff hds hword, sameLetters, sameLetters, hsame]

end ReverseProxy.Text
