import Mathlib.Algebra.Ring.Nat
import ReverseProxy.Time.Calendar

/-!
# Days and dates

The date of a day is a date of the calendar, and it is that many days from 1970-01-01. Both follow
from the way a day lies within its cycles: a cycle is one day longer than its parts are together
only in its last part.
-/

namespace ReverseProxy.Time.Date

/-- The date that is `i` days after 1 March of a year. -/
def inMarchYear (year : Int) (i : Nat) : Date :=
  let m := (5 * i + 2) / 153
  { year := if m < 10 then year else year + 1
    month := if m < 10 then m + 3 else m - 9
    day := i - daysBeforeMonth m + 1 }

/-- How a day lies within the cycles of 400, 100 and 4 years, its year and the days of it. -/
structure Cycles where
  era : Int
  centuries : Nat
  leaps : Nat
  years : Nat
  days : Nat

namespace Cycles

def year (c : Cycles) : Int :=
  c.era * 400 + (c.centuries * 100 + c.leaps * 4 + c.years : Nat)

/-- Days since 0000-03-01. -/
def total (c : Cycles) : Int :=
  c.era * 146097 + (c.centuries * 36524 + c.leaps * 1461 + c.years * 365 + c.days : Nat)

/-- The parts of each cycle. A year has a 366th day only if it is the last of its four, and these
are not the last four of their century unless that is the last of its era. -/
structure Fits (c : Cycles) : Prop where
  centuries : c.centuries ≤ 3
  leaps : c.leaps ≤ 24
  years : c.years ≤ 3
  days : c.days ≤ 365
  leapDay : c.days = 365 → c.years = 3 ∧ (c.leaps = 24 → c.centuries = 3)

end Cycles

theorem ofDays_cycles (n : Int) :
    ∃ c : Cycles, c.Fits ∧ c.total = n + epochDays ∧ ofDays n = inMarchYear c.year c.days := by
  have hdiv := Int.ediv_mul_add_emod (n + epochDays) 146097
  have hpos := Int.emod_nonneg (n + epochDays) (b := 146097) (by decide)
  have hlt := Int.emod_lt_of_pos (n + epochDays) (b := 146097) (by decide)
  obtain ⟨r, hr⟩ := Int.eq_ofNat_of_zero_le hpos
  have hnat : ((n + epochDays) % 146097).toNat = r := by
    rw [hr]
    rfl
  -- The last century of an era and the last year of four are a day longer, hence the minima.
  refine ⟨⟨(n + epochDays) / 146097, min (r / 36524) 3, (r - min (r / 36524) 3 * 36524) / 1461,
    min ((r - min (r / 36524) 3 * 36524) % 1461 / 365) 3,
    (r - min (r / 36524) 3 * 36524) % 1461 -
      min ((r - min (r / 36524) 3 * 36524) % 1461 / 365) 3 * 365⟩, ?_, ?_, ?_⟩
  · constructor <;> dsimp only <;> omega
  · simp only [Cycles.total]
    omega
  · simp only [ofDays, inMarchYear, Cycles.year, hnat]

/-! ## Back to days -/

theorem daysBeforeMonth_le (i : Nat) : daysBeforeMonth ((5 * i + 2) / 153) ≤ i := by
  simp only [daysBeforeMonth]
  omega

theorem isLeapYear_succ {c : Cycles} (h : c.Fits) (hdays : c.days = 365) :
    isLeapYear (c.year + 1) = true := by
  obtain ⟨hyears, hlast⟩ := h.leapDay hdays
  have hcenturies := h.centuries
  have hleaps := h.leaps
  have hfour : (c.year + 1) % 4 = 0 := by
    simp only [Cycles.year, hyears]
    omega
  have hhundred : (c.year + 1) % 100 ≠ 0 ∨ (c.year + 1) % 400 = 0 := by
    simp only [Cycles.year, hyears]
    by_cases hl : c.leaps = 24
    · have hc := hlast hl
      omega
    · omega
  simpa [isLeapYear, hfour] using hhundred

/-- From March to January every month is as long in each year. -/
theorem daysInMonth_fixed (y : Int) {m : Nat} (h : m < 11) :
    daysInMonth y (if m < 10 then m + 3 else m - 9) =
      daysBeforeMonth (m + 1) - daysBeforeMonth m := by
  have hm : m = 0 ∨ m = 1 ∨ m = 2 ∨ m = 3 ∨ m = 4 ∨ m = 5 ∨ m = 6 ∨ m = 7 ∨ m = 8 ∨ m = 9 ∨
      m = 10 := by
    omega
  rcases hm with rfl | rfl | rfl | rfl | rfl | rfl | rfl | rfl | rfl | rfl | rfl <;> rfl

theorem february_le (y : Int) : 28 ≤ daysInMonth y 2 := by
  cases h : isLeapYear y <;> simp [daysInMonth, h]

/-- Within a year that begins in March only the last day can be a leap day. -/
theorem inMarchYear_isValid {y : Int} {i : Nat} (hi : i ≤ 365)
    (hleap : i = 365 → isLeapYear (y + 1) = true) : (inMarchYear y i).isValid = true := by
  obtain ⟨m, hm⟩ : ∃ m, (5 * i + 2) / 153 = m := ⟨_, rfl⟩
  have hday : i + 1 ≤ daysBeforeMonth (m + 1) := by
    simp only [daysBeforeMonth]
    omega
  have hmonth := daysBeforeMonth_le i
  rw [hm] at hmonth
  simp only [isValid, inMarchYear, hm, Bool.and_eq_true, decide_eq_true_eq]
  refine ⟨by omega, ?_⟩
  by_cases hfixed : m < 11
  · rw [daysInMonth_fixed _ hfixed]
    omega
  · have hfebruary : m = 11 := by omega
    subst hfebruary
    have hstart : daysBeforeMonth 11 = 337 := rfl
    by_cases hlast : i = 365
    · have hlength : daysInMonth (y + 1) 2 = 29 := by simp [daysInMonth, hleap hlast]
      simp only [Nat.reduceLT, if_false, Nat.reduceSub, hlength, hstart]
      omega
    · have hlength := february_le (y + 1)
      simp only [Nat.reduceLT, if_false, Nat.reduceSub, hstart]
      omega

/-- The date of a day is a date of the calendar. -/
theorem isValid_ofDays (n : Int) : (ofDays n).isValid = true := by
  obtain ⟨c, hfits, -, hdate⟩ := ofDays_cycles n
  rw [hdate]
  exact inMarchYear_isValid hfits.days (isLeapYear_succ hfits)

/-! ## Days counted by years and months -/

theorem isLeapYear_iff (y : Int) :
    isLeapYear y = true ↔ y % 4 = 0 ∧ (y % 100 ≠ 0 ∨ y % 400 = 0) := by
  simp [isLeapYear]

/-- Days from 0000-01-01 to the first day of a year. -/
def daysBeforeYear (y : Int) : Int := 365 * y + (y + 3) / 4 - (y + 99) / 100 + (y + 399) / 400

/-- Days from 1970-01-01 to a date: those of the years before, those of the months before and those
of its own month before it. -/
def daysSince1970 (d : Date) : Int :=
  daysBeforeYear d.year - daysBeforeYear 1970 +
    ((List.range' 1 (d.month - 1)).map (daysInMonth d.year)).sum + (d.day - 1)

/-- The months from March on are as long in each year. -/
theorem sum_daysInMonth (y : Int) {m : Nat} (h : m < 10) :
    ((List.range' 1 (m + 2)).map (daysInMonth y)).sum =
      31 + daysInMonth y 2 + daysBeforeMonth m := by
  induction m with
  | zero => simp [List.range', daysInMonth, daysBeforeMonth]
  | succ m ih =>
      have hmonth := daysInMonth_fixed y (m := m) (by omega)
      have hle : daysBeforeMonth m ≤ daysBeforeMonth (m + 1) := by
        simp only [daysBeforeMonth]
        omega
      have hnext : 1 + 1 * (m + 2) = m + 3 := by omega
      rw [if_pos (by omega)] at hmonth
      rw [List.range'_concat, List.map_append, List.sum_append, ih (by omega), hnext]
      simp only [List.map_cons, List.map_nil, List.sum_cons, List.sum_nil, hmonth]
      omega

/-- The count from March on is the count by years and months. -/
theorem toDays_eq {d : Date} (h : 1 ≤ d.month ∧ d.month ≤ 12) : d.toDays = d.daysSince1970 := by
  obtain ⟨y, m, day⟩ := d
  dsimp only at h
  simp only [toDays, daysSince1970, daysBeforeYear, epochDays]
  by_cases hm : m ≤ 2
  · obtain rfl | rfl : m = 1 ∨ m = 2 := by omega
    · simp [daysBeforeMonth]
      omega
    · simp [daysBeforeMonth, daysInMonth]
      omega
  · obtain ⟨k, rfl⟩ : ∃ k, m = k + 3 := ⟨m - 3, by omega⟩
    have hsum := sum_daysInMonth y (m := k) (by omega)
    have hleap := isLeapYear_iff y
    have hfebruary : daysInMonth y 2 = if isLeapYear y then 29 else 28 := rfl
    simp only [if_neg hm, Nat.add_sub_cancel, show k + 3 - 1 = k + 2 from rfl, hsum, hfebruary]
    split
    · rename_i hy
      have hyear := hleap.mp hy
      omega
    · rename_i hy
      have hyear := mt hleap.mpr hy
      omega

end ReverseProxy.Time.Date
