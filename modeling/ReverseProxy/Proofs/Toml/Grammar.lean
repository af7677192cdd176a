import Mathlib.Tactic.Ring
import ReverseProxy.Proofs.Toml.Datetime

/-!
# Date-times as the grammar spells them

A date-time literal is a date of the calendar in eight digits, a time in six with any number of digits
after the point, and an offset; one of them or two may be missing. What such a text denotes is told
here by its digits alone. It is read as that, and its value prints as a text of the same kind.
-/

namespace ReverseProxy.Toml

open ReverseProxy.Time ReverseProxy.Text

/-- The number that some digits spell. -/
def valueOf (ds : List Char) : Nat := ds.foldl (fun n c => n * 10 + (c.toNat - 48)) 0

/-- A date of the calendar whose year has four digits. -/
structure DateLiteral where
  date : Date
  isValid : date.isValid = true
  year : 0 ≤ date.year ∧ date.year ≤ 9999

/-- A time of day. The digits of its fraction stand after a point, which is missing if they are. -/
structure TimeLiteral where
  hour : Nat
  minute : Nat
  second : Nat
  fraction : List Char
  hour_le : hour ≤ 23
  minute_le : minute ≤ 59
  second_le : second ≤ 60
  digits : ∀ c ∈ fraction, isDigit c = true

/-- An offset: a letter for universal time, or hours and minutes ahead of it or behind it. -/
inductive ZoneLiteral
  | universal (letter : Char) (isLetter : letter = 'Z' ∨ letter = 'z')
  | ahead (hours minutes : Nat) (hours_le : hours ≤ 23) (minutes_le : minutes ≤ 59)
  | behind (hours minutes : Nat) (hours_le : hours ≤ 23) (minutes_le : minutes ≤ 59)

/-- A date-time with an offset. -/
structure OffsetLiteral where
  date : DateLiteral
  separator : Char
  isSeparator : separator = 'T' ∨ separator = 't' ∨ separator = ' '
  time : TimeLiteral
  zone : ZoneLiteral

/-- A date-time that lacks an offset, and a time or a date perhaps. -/
inductive LocalLiteral
  | datetime (date : DateLiteral) (separator : Char)
      (isSeparator : separator = 'T' ∨ separator = 't' ∨ separator = ' ') (time : TimeLiteral)
  | date (date : DateLiteral)
  | time (time : TimeLiteral)

/-! ## Texts -/

def DateLiteral.text (x : DateLiteral) : List Char :=
  padded 4 x.date.year.toNat ++ '-' :: padded 2 x.date.month ++ '-' :: padded 2 x.date.day

namespace TimeLiteral

variable (x : TimeLiteral)

def fractionText : List Char := if x.fraction = [] then [] else '.' :: x.fraction

def text : List Char :=
  padded 2 x.hour ++ ':' :: (padded 2 x.minute ++ ':' :: (padded 2 x.second ++ x.fractionText))

end TimeLiteral

def ZoneLiteral.text : ZoneLiteral → List Char
  | universal letter _ => [letter]
  | ahead hours minutes _ _ => '+' :: (padded 2 hours ++ ':' :: padded 2 minutes)
  | behind hours minutes _ _ => '-' :: (padded 2 hours ++ ':' :: padded 2 minutes)

def OffsetLiteral.text (x : OffsetLiteral) : List Char :=
  x.date.text ++ x.separator :: (x.time.text ++ x.zone.text)

def LocalLiteral.text : LocalLiteral → List Char
  | datetime d separator _ t => d.text ++ separator :: t.text
  | date d => d.text
  | time t => t.text

/-! ## What they denote -/

/-- Nanoseconds within the second; those parts of one that the digits spell are cut off. -/
def TimeLiteral.nanos (x : TimeLiteral) : Nat :=
  valueOf x.fraction * 1000000000 / 10 ^ x.fraction.length

/-- Minutes ahead of universal time. -/
def ZoneLiteral.minutes : ZoneLiteral → Int
  | universal _ _ => 0
  | ahead hours minutes _ _ => hours * 60 + minutes
  | behind hours minutes _ _ => -(hours * 60 + minutes)

namespace OffsetLiteral

variable (x : OffsetLiteral)

/-- Seconds since 1970-01-01 in universal time. A leap second is counted as the one before it. -/
def unixSeconds : Int :=
  x.date.date.daysSince1970 * 86400 + x.time.hour * 3600 + x.time.minute * 60 +
    min x.time.second 59 - x.zone.minutes * 60

/-- Nanoseconds since that second, a second or more in a leap second. -/
def unixNanos : Nat := x.time.nanos + if x.time.second = 60 then 1000000000 else 0

end OffsetLiteral

/-! ## Fractions -/

section Fractions

variable {ds : List Char}

theorem digitValue?_of_isDigit {c : Char} (hc : isDigit c = true) :
    digitValue? 10 c = some (c.toNat - 48) :=
  forall_isDigit (P := fun c => digitValue? 10 c = some (c.toNat - 48)) (by decide) hc

theorem ofDigitsFrom?_foldl (h : ∀ c ∈ ds, isDigit c = true) (acc : Nat) :
    ofDigitsFrom? 10 acc ds = some (ds.foldl (fun n c => n * 10 + (c.toNat - 48)) acc) := by
  induction ds generalizing acc with
  | nil => rfl
  | cons c ds ih =>
      obtain ⟨hc, hds⟩ := List.forall_mem_cons.mp h
      rw [ofDigitsFrom?, digitValue?_of_isDigit hc]
      exact ih hds _

theorem foldl_digits (ds : List Char) (acc : Nat) :
    ds.foldl (fun n c => n * 10 + (c.toNat - 48)) acc = acc * 10 ^ ds.length + valueOf ds := by
  induction ds generalizing acc with
  | nil => simp [valueOf]
  | cons c ds ih =>
      simp only [valueOf, List.foldl_cons, List.length_cons]
      rw [ih, ih (0 * 10 + _)]
      ring

theorem valueOf_append (ds es : List Char) :
    valueOf (ds ++ es) = valueOf ds * 10 ^ es.length + valueOf es := by
  rw [valueOf, List.foldl_append, foldl_digits es]
  rfl

theorem valueOf_lt (h : ∀ c ∈ ds, isDigit c = true) : valueOf ds < 10 ^ ds.length := by
  induction ds with
  | nil => simp [valueOf]
  | cons c ds ih =>
      obtain ⟨hc, hds⟩ := List.forall_mem_cons.mp h
      have hdigit : c.toNat - 48 < 10 :=
        forall_isDigit (P := fun c => c.toNat - 48 < 10) (by decide) hc
      have hrest := ih hds
      rw [← List.singleton_append, valueOf_append, List.length_append, Nat.pow_add]
      have hone : valueOf [c] = c.toNat - 48 := by simp [valueOf]
      rw [hone, List.length_singleton]
      calc (c.toNat - 48) * 10 ^ ds.length + valueOf ds
        _ < (c.toNat - 48 + 1) * 10 ^ ds.length := by rw [Nat.add_mul, Nat.one_mul]; omega
        _ ≤ 10 ^ 1 * 10 ^ ds.length := Nat.mul_le_mul_right _ hdigit

theorem ofDigits?_getD (h : ∀ c ∈ ds, isDigit c = true) : (ofDigits? 10 ds).getD 0 = valueOf ds := by
  by_cases hne : ds = []
  · rw [hne]
    rfl
  · rw [ofDigits?_of_ne_nil hne, ofDigitsFrom?_foldl h]
    rfl

/-- The digits of a fraction that are read are those of whole nanoseconds. -/
theorem nanosOfFraction_eq (h : ∀ c ∈ ds, isDigit c = true) :
    Rfc3339.nanosOfFraction ds = valueOf ds * 1000000000 / 10 ^ ds.length := by
  have htake : ∀ c ∈ ds.take 9, isDigit c = true := fun c hc => h c (List.mem_of_mem_take hc)
  have hdrop : ∀ c ∈ ds.drop 9, isDigit c = true := fun c hc => h c (List.mem_of_mem_drop hc)
  rw [Rfc3339.nanosOfFraction, ofDigits?_getD htake]
  rcases Nat.le_total ds.length 9 with hshort | hlong
  · have hpow : 1000000000 = 10 ^ (9 - ds.length) * 10 ^ ds.length := by
      rw [← Nat.pow_add, Nat.sub_add_cancel hshort]
    rw [List.take_of_length_le hshort, hpow, ← Nat.mul_assoc,
      Nat.mul_div_cancel _ (Nat.pow_pos (by decide))]
    rfl
  · obtain ⟨k, hk⟩ : ∃ k, ds.length = 9 + k := Nat.exists_eq_add_of_le hlong
    have hrest : (ds.drop 9).length = k := by rw [List.length_drop]; omega
    have hlt := hrest ▸ valueOf_lt hdrop
    have hvalue : valueOf ds = valueOf (ds.take 9) * 10 ^ k + valueOf (ds.drop 9) := by
      rw [← hrest, ← valueOf_append, List.take_append_drop]
    have hpow : (10 : Nat) ^ (9 + k) = 10 ^ k * 1000000000 := by rw [Nat.pow_add, Nat.mul_comm]
    have hnone : 9 - ds.length = 0 := Nat.sub_eq_zero_of_le hlong
    calc valueOf (ds.take 9) * Nat.pow 10 (9 - ds.length)
      _ = valueOf (ds.take 9) + valueOf (ds.drop 9) / 10 ^ k := by
        rw [hnone, Nat.div_eq_of_lt hlt]
        exact Nat.mul_one _
      _ = valueOf ds / 10 ^ k := by
        rw [hvalue, Nat.mul_comm, Nat.mul_add_div (Nat.pow_pos (by decide))]
      _ = valueOf ds * 1000000000 / 10 ^ ds.length := by
        rw [hk, hpow, Nat.mul_div_mul_right _ _ (by decide)]

theorem nanos_lt (x : TimeLiteral) : x.nanos < 1000000000 := by
  rw [TimeLiteral.nanos, Nat.div_lt_iff_lt_mul (Nat.pow_pos (by decide)), Nat.mul_comm]
  exact Nat.mul_lt_mul_of_pos_left (valueOf_lt x.digits) (by decide)

end Fractions

/-! ## Values -/

def TimeLiteral.value (x : TimeLiteral) : TimeOfDay := ⟨x.hour, x.minute, some x.second, x.nanos⟩

def TimeLiteral.clock (x : TimeLiteral) : ClockTime := ⟨x.hour, x.minute, x.second, x.nanos⟩

def ZoneLiteral.value : ZoneLiteral → Offset
  | universal _ _ => .zulu
  | ahead hours minutes _ _ => .minutes (hours * 60 + minutes : Nat)
  | behind hours minutes _ _ => .minutes (-(hours * 60 + minutes : Nat))

def OffsetLiteral.value (x : OffsetLiteral) : Datetime :=
  .offset x.date.date x.time.value x.zone.value

def LocalLiteral.value : LocalLiteral → Datetime
  | datetime d _ _ t => .localDatetime d.date t.value
  | date d => .localDate d.date
  | time t => .localTime t.value

/-! ## Reading -/

/-- Whether a text does not go on with the time before it. -/
def EndsTime (rest : List Char) : Prop := ∀ c ∈ rest.head?, isDigit c = false ∧ c ≠ '.'

section Reading

variable {rest : List Char}

theorem DateLiteral.read (x : DateLiteral) (rest : List Char) :
    Rfc3339.date (x.text ++ rest) = some (x.date, rest) := date_printDate x.isValid x.year rest

namespace TimeLiteral

variable (x : TimeLiteral)

theorem fraction_read (hrest : EndsTime rest) :
    Rfc3339.fraction (x.fractionText ++ rest) = some (x.nanos, rest) := by
  by_cases hnone : x.fraction = []
  · have hzero : x.nanos = 0 := by simp [nanos, hnone, valueOf]
    rw [fractionText, if_pos hnone, List.nil_append, hzero]
    cases rest with
    | nil => rfl
    | cons c rest => exact Rfc3339.fraction.eq_2 _ fun _ hpoint =>
        (hrest c rfl).2 (List.cons.inj hpoint).1
  · have hstop : rest.takeWhile isDigit = [] ∧ rest.dropWhile isDigit = rest := by
      cases rest with
      | nil => exact ⟨rfl, rfl⟩
      | cons c rest => simp [(hrest c rfl).1]
    rw [fractionText, if_neg hnone, List.cons_append, Rfc3339.fraction,
      List.takeWhile_append_of_pos x.digits, List.dropWhile_append_of_pos x.digits, hstop.1, hstop.2,
      List.append_nil, nanosOfFraction_eq x.digits]
    simp [hnone, nanos]

theorem time_read (hrest : EndsTime rest) :
    Rfc3339.time (x.text ++ rest) = some (x.clock, rest) := by
  have hhour : x.hour < 100 := Nat.lt_of_le_of_lt x.hour_le (by decide)
  have hminute : x.minute < 100 := Nat.lt_of_le_of_lt x.minute_le (by decide)
  have hsecond : x.second < 100 := Nat.lt_of_le_of_lt x.second_le (by decide)
  simp [Rfc3339.time, text, Rfc3339.fixedDigits_two hhour, Rfc3339.fixedDigits_two hminute,
    Rfc3339.fixedDigits_two hsecond, Rfc3339.literal, x.fraction_read hrest, clock]

theorem readTime_read (secondsOptional : Bool) (hrest : EndsTime rest) :
    readTime secondsOptional (x.text ++ rest) = some (x.value, rest) := by
  have hhour : x.hour < 100 := Nat.lt_of_le_of_lt x.hour_le (by decide)
  have hminute : x.minute < 100 := Nat.lt_of_le_of_lt x.minute_le (by decide)
  have hsecond : x.second < 100 := Nat.lt_of_le_of_lt x.second_le (by decide)
  simp [readTime, readSeconds, text, Rfc3339.fixedDigits_two hhour,
    Rfc3339.fixedDigits_two hminute, Rfc3339.fixedDigits_two hsecond, Rfc3339.literal,
    x.fraction_read hrest, x.hour_le, x.minute_le, x.second_le, value]

/-- A time is no date: a colon stands among its first four characters. -/
theorem date_read (rest : List Char) : Rfc3339.date (x.text ++ rest) = none := by
  have hhour : x.hour < 10 ^ 2 := Nat.lt_of_le_of_lt x.hour_le (by decide)
  have hcolon : ':' ∈ (x.text ++ rest).take 4 := by
    rw [text, List.append_assoc, List.take_append, length_padded (by decide) hhour]
    exact List.mem_append_right _ List.mem_cons_self
  have hyear : Rfc3339.fixedDigits 4 (x.text ++ rest) = none := by
    rw [Rfc3339.fixedDigits, ofDigits?_eq_none hcolon (by decide)]
    split <;> rfl
  rw [Rfc3339.date, hyear]
  rfl

end TimeLiteral

theorem offsetMinutes_read {hours minutes : Nat} (hhours : hours ≤ 23) (hminutes : minutes ≤ 59)
    (rest : List Char) :
    Rfc3339.offsetMinutes (padded 2 hours ++ ':' :: (padded 2 minutes ++ rest)) =
      some (hours * 60 + minutes, rest) := by
  have hhours' : hours < 100 := Nat.lt_of_le_of_lt hhours (by decide)
  have hminutes' : minutes < 100 := Nat.lt_of_le_of_lt hminutes (by decide)
  simp [Rfc3339.offsetMinutes, Rfc3339.fixedDigits_two hhours', Rfc3339.fixedDigits_two hminutes',
    Rfc3339.literal, hhours, hminutes]

namespace ZoneLiteral

variable (z : ZoneLiteral)

theorem endsTime (rest : List Char) : EndsTime (z.text ++ rest) := by
  rintro c hc
  cases z with
  | universal letter hletter =>
      obtain rfl := Option.some.inj hc
      rcases hletter with rfl | rfl <;> decide
  | ahead | behind =>
      obtain rfl := Option.some.inj hc
      decide

theorem offset_read (rest : List Char) :
    Rfc3339.offset (z.text ++ rest) = some (z.minutes, rest) := by
  cases z with
  | universal letter hletter => rcases hletter with rfl | rfl <;> rfl
  | ahead hours minutes hhours hminutes =>
      simp [text, Rfc3339.offset, offsetMinutes_read hhours hminutes, ZoneLiteral.minutes]
  | behind hours minutes hhours hminutes =>
      simp [text, Rfc3339.offset, offsetMinutes_read hhours hminutes, ZoneLiteral.minutes]

theorem readOffset_read (rest : List Char) :
    readOffset (z.text ++ rest) = some (some z.value, rest) := by
  cases z with
  | universal letter hletter => rcases hletter with rfl | rfl <;> rfl
  | ahead hours minutes hhours hminutes =>
      simp [text, readOffset, offsetMinutes_read hhours hminutes, value]
  | behind hours minutes hhours hminutes =>
      simp [text, readOffset, offsetMinutes_read hhours hminutes, value]

end ZoneLiteral

theorem isSeparator_of {c : Char} (h : c = 'T' ∨ c = 't' ∨ c = ' ') :
    Rfc3339.isSeparator c = true := by
  rcases h with rfl | rfl | rfl <;> rfl

namespace OffsetLiteral

variable (x : OffsetLiteral)

theorem parse_text : Rfc3339.parse (String.ofList x.text) =
    Timestamp.ofLocal? x.date.date x.time.clock x.zone.minutes := by
  have htime := x.time.time_read (x.zone.endsTime [])
  have hzone := x.zone.offset_read []
  rw [List.append_nil] at htime hzone
  simp [Rfc3339.parse, text, x.date.read, isSeparator_of x.isSeparator, htime, hzone]

theorem read_text (secondsOptional : Bool) (rest : List Char) :
    Datetime.read secondsOptional (x.text ++ rest) = some (x.value, rest) := by
  simp [Datetime.read, readDate, text, x.date.read, x.date.isValid, readAfterDate,
    isSeparator_of x.isSeparator, x.time.readTime_read _ (x.zone.endsTime rest),
    x.zone.readOffset_read, value]

end OffsetLiteral

namespace LocalLiteral

variable (x : LocalLiteral)

/-- What lacks a date, a time or an offset is no moment. -/
theorem parse_text : Rfc3339.parse (String.ofList x.text) = none := by
  have hend : EndsTime [] := by simp [EndsTime]
  cases x with
  | datetime d separator hseparator t =>
      have htime := t.time_read hend
      rw [List.append_nil] at htime
      simp [Rfc3339.parse, text, d.read, isSeparator_of hseparator, htime, Rfc3339.offset]
  | date d =>
      have hdate := d.read []
      rw [List.append_nil] at hdate
      simp [Rfc3339.parse, text, hdate]
  | time t =>
      have hdate := t.date_read []
      rw [List.append_nil] at hdate
      simp [Rfc3339.parse, text, hdate]

theorem read_text (secondsOptional : Bool) (rest : List Char) :
    Datetime.read secondsOptional (x.text ++ '\n' :: rest) = some (x.value, '\n' :: rest) := by
  have hend : EndsTime ('\n' :: rest) := by
    rintro c ⟨⟩
    decide
  cases x with
  | datetime d separator hseparator t =>
      simp [Datetime.read, readDate, text, d.read, d.isValid, readAfterDate,
        isSeparator_of hseparator, t.readTime_read _ hend, readOffset, value]
  | date d =>
      simp [Datetime.read, readDate, text, d.read, d.isValid, readAfterDate, Rfc3339.isSeparator,
        value]
  | time t => simp [Datetime.read, readDate, text, t.date_read, t.readTime_read _ hend, value]

end LocalLiteral

end Reading

/-! ## Moments -/

theorem DateLiteral.month_bounds (x : DateLiteral) : 1 ≤ x.date.month ∧ x.date.month ≤ 12 := by
  have hvalid := x.isValid
  simp only [Date.isValid, Bool.and_eq_true, decide_eq_true_eq] at hvalid
  have hbounds := daysInMonth_bounds (y := x.date.year) (m := x.date.month) (by omega)
  refine ⟨?_, hbounds.1⟩
  rcases Nat.eq_zero_or_pos x.date.month with hzero | hpos
  · rw [hzero] at hvalid
    exact absurd hvalid.2 (by simp [daysInMonth]; omega)
  · exact hpos

theorem DateLiteral.toDays_bounds (x : DateLiteral) :
    -1000000 ≤ x.date.toDays ∧ x.date.toDays ≤ 3000000 := by
  have hmonth := x.month_bounds
  have hyear := x.year
  have hday := (month_day_lt x.isValid).2
  simp only [Date.toDays, Date.daysBeforeMonth, Date.epochDays]
  split <;> omega

theorem ZoneLiteral.minutes_bounds (z : ZoneLiteral) : -1440 < z.minutes ∧ z.minutes < 1440 := by
  cases z <;> simp only [minutes] <;> omega

/-- A literal denotes the moment that its digits spell out. -/
theorem OffsetLiteral.exists_moment (x : OffsetLiteral) :
    ∃ t, Timestamp.ofLocal? x.date.date x.time.clock x.zone.minutes = some t ∧
      t.secs = x.unixSeconds ∧ t.nanos = x.unixNanos := by
  have hnanos := nanos_lt x.time
  have hclock : x.time.clock.isValid = true := by
    simp [TimeLiteral.clock, ClockTime.isValid, x.time.hour_le, x.time.minute_le, x.time.second_le,
      hnanos]
  have hdays := x.date.toDays_bounds
  have hminutes := x.zone.minutes_bounds
  have hhour := x.time.hour_le
  have hminute := x.time.minute_le
  have hsecond := x.time.second_le
  have hsecs : x.date.date.toDays * 86400 + x.time.hour * 3600 + x.time.minute * 60 +
      ((if x.time.second = 60 then 59 else x.time.second : Nat) : Int) - x.zone.minutes * 60 =
        x.unixSeconds := by
    rw [unixSeconds, ← Date.toDays_eq x.date.month_bounds]
    split <;> omega
  have hfirst : Timestamp.first < -100000000000 := by decide
  have hlast : 300000000000 < Timestamp.last := by decide
  have hrange : Timestamp.first ≤ x.unixSeconds ∧ x.unixSeconds ≤ Timestamp.last := by
    rw [← hsecs]
    split <;> omega
  have hwithin : x.unixNanos < 1000000000 ∨
      (x.unixNanos < 2000000000 ∧ x.unixSeconds % 60 = 59) := by
    rw [← hsecs, unixNanos]
    split <;> omega
  have hlimit : x.unixNanos < 2000000000 := by omega
  refine ⟨⟨x.unixSeconds, x.unixNanos, hrange, hlimit⟩, ?_, rfl, rfl⟩
  calc Timestamp.ofLocal? x.date.date x.time.clock x.zone.minutes
    _ = Timestamp.ofUnix? x.unixSeconds x.unixNanos := by
      rw [← hsecs]
      exact if_pos (by rw [x.date.isValid, hclock]; rfl)
    _ = some ⟨x.unixSeconds, x.unixNanos, hrange, hlimit⟩ := by
      rw [Timestamp.ofUnix?, dif_pos hrange, dif_pos hwithin]

example :
    let x : OffsetLiteral :=
      ⟨⟨⟨1990, 12, 31⟩, by decide, by decide⟩, 't', by decide,
        ⟨15, 59, 60, "1234567899".toList, by decide, by decide, by decide,
          List.all_eq_true.mp (by decide)⟩,
        .behind 8 0 (by decide) (by decide)⟩
    String.ofList x.text = "1990-12-31t15:59:60.1234567899-08:00" ∧
      x.unixSeconds = 662687999 ∧ x.unixNanos = 1123456789 := by
  decide +kernel

/-! ## Printing -/

/-- A time prints as a text of the grammar, with the zeros at the end of its fraction left out. -/
theorem TimeLiteral.exists_print (x : TimeLiteral) :
    ∃ y : TimeLiteral, x.value.print = y.text ∧ y.clock = x.clock := by
  have hnanos := nanos_lt x
  by_cases hzero : x.nanos = 0
  · refine ⟨{ x with fraction := [], digits := List.forall_mem_nil _ }, ?_, ?_⟩
    · simp [value, TimeOfDay.print, text, fractionText, printFraction, hzero]
    · rw [clock, clock, hzero]
      simp [nanos, valueOf]
  · have hdigits : ∀ c ∈ Rfc3339.significant (padded 9 x.nanos), isDigit c = true := fun c hc =>
      isDigit_of_mem_padded (Rfc3339.mem_of_mem_significant hc)
    refine ⟨{ x with fraction := Rfc3339.significant (padded 9 x.nanos), digits := hdigits }, ?_, ?_⟩
    · have hprint : printFraction x.nanos = '.' :: Rfc3339.significant (padded 9 x.nanos) :=
        if_neg hzero
      simp [value, TimeOfDay.print, text, fractionText, hprint, Rfc3339.significant_ne_nil hzero]
    · have hread := Rfc3339.nanosOfFraction_significant hzero hnanos
      rw [nanosOfFraction_eq hdigits] at hread
      simp only [clock, ClockTime.mk.injEq, true_and]
      exact hread

theorem print_minutes (hours : Nat) {minutes : Nat} (hminutes : minutes ≤ 59) {n : Int}
    (hn : n.natAbs = hours * 60 + minutes) :
    (Offset.minutes n).print =
      (if n < 0 then '-' else '+') :: (padded 2 hours ++ ':' :: padded 2 minutes) := by
  have hdiv : (hours * 60 + minutes) / 60 = hours := by omega
  have hmod : (hours * 60 + minutes) % 60 = minutes := by omega
  rw [Offset.print, hn, hdiv, hmod]

/-- An offset prints as one of the grammar. There is no minus sign before zero. -/
theorem ZoneLiteral.exists_print (z : ZoneLiteral) :
    ∃ y : ZoneLiteral, z.value.print = y.text ∧ y.minutes = z.minutes := by
  cases z with
  | universal letter _ => exact ⟨.universal 'Z' (.inl rfl), rfl, rfl⟩
  | ahead hours minutes hhours hminutes =>
      refine ⟨.ahead hours minutes hhours hminutes, ?_, rfl⟩
      rw [value, print_minutes hours hminutes (Int.natAbs_natCast _), if_neg (by omega), text]
  | behind hours minutes hhours hminutes =>
      have hprint := print_minutes hours hminutes
        ((Int.natAbs_neg _).trans (Int.natAbs_natCast _))
      rcases Nat.eq_zero_or_pos (hours * 60 + minutes) with hzero | hpos
      · refine ⟨.ahead hours minutes hhours hminutes, ?_, ?_⟩
        · rw [value, hprint, if_neg (by omega), text]
        · simp only [ZoneLiteral.minutes]
          omega
      · refine ⟨.behind hours minutes hhours hminutes, ?_, rfl⟩
        rw [value, hprint, if_pos (by omega), text]

theorem OffsetLiteral.exists_print (x : OffsetLiteral) :
    ∃ y : OffsetLiteral, x.value.print = y.text ∧ y.date = x.date ∧ y.time.clock = x.time.clock ∧
      y.zone.minutes = x.zone.minutes := by
  obtain ⟨t, htext, hclock⟩ := x.time.exists_print
  obtain ⟨z, hzone, hminutes⟩ := x.zone.exists_print
  refine ⟨⟨x.date, 'T', .inl rfl, t, z⟩, ?_, rfl, hclock, hminutes⟩
  simp [value, Datetime.print, text, htext, hzone, printDate, DateLiteral.text]

theorem LocalLiteral.exists_print (x : LocalLiteral) :
    ∃ y : LocalLiteral, x.value.print = y.text := by
  cases x with
  | datetime d separator _ t =>
      obtain ⟨u, htext, -⟩ := t.exists_print
      exact ⟨.datetime d 'T' (.inl rfl) u, by
        simp [value, Datetime.print, text, htext, printDate, DateLiteral.text]⟩
  | date d => exact ⟨.date d, rfl⟩
  | time t =>
      obtain ⟨u, htext, -⟩ := t.exists_print
      exact ⟨.time u, htext⟩

end ReverseProxy.Toml
