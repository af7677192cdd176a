import Mathlib
import ReverseProxy.Backend.Stats
import ReverseProxy.Duration
import ReverseProxy.Proofs.Scalar.Order

/-!
# How small a rounded number can be

Rounding never takes a positive number below the power of two under it. So numbers, sums and quotients
of a certain size are computed as values of that size, and an elapsed time of a second or so is
computed as more than the floor that latencies are divided by (`raiseTo_elapsedFloor`).
-/

namespace ReverseProxy.Scalar

open Float.Model (Format UnpackedFloat totalExponent)
open Float.Model.UnpackedFloat

/-- A positive value with all its bits, and an exponent of at least `k`. -/
inductive Reaches (k : ℤ) : UnpackedFloat → Prop
  | infinite : Reaches k (.infinity .positive)
  | finite {m : ℕ} {e : ℤ} {hm : 0 < m} (hlog : m.log2 = 52) (he : k ≤ e) :
    Reaches k (.finite .positive m e hm)

variable {k e : ℤ} {m n : ℕ}

theorem Reaches.mono {l : ℤ} {u : UnpackedFloat} (h : Reaches k u) (hl : l ≤ k) : Reaches l u := by
  cases h with
  | infinite => exact .infinite
  | finite hlog he => exact .finite hlog (hl.trans he)

/-! ## Mantissas -/

theorem log2_mono (h : m ≤ n) : m.log2 ≤ n.log2 := by
  rw [Nat.log2_eq_log_two, Nat.log2_eq_log_two]
  exact Nat.log_mono_right h

theorem log2_shiftRight (m n : ℕ) : (m / 2 ^ n).log2 = m.log2 - n := by
  rw [Nat.log2_eq_log_two, Nat.log2_eq_log_two, Nat.log_div_base_pow]

theorem log2_shiftLeft (hm : m ≠ 0) (n : ℕ) : (m <<< n).log2 = m.log2 + n := by
  rw [Nat.shiftLeft_eq, Nat.log2_eq_log_two, Nat.log2_eq_log_two]
  induction n with
  | zero => rw [Nat.pow_zero, Nat.mul_one, Nat.add_zero]
  | succ n ih =>
      have hne : m * 2 ^ n ≠ 0 := Nat.mul_ne_zero hm (Nat.two_pow_pos n).ne'
      rw [Nat.pow_succ, ← Nat.mul_assoc, Nat.log_mul_base (by decide) hne, ih, Nat.add_assoc]

theorem mantissa_shiftRight (em : ExtendedMantissa) (n : ℕ) :
    (em >>> n).mantissa = em.mantissa / 2 ^ n := by
  induction n with
  | zero => exact (Nat.div_one _).symm
  | succ n ih =>
      change (em >>> n).mantissa / 2 = _
      rw [ih, Nat.div_div_eq_div_mul, Nat.pow_succ]

theorem mantissa_ofMantissaAndAccuracy (m : ℕ) (acc : Accuracy) :
    (ExtendedMantissa.ofMantissaAndAccuracy m acc).mantissa = m := by
  cases acc with
  | exact => rfl
  | inexact o => cases o <;> rfl

theorem le_roundedMantissa (em : ExtendedMantissa) : em.mantissa ≤ em.roundedMantissa := by
  obtain ⟨m, r, s⟩ := em
  cases r <;> cases s <;>
    simp [ExtendedMantissa.roundedMantissa, ExtendedMantissa.accuracy, Accuracy.roundToNearestEven]

/-! ## Rounding -/

theorem targetExponent_eq (he : -1022 ≤ m.log2 + e) :
    Format.binary64.targetExponent (totalExponent m e) = m.log2 + e - 52 := by
  simp only [Format.targetExponent, totalExponent, Format.mantissaBits, Format.minExponent]
  omega

/-- A mantissa with enough bits loses those after the first 53. -/
theorem shiftToTargetExponent_eq (hm : 52 ≤ m.log2) (he : -1022 ≤ m.log2 + e) (acc : Accuracy) :
    shiftToTargetExponent Format.binary64 m e acc =
      (ExtendedMantissa.ofMantissaAndAccuracy m acc >>> (m.log2 - 52), m.log2 + e - 52) := by
  have hshift : (m.log2 + e - 52 - e).toNat = m.log2 - 52 := by omega
  rw [shiftToTargetExponent, targetExponent_eq he, shiftToExponent, hshift, Prod.mk.injEq]
  exact ⟨rfl, by omega⟩

theorem reaches_roundWithAccuracy (hm : 52 ≤ m.log2) (he : -1022 ≤ m.log2 + e) (acc : Accuracy) :
    Reaches (m.log2 + e - 52) (roundWithAccuracy Format.binary64 .positive m e acc) := by
  rw [roundWithAccuracy, shiftToTargetExponent_eq hm he]
  simp only
  generalize hr : ExtendedMantissa.roundedMantissa _ = r
  have hlog : 52 ≤ r.log2 := by
    have hle := le_roundedMantissa (ExtendedMantissa.ofMantissaAndAccuracy m acc >>> (m.log2 - 52))
    rw [hr, mantissa_shiftRight, mantissa_ofMantissaAndAccuracy] at hle
    have hmono := log2_mono hle
    rw [log2_shiftRight] at hmono
    omega
  -- Rounding up may have brought one more bit, which a second shift takes away.
  rw [shiftToTargetExponent_eq hlog (by omega)]
  simp only [mantissa_shiftRight, mantissa_ofMantissaAndAccuracy]
  have hfinal : (r / 2 ^ (r.log2 - 52)).log2 = 52 := by
    rw [log2_shiftRight]
    omega
  split
  · rename_i hzero
    rw [hzero, Nat.log2_zero] at hfinal
    cases hfinal
  · exact .finite hfinal (by omega)

theorem reaches_normalize (hm : 0 < m) (he : -1022 ≤ m.log2 + e) (zeroSign : Sign) :
    Reaches (m.log2 + e - 52) (UnpackedFloat.normalize Format.binary64 m e zeroSign) := by
  have hcompare : compare (m : ℤ) 0 = .gt := Int.compare_eq_gt.mpr (by omega)
  have hlog := log2_shiftLeft hm.ne' (e - (m.log2 + e - 52)).toNat
  simp only [UnpackedFloat.normalize, hcompare, Int.toNat_natCast, UnpackedFloat.round,
    targetExponent_eq he, decreaseExponent]
  refine (reaches_roundWithAccuracy ?_ ?_ _).mono ?_ <;> rw [hlog] <;> omega

/-! ## Packing -/

theorem unpack_pack_infinity :
    (Float.Model.pack (.infinity .positive)).unpack = .infinity .positive :=
  rfl

theorem unpackSign_packComponents {spec : Format} (sign : Sign)
    (exponent : BitVec spec.exponentBits) (mantissa : BitVec spec.mantissaBitsWithoutImplicit) :
    unpackSign (packComponents spec sign exponent mantissa) = sign.toBitVec := by
  ext i hi
  obtain rfl : i = 0 := by omega
  simp [unpackSign, packComponents, BitVec.getLsbD_append, BitVec.getElem_append]

theorem unpack_pack_normal (hm : 0 < m) (hlog : m.log2 = 52) (hlow : -1074 ≤ e) (hhigh : e ≤ 971) :
    (Float.Model.pack (.finite .positive m e hm)).unpack = .finite .positive m e hm := by
  obtain ⟨hmlow, hmhigh⟩ := (Nat.log2_eq_iff hm.ne').mp hlog
  obtain ⟨b, hb⟩ : ∃ b : ℕ, e + 1075 = b := ⟨(e + 1075).toNat, by omega⟩
  have hbiased : (e + Format.binary64.exponentBias + (52 : ℕ)).toNat = b := by
    change (e + (1023 : ℕ) + (52 : ℕ)).toNat = b
    omega
  have hexponent : (BitVec.ofNat 11 b).toNat = b := by
    rw [BitVec.toNat_ofNat]
    omega
  have hmantissa : (1#1 ++ BitVec.ofNat 52 m).toNat = m := by
    rw [BitVec.toNat_append, BitVec.toNat_ofNat, Nat.shiftLeft_eq, Nat.or_comm]
    change m % 2 ^ 52 ||| 2 ^ 52 = m
    rw [Nat.or_two_pow_eq_add_of_lt (Nat.mod_lt m (Nat.two_pow_pos 52))]
    omega
  have hfinite : BitVec.ofNat 11 b ≠ -1#11 := fun h => by
    have := congrArg BitVec.toNat h
    rw [hexponent] at this
    change b = 2047 at this
    omega
  have hnormal : BitVec.ofNat 11 b ≠ 0#11 := fun h => by
    have := congrArg BitVec.toNat h
    rw [hexponent] at this
    change b = 0 at this
    omega
  have hpack : UnpackedFloat.pack Format.binary64 (.finite .positive m e hm) =
      packComponents Format.binary64 .positive (BitVec.ofNat 11 b) (BitVec.ofNat 52 m) := by
    have hsmall : ¬ 2 ^ 11 ≤ b + 1 := by omega
    simp only [UnpackedFloat.pack, hbiased, hlog]
    rw [if_neg hsmall]
    exact if_pos rfl
  have hback : (b : ℤ) - (Format.binary64.exponentBias + (52 : ℕ)) = e := by
    change (b : ℤ) - ((1023 : ℕ) + (52 : ℕ)) = e
    omega
  change UnpackedFloat.unpack Format.binary64 (UnpackedFloat.pack Format.binary64 _) = _
  rw [hpack]
  simp only [UnpackedFloat.unpack, unpackExponent_packComponents, unpackMantissa_packComponents,
    unpackSign_packComponents]
  rw [if_neg hfinite, if_neg hnormal]
  simp only [hexponent, hmantissa, hback]
  rfl

theorem pack_overflow (hm : 0 < m) (he : 971 < e) :
    Float.Model.pack (.finite .positive m e hm) = Float.Model.pack (.infinity .positive) := by
  have hbiased : 2 ^ 11 ≤ (e + Format.binary64.exponentBias + (52 : ℕ)).toNat + 1 := by
    change 2 ^ 11 ≤ (e + (1023 : ℕ) + (52 : ℕ)).toNat + 1
    omega
  have hpack : UnpackedFloat.pack Format.binary64 (.finite .positive m e hm) =
      packedInfinity Format.binary64 .positive := if_pos hbiased
  simp only [Float.Model.pack, hpack]
  rfl

theorem Reaches.unpack_pack {u : UnpackedFloat} (h : Reaches k u) (hk : -1074 ≤ k) :
    Reaches k (Float.Model.pack u).unpack := by
  cases h with
  | infinite => exact unpack_pack_infinity ▸ .infinite
  | @finite m e hm hlog he =>
      rcases Int.lt_or_le 971 e with hhigh | hhigh
      · rw [pack_overflow hm hhigh, unpack_pack_infinity]
        exact .infinite
      · rw [unpack_pack_normal hm hlog (hk.trans he) hhigh]
        exact .finite hlog he

/-! ## Numbers, sums and quotients -/

theorem reaches_ofNat (hn : 0 < n) (hlimit : n < wordLimit) :
    Reaches (n.log2 - 52) (ofNat n : Float).toModel.unpack := by
  have hword : n.toUInt64.toNat = n := Nat.mod_eq_of_lt hlimit
  have hround := reaches_normalize (e := 0) hn (by omega) .positive
  rw [Int.add_zero] at hround
  refine Reaches.unpack_pack ?_ (by omega)
  rw [ofUInt64, hword]
  exact hround

theorem reaches_add {u v : UnpackedFloat} {l : ℤ} (hu : Reaches k u) (hv : Reaches l v)
    (hk : -1074 ≤ k) : Reaches k (UnpackedFloat.add Format.binary64 u v) := by
  cases hu with
  | infinite => cases hv <;> exact .infinite
  | @finite m e hm hlog he =>
      cases hv with
      | infinite => exact .infinite
      | @finite m' e' hm' hlog' he' =>
          have hsum := log2_mono (Nat.le_add_right (m <<< (e - min e e').toNat)
            (m' <<< (e' - min e e').toNat))
          rw [log2_shiftLeft hm.ne', hlog] at hsum
          have hpos : 0 < m <<< (e - min e e').toNat + m' <<< (e' - min e e').toNat := by
            rw [Nat.shiftLeft_eq]
            exact Nat.add_pos_left (Nat.mul_pos hm (Nat.two_pow_pos _)) _
          exact (reaches_normalize hpos (by omega) .positive).mono (by omega)

theorem reaches_zero_add {u : UnpackedFloat} (hu : Reaches k u) (s : Sign) :
    Reaches k (UnpackedFloat.add Format.binary64 (.zero s) u) := by
  cases hu with
  | infinite => exact .infinite
  | finite hlog he => exact .finite hlog he

theorem reaches_add_zero {u : UnpackedFloat} (hu : Reaches k u) (s : Sign) :
    Reaches k (UnpackedFloat.add Format.binary64 u (.zero s)) := by
  cases hu with
  | infinite => exact .infinite
  | finite hlog he => exact .finite hlog he

theorem reaches_div {u : UnpackedFloat} {m' : ℕ} (hu : Reaches k u) (hm' : 0 < m')
    (hlog' : m'.log2 = 52) (e' : ℤ) (hk : -1021 ≤ k - e') :
    Reaches (k - e' - 53) (UnpackedFloat.div Format.binary64 u (.finite .positive m' e' hm')) := by
  cases hu with
  | infinite => exact .infinite
  | @finite m e hm hlog he =>
      have htarget : min (e - e') (Format.binary64.targetExponent
          (totalExponent m e - totalExponent m' e')) = e - e' - 53 := by
        simp only [Format.targetExponent, totalExponent, Format.mantissaBits, Format.minExponent,
          hlog, hlog']
        omega
      have hshift : (e - e' - (e - e' - 53)).toNat = 53 := by omega
      -- A quotient of mantissas has 53 bits once 53 are put to the dividend.
      have hquotient : 52 ≤ ((m <<< 53) / m').log2 := by
        have hm_low := ((Nat.log2_eq_iff hm.ne').mp hlog).1
        have hm'_high := ((Nat.log2_eq_iff hm'.ne').mp hlog').2
        have hlow : 2 ^ 52 ≤ (m <<< 53) / m' := by
          rw [Nat.le_div_iff_mul_le hm', Nat.shiftLeft_eq]
          exact Nat.mul_le_mul hm_low hm'_high.le
        exact (Nat.le_log2 (Nat.ne_of_gt (Nat.lt_of_lt_of_le (Nat.two_pow_pos 52) hlow))).mpr hlow
      simp only [UnpackedFloat.div, divCore, htarget, hshift]
      exact (reaches_roundWithAccuracy hquotient (by omega) _).mono (by omega)

/-! ## Elapsed times -/

theorem unpack_ofNat_zero : (ofNat 0 : Float).toModel.unpack = .zero .positive :=
  rfl

theorem unpack_nanosPerSecond : (ofNat 1000000000 : Float).toModel.unpack =
    .finite .positive 8388608000000000 (-23) (by decide) :=
  rfl

theorem unpack_zero_div : (ofNat 0 / ofNat 1000000000 : Float).toModel.unpack = .zero .positive :=
  rfl

theorem unpack_elapsedFloor : (Backend.Stats.elapsedFloor : Float).toModel.unpack =
    .finite .positive 4503599627370496 (-104) (by decide) :=
  rfl

/-- The part of a second that some nanoseconds make up. -/
theorem reaches_subseconds (hn : 0 < n) (hlimit : n < 1000000000) :
    Reaches (n.log2 - 82) (ofNat n / ofNat 1000000000 : Float).toModel.unpack := by
  have hword : n < wordLimit := hlimit.trans (by decide)
  have hlog : (8388608000000000 : ℕ).log2 = 52 := by decide
  have hquotient := reaches_div (reaches_ofNat hn hword) (by decide) hlog (-23) (by omega)
  rw [← unpack_nanosPerSecond] at hquotient
  exact (hquotient.mono (by omega)).unpack_pack (by omega)

theorem reaches_secondsOfNanos (hlow : 995000000 ≤ n) (hlimit : n < Duration.limit) :
    Reaches (-53) (secondsOfNanos n : Float).toModel.unpack := by
  have hseconds : n / 1000000000 < wordLimit := by
    rw [Duration.limit, nanosPerSecond] at hlimit
    omega
  refine Reaches.unpack_pack ?_ (by omega)
  rcases Nat.eq_zero_or_pos (n / 1000000000) with hzero | hpos
  · have hlog : 29 ≤ (n % 1000000000).log2 := (Nat.le_log2 (by omega)).mpr (by omega)
    have hrest := reaches_subseconds (n := n % 1000000000) (by omega) (by omega)
    rw [hzero, unpack_ofNat_zero]
    exact reaches_zero_add (hrest.mono (by omega)) _
  · have hwhole := (reaches_ofNat hpos hseconds).mono (l := -53) (by omega)
    rcases Nat.eq_zero_or_pos (n % 1000000000) with hzero | hrest
    · rw [hzero, unpack_zero_div]
      exact reaches_add_zero hwhole _
    · exact reaches_add hwhole (reaches_subseconds hrest (Nat.mod_lt _ (by decide))) (by omega)

theorem Reaches.isNaN_eq_false {u : UnpackedFloat} (hu : Reaches k u) : u.isNaN = false := by
  cases hu <;> rfl

theorem Reaches.lt_place {u : UnpackedFloat} (hu : Reaches k u) {e : ℤ} (he : e < k) (m : ℤ) :
    toLex (1, toLex (e, m)) < place u := by
  cases hu with
  | infinite => exact Prod.Lex.toLex_lt_toLex.mpr (.inl (show (1 : ℤ) < 2 by decide))
  | finite hlog he' =>
      refine Prod.Lex.toLex_lt_toLex.mpr (.inr ⟨rfl, Prod.Lex.toLex_lt_toLex.mpr (.inl ?_)⟩)
      exact he.trans_le he'

/-- An elapsed time of almost a second or more is divided by as it is. -/
theorem raiseTo_elapsedFloor (hlow : 995000000 ≤ n) (hlimit : n < Duration.limit) :
    raiseTo Backend.Stats.elapsedFloor (secondsOfNanos n : Float) = secondsOfNanos n := by
  have hreaches := reaches_secondsOfNanos hlow hlimit
  have hle : (Backend.Stats.elapsedFloor : Float) ≤ secondsOfNanos n := by
    rw [le_iff_position (by decide +kernel) hreaches.isNaN_eq_false, position, position,
      unpack_elapsedFloor]
    exact (hreaches.lt_place (by decide) _).le
  exact if_pos (decide_eq_true hle)

end ReverseProxy.Scalar
