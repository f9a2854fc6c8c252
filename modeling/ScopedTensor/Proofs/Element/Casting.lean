import ScopedTensor.Element.Interchange
import ScopedTensor.Proofs.Element.Widening
import ScopedTensor.Proofs.Kernels.Naturals

/-! Narrowing to an element type. What has been narrowed once is kept when it is narrowed again,
for floating types, whose numbers are all doubles, and for integers, although not every integer of
sixty-four bits is one. -/

namespace ScopedTensor

namespace Binary

namespace Format

variable {n : Nat}

theorem log2_of_le (hn : n ≤ Nat.pow 2 63) : n.log2 ≤ 63 := by
  rcases Nat.eq_zero_or_pos n with rfl | hpos
  · decide
  · exact Nat.le_of_lt_succ ((Nat.log2_lt (Nat.ne_of_gt hpos)).2 (Nat.lt_of_le_of_lt hn (by decide)))

theorem value_double {e m : Nat} (hlow : Nat.pow 2 52 ≤ m) (hhigh : m ≤ Nat.pow 2 53) :
    double.value ((e + 1022) * Nat.pow 2 52 + m) = m * 2 ^ ((e : Int) - 52) := by
  have h : double.value ((e + 1022) * Nat.pow 2 52 + m) =
      m * 2 ^ (double.lowest + (e + 1022 : Nat)) := value_place (f := double) hhigh (.inl hlow)
  rw [h, show double.lowest + (e + 1022 : Nat) = (e : Int) - 52 from
    show (-1074 : Int) + (e + 1022 : Nat) = e - 52 by omega]

theorem lt_infinity {e m : Nat} (he : e ≤ 63) (hm : m ≤ Nat.pow 2 53) :
    (e + 1022) * Nat.pow 2 52 + m < double.infinity :=
  calc (e + 1022) * Nat.pow 2 52 + m
      ≤ 1085 * Nat.pow 2 52 + Nat.pow 2 53 :=
        Nat.add_le_add (Nat.mul_le_mul_right _ (by omega)) hm
    _ < double.infinity := by decide

theorem round_large (hlarge : Nat.pow 2 53 ≤ n) (hlog : n.log2 ≤ 63)
    (hround : divNearest n (Nat.pow 2 (n.log2 - 52)) ≤ Nat.pow 2 53) :
    double.round n 1 = (n.log2 + 1022) * Nat.pow 2 52 + divNearest n (Nat.pow 2 (n.log2 - 52)) := by
  have hne : n ≠ 0 := Nat.ne_of_gt (Nat.lt_of_lt_of_le (by decide) hlarge)
  have hlog' : 53 ≤ n.log2 := (Nat.le_log2 hne).2 hlarge
  have hplace : max (n.log2 - (double.fraction : Int)) double.lowest = n.log2 - 52 :=
    Int.max_eq_left (show (-1074 : Int) ≤ n.log2 - 52 by omega)
  have hexponent : ((n.log2 : Int) - 52 - double.lowest).toNat = n.log2 + 1022 :=
    show ((n.log2 : Int) - 52 - -1074).toNat = _ by omega
  have hunits : inUnits ((n.log2 : Int) - 52) n 1 = (n, Nat.pow 2 (n.log2 - 52)) := by
    unfold inUnits
    rw [if_pos (by omega), Nat.one_mul, show ((n.log2 : Int) - 52).toNat = n.log2 - 52 by omega]
  unfold round
  simp only [if_neg hne, log2Ratio_one hne, hplace, hunits, hexponent]
  exact Nat.min_eq_right (lt_infinity hlog hround).le

theorem value_round (hn : n ≤ Nat.pow 2 63) :
    ∃ r : Nat, double.value (double.round n 1) = r ∧ double.round n 1 < double.infinity ∧
      r ≤ Nat.pow 2 63 ∧ (n < Nat.pow 2 53 → r = n) := by
  by_cases hzero : n = 0
  · subst hzero
    exact ⟨0, double.value_zero.trans Nat.cast_zero.symm, by decide, by decide, fun _ => rfl⟩
  have hlog := log2_of_le hn
  by_cases hsmall : n < Nat.pow 2 53
  · have hlog' := log2_le hsmall
    rw [round_exact hzero hsmall]
    refine ⟨n, ?_, lt_infinity hlog (aligned_lt hlog').le, hn, fun _ => rfl⟩
    rw [value_double (le_aligned hzero hlog') (aligned_lt hlog').le,
      show (n.log2 : Int) - 52 = -(52 - n.log2 : Nat) by omega, zpow_neg, zpow_natCast]
    unfold aligned
    rw [Nat.pow_eq]
    push_cast
    field_simp
  · have hlarge := Nat.le_of_not_lt hsmall
    have hlog' : 53 ≤ n.log2 := (Nat.le_log2 hzero).2 hlarge
    have hunit : 0 < Nat.pow 2 (n.log2 - 52) := Nat.pow_pos Nat.two_pos
    have hpow : ∀ k, Nat.pow 2 k * Nat.pow 2 (n.log2 - 52) = Nat.pow 2 (k + (n.log2 - 52)) :=
      fun k => (Nat.pow_add ..).symm
    have hlow : Nat.pow 2 52 ≤ divNearest n (Nat.pow 2 (n.log2 - 52)) := by
      refine le_divNearest hunit ?_
      rw [hpow, Nat.add_sub_of_le (by omega)]
      exact Nat.log2_self_le hzero
    have hhigh : divNearest n (Nat.pow 2 (n.log2 - 52)) ≤ Nat.pow 2 53 := by
      refine divNearest_le hunit ?_
      rw [hpow, show 53 + (n.log2 - 52) = n.log2 + 1 by omega]
      exact Nat.lt_log2_self.le
    have htop : divNearest n (Nat.pow 2 (n.log2 - 52)) ≤ Nat.pow 2 (63 - (n.log2 - 52)) := by
      refine divNearest_le hunit ?_
      rw [hpow, Nat.sub_add_cancel (by omega)]
      exact hn
    rw [round_large hlarge hlog hhigh]
    refine ⟨divNearest n (Nat.pow 2 (n.log2 - 52)) * Nat.pow 2 (n.log2 - 52), ?_,
      lt_infinity hlog hhigh, ?_, fun h => absurd h hsmall⟩
    · rw [value_double hlow hhigh, show (n.log2 : Int) - 52 = (n.log2 - 52 : Nat) by omega,
        zpow_natCast, Nat.cast_mul]
      simp
    · calc divNearest n (Nat.pow 2 (n.log2 - 52)) * Nat.pow 2 (n.log2 - 52)
          ≤ Nat.pow 2 (63 - (n.log2 - 52)) * Nat.pow 2 (n.log2 - 52) :=
            Nat.mul_le_mul_right _ htop
        _ = Nat.pow 2 63 := by rw [hpow, Nat.sub_add_cancel (by omega)]

end Format

namespace Binary64

open Format

variable {lo hi v : Int}

theorem pattern_withSign {magnitude : Nat} (h : magnitude < double.signBit) (negative : Bool) :
    (ofPattern (double.withSign negative magnitude)).pattern =
      double.withSign negative magnitude := by
  have hlt := withSign_lt h negative
  exact UInt64.toNat_ofNat_of_lt' (hlt.trans_eq (by decide))

theorem saturate_withSign {magnitude r : Nat} (hfinite : magnitude < double.infinity)
    (hvalue : double.value magnitude = r) (negative : Bool) (lo hi : Int) :
    (ofPattern (double.withSign negative magnitude)).saturate lo hi =
      max lo (min hi (if negative then -r else r)) := by
  have hlt : magnitude < double.signBit := hfinite.trans (by decide)
  have hden := scaled_pos (double.significand magnitude).1 (double.significand magnitude).2
  have hwhole : (scaled (double.significand magnitude).1 (double.significand magnitude).2).1 =
      r * (scaled (double.significand magnitude).1 (double.significand magnitude).2).2 := by
    have hratio := (scaled_ratio _ _).trans hvalue
    exact_mod_cast (div_eq_iff (by exact_mod_cast hden.ne')).1 hratio
  unfold saturate Binary64.isNaN Binary64.isInfinite Binary64.isNegative Binary64.magnitude
    Format.isNaN Format.isInfinite
  simp only [pattern_withSign hlt, isNegative_withSign hlt, magnitude_withSign hlt,
    decide_eq_false (Nat.not_lt.2 hfinite.le), beq_false_of_ne hfinite.ne, Bool.false_eq_true,
    if_false, hwhole, Nat.mul_div_cancel _ hden]

theorem saturate_ofInt (hlo : lo ≤ v) (hhi : v ≤ hi) (hv : v.natAbs < Nat.pow 2 53) :
    (ofInt v).saturate lo hi = v := by
  obtain ⟨r, hvalue, hfinite, -, hr⟩ := value_round (Nat.le_trans hv.le (by decide))
  rw [show ofInt v = ofPattern (double.withSign (v < 0) (double.round v.natAbs 1)) from rfl,
    saturate_withSign hfinite hvalue, hr hv]
  split
  · rename_i hneg
    have hneg := of_decide_eq_true hneg
    omega
  · rename_i hpos
    have hpos := mt decide_eq_true hpos
    omega

theorem ofInt_top : ofInt (Int.pow 2 63 - 1) = ofInt (Int.pow 2 63) := by
  decide +kernel

theorem ofInt_of_neg (hv : v < 0) :
    ofInt v = ofPattern (double.withSign true (double.round v.natAbs 1)) := by
  unfold ofInt ofRatio
  rw [decide_eq_true hv]

theorem ofInt_of_nonneg (hv : 0 ≤ v) :
    ofInt v = ofPattern (double.withSign false (double.round v.natAbs 1)) := by
  unfold ofInt ofRatio
  rw [decide_eq_false (Int.not_lt.2 hv)]

theorem ofInt_saturate_ofInt {limit : Int} (hlimit : limit = Int.pow 2 63) (hlo : -limit ≤ v)
    (hhi : v ≤ limit - 1) : ofInt ((ofInt v).saturate (-limit) (limit - 1)) = ofInt v := by
  have hend : ofInt (limit - 1) = ofInt limit := hlimit ▸ ofInt_top
  have hbits : limit.natAbs = Nat.pow 2 63 := hlimit ▸ rfl
  have hv : v.natAbs ≤ limit.natAbs := by omega
  rw [hbits] at hv
  obtain ⟨r, hvalue, hfinite, htop, -⟩ := value_round hv
  rw [← hbits] at htop
  clear hlimit hbits
  have hagain : double.round r 1 = double.round v.natAbs 1 :=
    round_value Nat.one_pos hfinite.le (by rw [hvalue, Nat.cast_one, div_one])
  by_cases hneg : v < 0
  · have hr : r ≠ 0 := by
      rintro rfl
      exact Nat.ne_of_lt (round_pos (n := v.natAbs) (by omega)) hagain
    have hkept : (ofInt v).saturate (-limit) (limit - 1) = -r := by
      rw [ofInt_of_neg hneg, saturate_withSign hfinite hvalue, if_pos rfl,
        Int.min_eq_right (by omega), Int.max_eq_right (by omega)]
    rw [hkept, ofInt_of_neg hneg, ofInt_of_neg (by omega), Int.natAbs_neg, Int.natAbs_natCast,
      hagain]
  · have hpos := Int.not_lt.1 hneg
    -- Rounded up to the limit an integer is cut back to the one below, which rounds up again.
    have hkept : (ofInt v).saturate (-limit) (limit - 1) = min (limit - 1) r := by
      rw [ofInt_of_nonneg hpos, saturate_withSign hfinite hvalue, if_neg Bool.false_ne_true,
        Int.max_eq_right (by omega)]
    have hsame : ofInt (min (limit - 1) r) = ofInt r := by
      rcases Int.lt_or_eq_of_le (show (r : Int) ≤ limit by omega) with hlt | heq
      · rw [Int.min_eq_right (by omega)]
      · rw [Int.min_eq_left (by omega), hend, heq]
    rw [hkept, hsame, ofInt_of_nonneg hpos, ofInt_of_nonneg (by omega), Int.natAbs_natCast, hagain]

theorem le_saturate (x : Binary64) (h : lo ≤ hi) (h0 : lo ≤ 0) : lo ≤ x.saturate lo hi := by
  unfold saturate
  split
  · exact h0
  · split
    · split
      · exact Int.le_refl _
      · exact h
    · exact Int.le_max_left _ _

theorem saturate_le (x : Binary64) (h : lo ≤ hi) (h0 : 0 ≤ hi) : x.saturate lo hi ≤ hi := by
  unfold saturate
  split
  · exact h0
  · split
    · split
      · exact h
      · exact Int.le_refl _
    · exact Int.max_le.2 ⟨h, Int.min_le_left _ _⟩

theorem saturate_saturate (x : Binary64) (hlo : -(Nat.pow 2 53 : Int) < lo) (h0 : lo ≤ 0)
    (h0' : 0 ≤ hi) (hhi : hi < Nat.pow 2 53) :
    (ofInt (x.saturate lo hi)).saturate lo hi = x.saturate lo hi := by
  have hle := le_saturate x (Int.le_trans h0 h0') h0
  have hge := saturate_le x (Int.le_trans h0 h0') h0'
  exact saturate_ofInt hle hge (by omega)

end Binary64
end Binary

namespace ElementType

open Binary Format Binary64

theorem settled_narrow (f : Format) (hf : 0 < f.fraction) (x : Binary64) : Settled f (x.narrow f) :=
  settled_convert hf _ _

theorem pattern_widen {f : Format} (b : Nat) : (widen f b).pattern = convert f double b :=
  UInt64.toNat_ofNat_of_lt' ((settled_convert (by decide) f b).lt.trans_eq (by decide))

theorem bmod_signed (n : Nat) (i : Int) :
    Int.bmod (ofDouble.signed n i).toNat (Nat.pow 256 n) = Int.bmod i (Nat.pow 256 n) := by
  have hpow : Int.pow 256 n = (Nat.pow 256 n : Nat) := (Int.natCast_pow 256 n).symm
  have hpos : (Nat.pow 256 n : Int) ≠ 0 :=
    Int.natCast_ne_zero.2 (Nat.ne_of_gt (Nat.pow_pos (by decide)))
  unfold ofDouble.signed
  rw [Bytes.toNat_ofNat, hpow, Int.natCast_emod, Int.toNat_of_nonneg (Int.emod_nonneg _ hpos),
    Int.emod_emod_of_dvd _ (Int.dvd_refl _), Int.emod_bmod]

theorem bmod_signed_saturate (x : Binary64) (n : Nat) {limit : Int}
    (hlimit : 2 * limit = (Nat.pow 256 n : Nat)) :
    Int.bmod (ofDouble.signed n (x.saturate (-limit) (limit - 1))).toNat (Nat.pow 256 n) =
      x.saturate (-limit) (limit - 1) := by
  have hpos : 0 < Nat.pow 256 n := Nat.pow_pos (by decide)
  have hlo := le_saturate x (show -limit ≤ limit - 1 by omega) (by omega)
  have hhi := saturate_le x (show -limit ≤ limit - 1 by omega) (by omega)
  rw [bmod_signed]
  exact Int.bmod_eq_of_le_mul_two (by omega) (by omega)

variable [HalfPrecision]

theorem cast_f16 (x : Binary64) :
    f16.cast x = HalfPrecision.widen (HalfPrecision.narrow x) := by
  have hlt : (HalfPrecision.narrow x).toNat < Nat.pow 256 2 := (HalfPrecision.narrow x).isLt
  unfold cast ofDouble toDouble
  simp only [Bytes.toNat_ofNat, Nat.mod_eq_of_lt hlt, BitVec.ofNat_toNat, BitVec.setWidth_eq]

theorem cast_f32 (x : Binary64) : f32.cast x = widen single (x.narrow single) := by
  have hlt : x.narrow single < Nat.pow 256 4 := (settled_narrow single (by decide) x).lt
  unfold cast ofDouble toDouble
  simp only [Bytes.toNat_ofNat, Nat.mod_eq_of_lt hlt]

theorem cast_u8 (x : Binary64) : u8.cast x = ofInt (x.saturate 0 255) := by
  have hlo := le_saturate x (show (0 : Int) ≤ 255 by decide) (by decide)
  have hhi := saturate_le x (show (0 : Int) ≤ 255 by decide) (by decide)
  have hlt : (x.saturate 0 255).toNat < Nat.pow 256 1 :=
    show (x.saturate 0 255).toNat < 256 by omega
  unfold cast ofDouble toDouble
  simp only [Bytes.toNat_ofNat, Nat.mod_eq_of_lt hlt]
  unfold Binary64.ofNat
  rw [Int.toNat_of_nonneg hlo]

theorem cast_i8 (x : Binary64) : i8.cast x = ofInt (x.saturate (-128) 127) :=
  congrArg ofInt (bmod_signed_saturate x 1 (show 2 * 128 = ((Nat.pow 256 1 : Nat) : Int) from rfl))

theorem cast_i32 (x : Binary64) :
    i32.cast x = ofInt (x.saturate (-Int.pow 2 31) (Int.pow 2 31 - 1)) :=
  congrArg ofInt (bmod_signed_saturate x 4 rfl)

theorem cast_i64 (x : Binary64) :
    i64.cast x = ofInt (x.saturate (-Int.pow 2 63) (Int.pow 2 63 - 1)) :=
  congrArg ofInt (bmod_signed_saturate x 8 rfl)

theorem cast_bool (x : Binary64) : bool.cast x = Binary64.ofNat (if x.isZero then 0 else 1) := by
  unfold cast ofDouble toDouble
  by_cases h : x.isZero = true
  · simp only [h, if_true]
    rfl
  · simp only [h]
    rfl

theorem cast_cast [LawfulHalfPrecision] (t : ElementType) (x : Binary64) :
    t.cast (t.cast x) = t.cast x := by
  cases t with
  | f16 => rw [cast_f16, cast_f16, LawfulHalfPrecision.narrow_widen_narrow]
  | f32 =>
    have hsettled := settled_narrow single (by decide) x
    have hsingle : convert double single (widen single (x.narrow single)).pattern =
        x.narrow single := by
      rw [pattern_widen, convert_convert (by decide) (by decide) (by decide) (.refl _)
        single_within_double hsettled, convert_self hsettled]
    rw [cast_f32, cast_f32]
    exact congrArg (widen single) hsingle
  | f64 => rw [cast_f64]
  | u8 =>
    rw [cast_u8, cast_u8, saturate_saturate x (by decide) (by decide) (by decide) (by decide)]
  | i8 =>
    rw [cast_i8, cast_i8, saturate_saturate x (by decide) (by decide) (by decide) (by decide)]
  | i32 =>
    rw [cast_i32, cast_i32, saturate_saturate x (by decide) (by decide) (by decide) (by decide)]
  | i64 =>
    rw [cast_i64, cast_i64, ofInt_saturate_ofInt rfl (le_saturate x (by decide) (by decide))
      (saturate_le x (by decide) (by decide))]
  | bool =>
    rw [cast_bool, cast_bool]
    cases x.isZero with
    | true | false => decide +kernel

theorem cast_zero [LawfulHalfPrecision] (t : ElementType) : t.cast .zero = .zero := by
  cases t with
  | f16 => rw [cast_f16, LawfulHalfPrecision.widen_narrow_zero]
  | f64 => exact cast_f64 _
  | f32 => rw [cast_f32]; decide +kernel
  | u8 => rw [cast_u8]; decide +kernel
  | i8 => rw [cast_i8]; decide +kernel
  | i32 => rw [cast_i32]; decide +kernel
  | i64 => rw [cast_i64]; decide +kernel
  | bool => rw [cast_bool]; decide +kernel

end ElementType

namespace Interchange

open Binary Format Binary64

theorem settled_narrowToHalf (x : Binary64) : Settled half (narrowToHalf x) :=
  settled_convert (by decide) _ _

theorem narrowToHalf_widen {b : Nat} (h : Settled half b) : narrowToHalf (widen half b) = b := by
  have hsingle : convert double single (widen half b).pattern = convert half single b := by
    rw [ElementType.pattern_widen]
    exact convert_convert (by decide) (by decide) (by decide) half_within_single
      half_within_double h
  -- On the way back nothing is rounded, since both wider formats hold every half.
  unfold narrowToHalf
  rw [Binary64.narrow, hsingle, convert_convert (by decide) (by decide) (by decide) (.refl _)
    half_within_single h, convert_self h]

scoped instance : LawfulHalfPrecision where
  narrow_widen_narrow x := by
    have h := settled_narrowToHalf x
    have hlt : narrowToHalf x < 2 ^ 16 := h.lt
    show BitVec.ofNat 16 (narrowToHalf (widen half (BitVec.ofNat 16 (narrowToHalf x)).toNat)) = _
    rw [BitVec.toNat_ofNat, Nat.mod_eq_of_lt hlt, narrowToHalf_widen h]
    rfl
  widen_narrow_zero := by decide +kernel

end Interchange
end ScopedTensor
