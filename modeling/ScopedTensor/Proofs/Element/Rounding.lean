import Mathlib.Algebra.Order.Field.Power
import Mathlib.Data.Int.Log
import Mathlib.Data.Rat.Floor
import Mathlib.Tactic.FieldSimp
import Mathlib.Tactic.Positivity
import Mathlib.Tactic.Ring
import ScopedTensor.Binary.Format

/-! What a finite pattern stands for, as a rational number. Rounding a quotient depends on nothing
but its value, and a quotient that some pattern stands for is rounded to that pattern. -/

namespace ScopedTensor.Binary

variable {n d m : Nat} {q e : Int}

theorem scaled_ratio (m : Nat) (q : Int) :
    ((scaled m q).1 : ℚ) / (scaled m q).2 = m * 2 ^ q := by
  unfold scaled
  split
  · rename_i hq
    obtain ⟨k, rfl⟩ := Int.eq_ofNat_of_zero_le hq
    simp
  · rename_i hq
    obtain ⟨k, rfl⟩ : ∃ k : Nat, q = -k := ⟨(-q).toNat, by omega⟩
    simp [div_eq_mul_inv]

theorem scaled_pos (m : Nat) (q : Int) : 0 < (scaled m q).2 := by
  unfold scaled
  split
  · exact Nat.one_pos
  · exact Nat.pow_pos (by decide)

theorem inUnits_pos (hd : 0 < d) (q : Int) (n : Nat) : 0 < (inUnits q n d).2 := by
  unfold inUnits
  split
  · exact Nat.mul_pos hd (Nat.pow_pos (by decide))
  · exact hd

theorem inUnits_ratio (hd : 0 < d) (q : Int) (n : Nat) :
    ((inUnits q n d).1 : ℚ) / (inUnits q n d).2 = (n : ℚ) / d / 2 ^ q := by
  have hd' : (d : ℚ) ≠ 0 := by exact_mod_cast Nat.ne_of_gt hd
  unfold inUnits
  split
  · rename_i hq
    obtain ⟨k, rfl⟩ := Int.eq_ofNat_of_zero_le hq
    simp
    field_simp
  · rename_i hq
    obtain ⟨k, rfl⟩ : ∃ k : Nat, q = -k := ⟨(-q).toNat, by omega⟩
    simp
    field_simp

theorem log_eq {r : ℚ} (hlow : 2 ^ e ≤ r) (hhigh : r < 2 ^ (e + 1)) : Int.log 2 r = e := by
  have hr : 0 < r := lt_of_lt_of_le (by positivity) hlow
  have hle := (Int.zpow_le_iff_le_log (b := 2) (by decide) hr).1 (by exact_mod_cast hlow)
  have hlt := (Int.lt_zpow_iff_log_lt (b := 2) (by decide) hr).1 (by exact_mod_cast hhigh)
  omega

theorem two_pow_log2_le (hn : n ≠ 0) : (2 : ℚ) ^ (n.log2 : Int) ≤ n := by
  rw [zpow_natCast]
  exact_mod_cast Nat.log2_self_le hn

theorem lt_two_pow_log2 (n : Nat) : (n : ℚ) < 2 ^ (n.log2 + 1 : Int) := by
  have h : (n : ℚ) < 2 ^ (n.log2 + 1) := by exact_mod_cast Nat.lt_log2_self
  exact_mod_cast h

theorem log2Ratio_eq (hn : n ≠ 0) (hd : 0 < d) : log2Ratio n d = Int.log 2 ((n : ℚ) / d) := by
  have hd' : (0 : ℚ) < d := by exact_mod_cast hd
  have hlow : (2 : ℚ) ^ ((n.log2 : Int) - d.log2 - 1) ≤ n / d := by
    rw [le_div_iff₀ hd']
    calc (2 : ℚ) ^ ((n.log2 : Int) - d.log2 - 1) * d
        ≤ 2 ^ ((n.log2 : Int) - d.log2 - 1) * 2 ^ (d.log2 + 1 : Int) := by
          gcongr
          exact (lt_two_pow_log2 d).le
      _ = 2 ^ (n.log2 : Int) := by
          rw [← zpow_add₀ two_ne_zero]
          ring_nf
      _ ≤ n := two_pow_log2_le hn
  have hhigh : (n : ℚ) / d < 2 ^ ((n.log2 : Int) - d.log2 + 1) := by
    rw [div_lt_iff₀ hd']
    calc (n : ℚ) < 2 ^ (n.log2 + 1 : Int) := lt_two_pow_log2 n
      _ = 2 ^ ((n.log2 : Int) - d.log2 + 1) * 2 ^ (d.log2 : Int) := by
          rw [← zpow_add₀ two_ne_zero]
          ring_nf
      _ ≤ 2 ^ ((n.log2 : Int) - d.log2 + 1) * d := by
          gcongr
          exact two_pow_log2_le (Nat.ne_of_gt hd)
  have hratio := inUnits_ratio hd ((n.log2 : Int) - d.log2) n
  have hunit : (0 : ℚ) < (inUnits ((n.log2 : Int) - d.log2) n d).2 := by
    exact_mod_cast inUnits_pos hd _ _
  have hpow : (0 : ℚ) < 2 ^ ((n.log2 : Int) - d.log2) := by positivity
  unfold log2Ratio
  simp only
  split
  · rename_i hlt
    have hlt' : (n : ℚ) / d / 2 ^ ((n.log2 : Int) - d.log2) < 1 := by
      rw [← hratio, div_lt_one hunit]
      exact_mod_cast hlt
    refine (log_eq hlow ?_).symm
    rw [sub_add_cancel]
    exact (div_lt_one hpow).1 hlt'
  · rename_i hge
    have hge' : 1 ≤ (n : ℚ) / d / 2 ^ ((n.log2 : Int) - d.log2) := by
      rw [← hratio, one_le_div hunit]
      exact_mod_cast Nat.le_of_not_lt hge
    exact (log_eq ((one_le_div hpow).1 hge') hhigh).symm

theorem two_pow_le_shift {k : Nat} (hm : m ≠ 0) (hk : m.log2 ≤ k) :
    Nat.pow 2 k ≤ m * Nat.pow 2 (k - m.log2) :=
  calc Nat.pow 2 k = Nat.pow 2 (m.log2 + (k - m.log2)) := by rw [Nat.add_sub_of_le hk]
    _ = Nat.pow 2 m.log2 * Nat.pow 2 (k - m.log2) := Nat.pow_add ..
    _ ≤ m * Nat.pow 2 (k - m.log2) := Nat.mul_le_mul_right _ (Nat.log2_self_le hm)

theorem shift_lt_two_pow {k : Nat} (hk : m.log2 ≤ k) :
    m * Nat.pow 2 (k - m.log2) < Nat.pow 2 (k + 1) :=
  calc m * Nat.pow 2 (k - m.log2) < Nat.pow 2 (m.log2 + 1) * Nat.pow 2 (k - m.log2) :=
        Nat.mul_lt_mul_of_pos_right Nat.lt_log2_self (Nat.pow_pos Nat.two_pos)
    _ = Nat.pow 2 (m.log2 + 1 + (k - m.log2)) := (Nat.pow_add ..).symm
    _ = Nat.pow 2 (k + 1) := by rw [show m.log2 + 1 + (k - m.log2) = k + 1 by omega]

theorem le_divNearest (hd : 0 < d) (h : m * d ≤ n) : m ≤ divNearest n d := by
  have hq : m ≤ n / d := (Nat.le_div_iff_mul_le hd).2 h
  unfold divNearest
  simp only
  split
  · exact Nat.le_succ_of_le hq
  · exact hq

theorem divNearest_le (hd : 0 < d) (h : n ≤ m * d) : divNearest n d ≤ m := by
  have hdiv := Nat.div_add_mod n d
  rcases Nat.lt_or_eq_of_le (Nat.div_le_of_le_mul (Nat.mul_comm m d ▸ h)) with hlt | heq
  · unfold divNearest
    simp only
    split
    · exact hlt
    · exact hlt.le
  · have hrest : n % d = 0 := by
      rw [heq, Nat.mul_comm] at hdiv
      omega
    unfold divNearest
    simp only [hrest, heq]
    rw [if_neg (by omega)]

theorem divNearest_mul (hd : 0 < d) (m : Nat) : divNearest (m * d) d = m :=
  Nat.le_antisymm (divNearest_le hd (Nat.le_refl _)) (le_divNearest hd (Nat.le_refl _))

namespace Format

variable {f : Format}

def value (f : Format) (magnitude : Nat) : ℚ :=
  (f.significand magnitude).1 * 2 ^ (f.significand magnitude).2

/-- Magnitudes are places above the lowest one, each with as many patterns as a fraction has. -/
theorem significand_spec (f : Format) (magnitude : Nat) :
    ((f.significand magnitude).2 - f.lowest).toNat * Nat.pow 2 f.fraction +
      (f.significand magnitude).1 = magnitude := by
  have hdiv := Nat.div_add_mod magnitude (Nat.pow 2 f.fraction)
  rw [Nat.mul_comm] at hdiv
  unfold significand
  simp only
  split
  · rename_i hzero
    rw [hzero, Nat.zero_mul, Nat.zero_add] at hdiv
    rw [Int.sub_self, Int.toNat_zero, Nat.zero_mul, Nat.zero_add, hdiv]
  · rename_i hfield
    obtain ⟨k, hk⟩ := Nat.exists_eq_succ_of_ne_zero hfield
    rw [hk, Nat.succ_mul] at hdiv
    simp only [hk]
    rw [show (f.lowest + (k.succ : Nat) - 1 - f.lowest).toNat = k by omega]
    omega

theorem significand_lt (f : Format) (magnitude : Nat) :
    (f.significand magnitude).1 < Nat.pow 2 (f.fraction + 1) := by
  have hpos : 0 < Nat.pow 2 f.fraction := Nat.pow_pos Nat.two_pos
  have hmod := Nat.mod_lt magnitude hpos
  have hsucc : Nat.pow 2 (f.fraction + 1) = Nat.pow 2 f.fraction * 2 := rfl
  unfold significand
  simp only
  split
  · omega
  · omega

theorem significand_normal (f : Format) (magnitude : Nat) :
    f.lowest ≤ (f.significand magnitude).2 ∧
      (Nat.pow 2 f.fraction ≤ (f.significand magnitude).1 ∨
        (f.significand magnitude).2 = f.lowest) := by
  unfold significand
  simp only
  split
  · exact ⟨Int.le_refl _, .inr rfl⟩
  · rename_i hfield
    have hfield := Nat.pos_of_ne_zero hfield
    exact ⟨by omega, .inl (Nat.le_add_left ..)⟩

/-- A significand with its leading bit in front of the fraction, or a smaller one at the lowest
place, counts units of its place; so does one that carries into the next place. -/
theorem value_place {k : Nat} (hm : m ≤ Nat.pow 2 (f.fraction + 1))
    (hnormal : Nat.pow 2 f.fraction ≤ m ∨ k = 0) :
    f.value (k * Nat.pow 2 f.fraction + m) = m * 2 ^ (f.lowest + k) := by
  have hpos : 0 < Nat.pow 2 f.fraction := Nat.pow_pos Nat.two_pos
  have hsucc : Nat.pow 2 (f.fraction + 1) = Nat.pow 2 f.fraction * 2 := rfl
  have hparts : ∀ j r, r < Nat.pow 2 f.fraction →
      (j * Nat.pow 2 f.fraction + r) / Nat.pow 2 f.fraction = j ∧
        (j * Nat.pow 2 f.fraction + r) % Nat.pow 2 f.fraction = r := by
    intro j r hr
    rw [Nat.mul_comm, Nat.mul_add_div hpos, Nat.mul_add_mod, Nat.div_eq_of_lt hr,
      Nat.mod_eq_of_lt hr]
    exact ⟨rfl, rfl⟩
  -- Without a leading bit in front the pattern is subnormal; one that is carried starts the next
  -- place.
  rcases Nat.lt_or_ge m (Nat.pow 2 f.fraction) with hlt | hge
  · obtain rfl : k = 0 := hnormal.resolve_left (Nat.not_le.2 hlt)
    obtain ⟨hdiv, hmod⟩ := hparts 0 m hlt
    unfold value significand
    simp only [hdiv, hmod, if_true, Nat.cast_zero, add_zero]
  rcases Nat.lt_or_eq_of_le hm with hlt | rfl
  · obtain ⟨r, rfl⟩ := Nat.exists_eq_add_of_le' hge
    obtain ⟨hdiv, hmod⟩ := hparts (k + 1) r (by omega)
    have hplace : k * Nat.pow 2 f.fraction + (r + Nat.pow 2 f.fraction) =
        (k + 1) * Nat.pow 2 f.fraction + r := by
      rw [Nat.succ_mul]
      omega
    unfold value significand
    simp only [hplace, hdiv, hmod, if_neg (Nat.succ_ne_zero k)]
    rw [show f.lowest + ((k + 1 : Nat) : Int) - 1 = f.lowest + k by omega]
  · obtain ⟨hdiv, hmod⟩ := hparts (k + 2) 0 hpos
    have hplace : k * Nat.pow 2 f.fraction + Nat.pow 2 (f.fraction + 1) =
        (k + 2) * Nat.pow 2 f.fraction + 0 := by
      rw [hsucc, Nat.add_mul]
      omega
    unfold value significand
    simp only [hplace, hdiv, hmod, if_neg (Nat.succ_ne_zero (k + 1))]
    rw [show f.lowest + ((k + 2 : Nat) : Int) - 1 = f.lowest + k + 1 by omega,
      zpow_add_one₀ two_ne_zero, hsucc]
    push_cast
    ring

/-- A number with its leading bit in front of the fraction, or a smaller one at the lowest place,
is rounded at its own place. -/
theorem place_eq {r : ℚ} (hr : r = m * 2 ^ q) (hm0 : m ≠ 0) (hm : m < Nat.pow 2 (f.fraction + 1))
    (hq : f.lowest ≤ q) (hnormal : Nat.pow 2 f.fraction ≤ m ∨ q = f.lowest) :
    max (Int.log 2 r - f.fraction) f.lowest = q := by
  have hlog : Int.log 2 r = m.log2 + q := by
    have hpow : (0 : ℚ) < 2 ^ q := by positivity
    rw [hr]
    refine log_eq ?_ ?_
    · rw [zpow_add₀ two_ne_zero]
      exact mul_le_mul_of_nonneg_right (two_pow_log2_le hm0) hpow.le
    · rw [add_right_comm, zpow_add₀ two_ne_zero]
      exact mul_lt_mul_of_pos_right (lt_two_pow_log2 m) hpow
  have hle : m.log2 ≤ f.fraction := Nat.le_of_lt_succ ((Nat.log2_lt hm0).2 hm)
  rw [hlog]
  rcases hnormal with hnormal | rfl
  · have hge : f.fraction ≤ m.log2 := (Nat.le_log2 hm0).2 hnormal
    omega
  · omega

theorem round_of_ratio (hd : 0 < d) (hratio : (n : ℚ) / d = m * 2 ^ q)
    (hm : m < Nat.pow 2 (f.fraction + 1)) (hq : f.lowest ≤ q)
    (hnormal : Nat.pow 2 f.fraction ≤ m ∨ q = f.lowest) :
    f.round n d = min f.infinity ((q - f.lowest).toNat * Nat.pow 2 f.fraction + m) := by
  have hd' : (d : ℚ) ≠ 0 := by exact_mod_cast Nat.ne_of_gt hd
  have hpow : (2 : ℚ) ^ q ≠ 0 := by positivity
  have hzero : n = 0 ↔ m = 0 := by
    have h : (n : ℚ) = m * 2 ^ q * d := (div_eq_iff hd').1 hratio
    constructor
    · rintro rfl
      have hm0 := mul_eq_zero.1 (mul_eq_zero.1 h.symm |>.resolve_right hd') |>.resolve_right hpow
      exact_mod_cast hm0
    · rintro rfl
      rw [Nat.cast_zero, zero_mul, zero_mul] at h
      exact_mod_cast h
  unfold round
  split
  · rename_i hn
    obtain rfl := hzero.1 hn
    obtain rfl : q = f.lowest := hnormal.resolve_left (Nat.not_le.2 (Nat.pow_pos Nat.two_pos))
    rw [Int.sub_self, Int.toNat_zero, Nat.zero_mul, Nat.min_zero]
  · rename_i hn
    have hunit : 0 < (inUnits q n d).2 := inUnits_pos hd q n
    have hunit' : ((inUnits q n d).2 : ℚ) ≠ 0 := by exact_mod_cast Nat.ne_of_gt hunit
    have hwhole : (inUnits q n d).1 = m * (inUnits q n d).2 := by
      have h := inUnits_ratio hd q n
      rw [hratio, mul_div_cancel_right₀ _ hpow] at h
      exact_mod_cast (div_eq_iff hunit').1 h
    rw [log2Ratio_eq hn hd, place_eq hratio (mt hzero.2 hn) hm hq hnormal]
    simp only [hwhole, divNearest_mul hunit]

theorem round_value (hd : 0 < d) {magnitude : Nat} (hfinite : magnitude ≤ f.infinity)
    (hratio : (n : ℚ) / d = f.value magnitude) : f.round n d = magnitude := by
  obtain ⟨hq, hnormal⟩ := f.significand_normal magnitude
  rw [round_of_ratio hd hratio (f.significand_lt magnitude) hq hnormal, f.significand_spec]
  exact Nat.min_eq_right hfinite

end Format
end ScopedTensor.Binary
