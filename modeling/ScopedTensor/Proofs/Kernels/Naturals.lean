import ScopedTensor.Binary.Double

/-! Natural numbers in double precision. No positive one becomes zero, and below two to the
fifty-three, where nothing is rounded, no two become the same. -/

namespace ScopedTensor.Binary

variable {m n : Nat}

theorem log2Ratio_one (hn : n ≠ 0) : log2Ratio n 1 = Nat.log2 n := by
  have hunits : inUnits (Nat.log2 n : Int) n 1 = (n, Nat.pow 2 (Nat.log2 n)) := by
    unfold inUnits
    rw [if_pos (Int.natCast_nonneg _), Nat.one_mul, Int.toNat_natCast]
  have hlog : Nat.log2 1 = 0 := by decide
  unfold log2Ratio
  simp only [hlog, Int.natCast_zero, Int.sub_zero, hunits]
  exact if_neg (Nat.not_lt.2 (Nat.log2_self_le hn))

theorem divNearest_one (n : Nat) : divNearest n 1 = n := by
  unfold divNearest
  simp only [Nat.div_one, Nat.mod_one]
  exact if_neg (by omega)

def aligned (n : Nat) : Nat := n * Nat.pow 2 (52 - Nat.log2 n)

theorem le_aligned (hn : n ≠ 0) (hlog : Nat.log2 n ≤ 52) : Nat.pow 2 52 ≤ aligned n :=
  calc Nat.pow 2 52 = Nat.pow 2 (Nat.log2 n + (52 - Nat.log2 n)) := by
        rw [Nat.add_sub_of_le hlog]
    _ = Nat.pow 2 (Nat.log2 n) * Nat.pow 2 (52 - Nat.log2 n) := Nat.pow_add ..
    _ ≤ aligned n := Nat.mul_le_mul_right _ (Nat.log2_self_le hn)

theorem aligned_lt (hlog : Nat.log2 n ≤ 52) : aligned n < Nat.pow 2 53 :=
  calc aligned n < Nat.pow 2 (Nat.log2 n + 1) * Nat.pow 2 (52 - Nat.log2 n) :=
        Nat.mul_lt_mul_of_pos_right Nat.lt_log2_self (Nat.pow_pos (by decide))
    _ = Nat.pow 2 (Nat.log2 n + 1 + (52 - Nat.log2 n)) := (Nat.pow_add ..).symm
    _ = Nat.pow 2 53 := by rw [show Nat.log2 n + 1 + (52 - Nat.log2 n) = 53 by omega]

theorem log2_le (hlt : n < Nat.pow 2 53) : Nat.log2 n ≤ 52 := by
  cases n with
  | zero => decide
  | succ n => exact Nat.le_of_lt_succ ((Nat.log2_lt n.succ_ne_zero).2 hlt)

namespace Format

theorem round_pos (hn : n ≠ 0) : 0 < double.round n 1 := by
  have hlowest : double.lowest = -1074 := by decide
  unfold round
  simp only [if_neg hn, log2Ratio_one hn, hlowest]
  refine Nat.lt_min.2 ⟨by decide, Nat.add_pos_left (Nat.mul_pos ?_ (by decide)) _⟩
  have hfraction : double.fraction = 52 := rfl
  omega

theorem round_exact (hn : n ≠ 0) (hlt : n < Nat.pow 2 53) :
    double.round n 1 = (Nat.log2 n + 1022) * Nat.pow 2 52 + aligned n := by
  have hlog := log2_le hlt
  have hunits : inUnits ((Nat.log2 n : Int) - 52) n 1 = (aligned n, 1) := by
    unfold inUnits aligned
    split
    · rw [show Nat.log2 n = 52 by omega]
      exact Prod.ext (Nat.mul_one n).symm rfl
    · rw [show (-((Nat.log2 n : Int) - 52)).toNat = 52 - Nat.log2 n by omega]
  have hplace : max (Nat.log2 n - (double.fraction : Int)) double.lowest = Nat.log2 n - 52 :=
    Int.max_eq_left (show (-1074 : Int) ≤ Nat.log2 n - 52 by omega)
  have hexponent : ((Nat.log2 n : Int) - 52 - double.lowest).toNat = Nat.log2 n + 1022 :=
    show ((Nat.log2 n : Int) - 52 - -1074).toNat = _ by omega
  have hfinite : (Nat.log2 n + 1022) * Nat.pow 2 52 + aligned n ≤ double.infinity :=
    calc (Nat.log2 n + 1022) * Nat.pow 2 52 + aligned n
        ≤ 1074 * Nat.pow 2 52 + Nat.pow 2 53 :=
          Nat.add_le_add (Nat.mul_le_mul_right _ (by omega)) (Nat.le_of_lt (aligned_lt hlog))
      _ ≤ double.infinity := by decide
  unfold round
  simp only [if_neg hn, log2Ratio_one hn, hplace, hunits, hexponent, divNearest_one]
  exact Nat.min_eq_right hfinite

end Format

namespace Binary64

end Binary64
end ScopedTensor.Binary
