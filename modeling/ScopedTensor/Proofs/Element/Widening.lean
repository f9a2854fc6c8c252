import Mathlib.Tactic.Linarith
import ScopedTensor.Proofs.Element.Rounding

/-! Conversion between formats of which one holds every number of the other. What a conversion to
the smaller format has left survives the way through a larger one. -/

namespace ScopedTensor.Binary

namespace Format

variable {f g k : Format} {magnitude payload : Nat}

theorem infinity_add (f : Format) : f.infinity + Nat.pow 2 f.fraction = f.signBit := by
  have hpos : 0 < Nat.pow 2 f.exponent := Nat.pow_pos Nat.two_pos
  calc f.infinity + Nat.pow 2 f.fraction
      = (Nat.pow 2 f.exponent - 1 + 1) * Nat.pow 2 f.fraction := (Nat.succ_mul _ _).symm
    _ = Nat.pow 2 f.fraction * Nat.pow 2 f.exponent := by
        rw [Nat.sub_add_cancel hpos, Nat.mul_comm]
    _ = f.signBit := (Nat.pow_add 2 f.fraction f.exponent).symm

theorem isNegative_withSign (h : magnitude < f.signBit) (negative : Bool) :
    f.isNegative (f.withSign negative magnitude) = negative := by
  unfold isNegative withSign
  cases negative
  · exact decide_eq_false (Nat.not_le.2 h)
  · exact decide_eq_true (Nat.le_add_right _ _)

theorem magnitude_withSign (h : magnitude < f.signBit) (negative : Bool) :
    f.magnitude (f.withSign negative magnitude) = magnitude := by
  unfold Format.magnitude withSign
  cases negative
  · exact Nat.mod_eq_of_lt h
  · exact (Nat.add_mod_left _ _).trans (Nat.mod_eq_of_lt h)

theorem withSign_lt (h : magnitude < f.signBit) (negative : Bool) :
    f.withSign negative magnitude < 2 * f.signBit := by
  unfold withSign
  split
  all_goals omega

def Within (f g : Format) : Prop :=
  ∀ magnitude < f.infinity, ∃ other < g.infinity, g.value other = f.value magnitude

theorem Within.refl (f : Format) : f.Within f := fun magnitude h => ⟨magnitude, h, rfl⟩

theorem value_zero (f : Format) : f.value 0 = 0 := by
  simp [value, significand]

/-- A format with a longer fraction holds the numbers of another, where its places reach low enough
to shift any of them up and high enough for the largest. -/
theorem within_of_places (hfraction : f.fraction ≤ g.fraction)
    (hlow : g.lowest + g.fraction ≤ f.lowest)
    (htop : f.lowest + Nat.pow 2 f.exponent + f.fraction <
      g.lowest + Nat.pow 2 g.exponent + g.fraction) : f.Within g := by
  intro magnitude hfinite
  have hspec := f.significand_spec magnitude
  have hvalue : f.value magnitude =
    (f.significand magnitude).1 * 2 ^ (f.significand magnitude).2 := rfl
  have hlt := f.significand_lt magnitude
  have hq := (f.significand_normal magnitude).1
  generalize (f.significand magnitude).1 = m at *
  generalize (f.significand magnitude).2 = q at *
  have hpos : 0 < Nat.pow 2 f.exponent := Nat.pow_pos Nat.two_pos
  by_cases hm : m = 0
  · refine ⟨0, Nat.mul_pos (by omega) (Nat.pow_pos Nat.two_pos), ?_⟩
    rw [value_zero, hvalue, hm, Nat.cast_zero, zero_mul]
  have hlog : m.log2 ≤ f.fraction := Nat.le_of_lt_succ ((Nat.log2_lt hm).2 hlt)
  have hplace : (q - f.lowest).toNat < Nat.pow 2 f.exponent - 1 := by
    refine Nat.lt_of_mul_lt_mul_right (a := Nat.pow 2 f.fraction) ?_
    exact Nat.lt_of_le_of_lt (Nat.le_add_right _ _) (hspec.trans_lt hfinite)
  obtain ⟨j, hj⟩ : ∃ j : Nat, q - (g.fraction - m.log2 : Nat) = g.lowest + j :=
    ⟨(q - (g.fraction - m.log2 : Nat) - g.lowest).toNat, by omega⟩
  have hshift : m.log2 ≤ g.fraction := hlog.trans hfraction
  have hnormal := two_pow_le_shift hm hshift
  have hbound := shift_lt_two_pow hshift
  refine ⟨j * Nat.pow 2 g.fraction + m * Nat.pow 2 (g.fraction - m.log2), ?_, ?_⟩
  · have hsucc : Nat.pow 2 (g.fraction + 1) = 2 * Nat.pow 2 g.fraction := Nat.mul_comm _ _
    calc j * Nat.pow 2 g.fraction + m * Nat.pow 2 (g.fraction - m.log2)
        < j * Nat.pow 2 g.fraction + 2 * Nat.pow 2 g.fraction := by omega
      _ = (j + 2) * Nat.pow 2 g.fraction := (Nat.add_mul ..).symm
      _ ≤ g.infinity := Nat.mul_le_mul_right _ (by omega)
  · rw [value_place hbound.le (.inl hnormal), hvalue, ← hj, zpow_sub₀ two_ne_zero, zpow_natCast,
      Nat.pow_eq]
    push_cast
    field_simp

theorem half_within_single : half.Within single :=
  within_of_places (by decide) (by decide) (by decide)

theorem half_within_double : half.Within double :=
  within_of_places (by decide) (by decide) (by decide)

theorem single_within_double : single.Within double :=
  within_of_places (by decide) (by decide) (by decide)

theorem round_le_infinity (f : Format) (n d : Nat) : f.round n d ≤ f.infinity := by
  unfold round
  split
  · exact Nat.zero_le _
  · exact Nat.min_le_left _ _

/-- The patterns that a conversion makes: finite or infinite numbers, and quiet patterns. -/
inductive Settled (f : Format) : Nat → Prop
  | number (negative : Bool) {magnitude : Nat} (h : magnitude ≤ f.infinity) :
    Settled f (f.withSign negative magnitude)
  | quiet (negative : Bool) {payload : Nat} (hlt : payload < Nat.pow 2 f.fraction)
    (hquiet : payload ||| f.quietBit = payload) :
    Settled f (f.withSign negative (f.infinity + payload))

def keep (f g : Format) (payload : Nat) : Nat :=
  if f.fraction ≤ g.fraction then payload * Nat.pow 2 (g.fraction - f.fraction)
  else payload / Nat.pow 2 (f.fraction - g.fraction)

theorem keep_lt (h : payload < Nat.pow 2 f.fraction) : keep f g payload < Nat.pow 2 g.fraction := by
  unfold keep
  split
  · rename_i hle
    calc payload * Nat.pow 2 (g.fraction - f.fraction)
        < Nat.pow 2 f.fraction * Nat.pow 2 (g.fraction - f.fraction) :=
          Nat.mul_lt_mul_of_pos_right h (Nat.pow_pos Nat.two_pos)
      _ = Nat.pow 2 (f.fraction + (g.fraction - f.fraction)) := (Nat.pow_add ..).symm
      _ = Nat.pow 2 g.fraction := by rw [Nat.add_sub_of_le hle]
  · rename_i hle
    refine (Nat.div_lt_iff_lt_mul (Nat.pow_pos Nat.two_pos)).2 (h.trans_eq ?_)
    calc Nat.pow 2 f.fraction = Nat.pow 2 (g.fraction + (f.fraction - g.fraction)) := by
          rw [Nat.add_sub_of_le (Nat.le_of_not_le hle)]
      _ = Nat.pow 2 g.fraction * Nat.pow 2 (f.fraction - g.fraction) := Nat.pow_add ..

theorem keep_quiet (hf : 0 < f.fraction) (hle : f.fraction ≤ g.fraction)
    (hquiet : payload ||| f.quietBit = payload) :
    keep f g payload ||| g.quietBit = keep f g payload := by
  have hbit : g.quietBit = f.quietBit <<< (g.fraction - f.fraction) := by
    unfold quietBit
    rw [Nat.shiftLeft_eq]
    exact (congrArg (Nat.pow 2) (show g.fraction - 1 =
      f.fraction - 1 + (g.fraction - f.fraction) by omega)).trans (Nat.pow_add ..)
  have hkeep : keep f g payload = payload <<< (g.fraction - f.fraction) := by
    unfold keep
    rw [if_pos hle, Nat.shiftLeft_eq]
    rfl
  rw [hkeep, hbit, ← Nat.shiftLeft_or_distrib, hquiet]

theorem keep_keep (hfg : f.fraction ≤ g.fraction) (hgk : g.fraction ≤ k.fraction) :
    keep k g (keep f k payload) = keep f g payload := by
  have hsplit : payload * Nat.pow 2 (k.fraction - f.fraction) =
      payload * Nat.pow 2 (g.fraction - f.fraction) * Nat.pow 2 (k.fraction - g.fraction) := by
    rw [Nat.mul_assoc]
    exact congrArg (payload * ·) ((congrArg (Nat.pow 2) (show k.fraction - f.fraction =
      g.fraction - f.fraction + (k.fraction - g.fraction) by omega)).trans (Nat.pow_add ..))
  unfold keep
  rw [if_pos hfg, if_pos (hfg.trans hgk), hsplit]
  split
  · rename_i hle
    rw [Nat.le_antisymm hgk hle, Nat.sub_self]
    exact (Nat.mul_one _).trans (Nat.mul_one _)
  · exact Nat.mul_div_cancel _ (Nat.pow_pos Nat.two_pos)

end Format

open Format

variable {f g k : Format} {magnitude payload b : Nat}

theorem convert_number (h : magnitude < f.infinity) (negative : Bool) :
    convert f g (f.withSign negative magnitude) = g.withSign negative
      (g.round (scaled (f.significand magnitude).1 (f.significand magnitude).2).1
        (scaled (f.significand magnitude).1 (f.significand magnitude).2).2) := by
  have hlt : magnitude < f.signBit := h.trans_le (f.infinity_add ▸ Nat.le_add_right _ _)
  unfold convert Format.isNaN Format.isInfinite
  simp only [isNegative_withSign hlt, magnitude_withSign hlt, decide_eq_false (Nat.not_lt.2 h.le),
    beq_false_of_ne (Nat.ne_of_lt h), Bool.false_eq_true, if_false]

theorem convert_value (h : magnitude < f.infinity) {other : Nat} (hother : other ≤ g.infinity)
    (hvalue : g.value other = f.value magnitude) (negative : Bool) :
    convert f g (f.withSign negative magnitude) = g.withSign negative other := by
  rw [convert_number h, round_value (scaled_pos _ _) hother ((scaled_ratio _ _).trans hvalue.symm)]

theorem convert_infinity (f g : Format) (negative : Bool) :
    convert f g (f.withSign negative f.infinity) = g.withSign negative g.infinity := by
  have hlt : f.infinity < f.signBit :=
    f.infinity_add ▸ Nat.lt_add_of_pos_right (Nat.pow_pos Nat.two_pos)
  unfold convert Format.isNaN Format.isInfinite
  simp only [isNegative_withSign hlt, magnitude_withSign hlt,
    decide_eq_false (Nat.lt_irrefl _), beq_self_eq_true, Bool.false_eq_true, if_false, if_true]

theorem convert_quiet (hlt : payload < Nat.pow 2 f.fraction) (hne : payload ≠ 0) (negative : Bool) :
    convert f g (f.withSign negative (f.infinity + payload)) =
      g.withSign negative (g.infinity + (keep f g payload ||| g.quietBit)) := by
  have hbelow : f.infinity + payload < f.signBit :=
    f.infinity_add ▸ Nat.add_lt_add_left hlt _
  have hmod : (f.infinity + payload) % Nat.pow 2 f.fraction = payload := by
    unfold infinity
    rw [Nat.mul_comm, Nat.mul_add_mod, Nat.mod_eq_of_lt hlt]
  unfold convert Format.isNaN
  simp only [isNegative_withSign hbelow, magnitude_withSign hbelow, hmod,
    decide_eq_true (Nat.lt_add_of_pos_right (Nat.pos_of_ne_zero hne)), if_true]
  rfl

theorem quiet_lt (hf : 0 < f.fraction) (h : payload < Nat.pow 2 f.fraction) :
    payload ||| f.quietBit < Nat.pow 2 f.fraction :=
  Nat.or_lt_two_pow h (Nat.pow_lt_pow_right (by decide) (Nat.sub_lt hf Nat.one_pos))

theorem ne_zero_of_quiet (hquiet : payload ||| f.quietBit = payload) : payload ≠ 0 := by
  rintro rfl
  rw [Nat.zero_or] at hquiet
  exact Nat.ne_of_gt (Nat.pow_pos Nat.two_pos) hquiet

theorem settled_convert (hg : 0 < g.fraction) (f : Format) (b : Nat) : Settled g (convert f g b) := by
  unfold convert
  simp only
  split
  · refine .quiet _ (quiet_lt hg (keep_lt (Nat.mod_lt _ (Nat.pow_pos Nat.two_pos)))) ?_
    rw [Nat.or_assoc, Nat.or_self]
  · split
    · exact .number _ (Nat.le_refl _)
    · exact .number _ (round_le_infinity _ _ _)

/-- A settled pattern may pass through a format that holds all numbers of the target. -/
theorem convert_convert (hf : 0 < f.fraction) (hfg : f.fraction ≤ g.fraction)
    (hgk : g.fraction ≤ k.fraction) (hg : f.Within g) (hk : f.Within k) (hb : Settled f b) :
    convert k g (convert f k b) = convert f g b := by
  cases hb with
  | @number negative magnitude h =>
    rcases Nat.lt_or_eq_of_le h with hlt | rfl
    · obtain ⟨wide, hwide, hvalue⟩ := hk magnitude hlt
      obtain ⟨other, hother, hvalue'⟩ := hg magnitude hlt
      rw [convert_value hlt hwide.le hvalue, convert_value hlt hother.le hvalue',
        convert_value hwide hother.le (hvalue'.trans hvalue.symm)]
    · rw [convert_infinity, convert_infinity, convert_infinity]
  | @quiet negative payload hlt hquiet =>
    have hwide := keep_quiet hf (hfg.trans hgk) hquiet
    rw [convert_quiet hlt (ne_zero_of_quiet hquiet), convert_quiet hlt (ne_zero_of_quiet hquiet),
      hwide, convert_quiet (keep_lt hlt) (ne_zero_of_quiet hwide), keep_keep hfg hgk]

theorem convert_self (hb : Settled f b) : convert f f b = b := by
  cases hb with
  | @number negative magnitude h =>
    rcases Nat.lt_or_eq_of_le h with hlt | rfl
    · exact convert_value hlt h rfl negative
    · exact convert_infinity f f negative
  | @quiet negative payload hlt hquiet =>
    have hkeep : keep f f payload = payload := by
      unfold keep
      rw [if_pos (Nat.le_refl _), Nat.sub_self]
      exact Nat.mul_one _
    rw [convert_quiet hlt (ne_zero_of_quiet hquiet), hkeep, hquiet]

theorem Format.Settled.lt (hb : Settled f b) : b < 2 * f.signBit := by
  cases hb with
  | number negative h =>
    exact withSign_lt (h.trans_lt (f.infinity_add ▸
      Nat.lt_add_of_pos_right (Nat.pow_pos Nat.two_pos))) negative
  | quiet negative hlt hquiet =>
    exact withSign_lt (f.infinity_add ▸ Nat.add_lt_add_left hlt _) negative

end ScopedTensor.Binary
