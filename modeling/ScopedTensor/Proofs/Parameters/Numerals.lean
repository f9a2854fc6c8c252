import Mathlib.Data.List.TakeWhile
import Mathlib.Data.Nat.Init
import ScopedTensor.Text.Numeral

/-! Numerals that are written and read again, and texts with blanks around them. -/

namespace ScopedTensor.Text

theorem digit?_digitChar : ∀ d < 10, digit? (Nat.digitChar d) = some d := by decide

theorem digits?_cons_of_none {c : Char} (hc : digit? c = none) (cs : List Char) :
    digits? (c :: cs) = none := by
  simp [digits?, hc]

theorem digits?_concat {cs : List Char} {c : Char} {ds : List Nat} {d : Nat}
    (hcs : digits? cs = some ds) (hc : digit? c = some d) :
    digits? (cs ++ [c]) = some (ds ++ [d]) := by
  unfold digits? at hcs
  split at hcs
  · cases hcs
  · simp [digits?, List.mapM_append, hcs, hc]

theorem ofDigits_concat (ds : List Nat) (d : Nat) :
    ofDigits (ds ++ [d]) = 10 * ofDigits ds + d := by
  rw [ofDigits, List.foldl_append]
  rfl

theorem exists_digits?_toDigits (n : Nat) :
    ∃ ds, digits? (Nat.toDigits 10 n) = some ds ∧ ofDigits ds = n := by
  induction n using Nat.strong_induction_on with
  | _ n ih =>
    by_cases hn : n < 10
    · rw [Nat.toDigits_of_lt_base hn]
      exact ⟨[n], by simp [digits?, digit?_digitChar n hn], by simp [ofDigits]⟩
    · obtain ⟨ds, hds, hvalue⟩ := ih (n / 10) (by omega)
      have hlast := digit?_digitChar (n % 10) (Nat.mod_lt n (by decide))
      rw [Nat.toDigits_of_base_le (by decide) (Nat.le_of_not_lt hn)]
      refine ⟨ds ++ [n % 10], digits?_concat hds hlast, ?_⟩
      rw [ofDigits_concat, hvalue]
      exact Nat.div_add_mod n 10

theorem toList_natural (n : Nat) : (toString n).toList = Nat.toDigits 10 n := by
  rw [Nat.toString_eq_repr, Nat.repr_eq_ofList_toDigits, String.toList_ofList]

theorem toList_integer_ofNat (n : Nat) : (toString (n : Int)).toList = Nat.toDigits 10 n :=
  toList_natural n

theorem toList_integer_negSucc (n : Nat) :
    (toString (Int.negSucc n)).toList = '-' :: Nat.toDigits 10 (n + 1) := by
  change ("-" ++ Nat.repr (n + 1)).toList = _
  simp [Nat.repr_eq_ofList_toDigits]

theorem natural?_of_digits? {bound : Nat} {cs : List Char} {ds : List Nat}
    (h : digits? cs = some ds) (hlt : ofDigits ds < bound) :
    natural? bound cs = some (ofDigits ds) := by
  unfold natural?
  split
  · rw [digits?_cons_of_none rfl] at h
    cases h
  · simp [h, hlt]

theorem integer?_of_digits? {bound : Nat} {cs : List Char} {ds : List Nat}
    (h : digits? cs = some ds) (hlt : ofDigits ds < bound) :
    integer? bound cs = some (ofDigits ds : Int) := by
  unfold integer?
  split
  rename_i hsigns
  split at hsigns
  · rw [digits?_cons_of_none rfl] at h
    cases h
  · rw [digits?_cons_of_none rfl] at h
    cases h
  · cases hsigns
    simp [h, hlt]

theorem natural?_toDigits {bound n : Nat} (hn : n < bound) :
    natural? bound (Nat.toDigits 10 n) = some n := by
  obtain ⟨ds, hds, rfl⟩ := exists_digits?_toDigits n
  exact natural?_of_digits? hds hn

theorem integer?_toString {bound : Nat} {i : Int} (hlo : -(bound : Int) ≤ i) (hhi : i < bound) :
    integer? bound (toString i).toList = some i := by
  cases i with
  | ofNat n =>
    obtain ⟨ds, hds, hvalue⟩ := exists_digits?_toDigits n
    have hlt : ofDigits ds < bound := by
      rw [hvalue]
      exact Int.ofNat_lt.1 hhi
    rw [Int.ofNat_eq_natCast, toList_integer_ofNat, integer?_of_digits? hds hlt, hvalue]
  | negSucc n =>
    obtain ⟨ds, hds, hvalue⟩ := exists_digits?_toDigits (n + 1)
    have hle : n + 1 ≤ bound := by omega
    rw [toList_integer_negSucc]
    simp [integer?, hds, hvalue, hle, Int.negSucc_eq]

theorem range_of_mem_toDigits {n : Nat} {c : Char} (hc : c ∈ Nat.toDigits 10 n) :
    48 ≤ c.toNat ∧ c.toNat ≤ 57 := by
  have hdigit := Nat.isDigit_of_mem_toDigits (by decide) (by decide) hc
  simp only [Char.isDigit, Bool.and_eq_true, decide_eq_true_eq] at hdigit
  exact ⟨UInt32.le_iff_toNat_le.1 hdigit.1, UInt32.le_iff_toNat_le.1 hdigit.2⟩

theorem range_of_mem_integer {i : Int} {c : Char} (hc : c ∈ (toString i).toList) :
    45 ≤ c.toNat ∧ c.toNat ≤ 57 := by
  cases i with
  | ofNat n =>
    rw [Int.ofNat_eq_natCast, toList_integer_ofNat] at hc
    have hdigit := range_of_mem_toDigits hc
    omega
  | negSucc n =>
    rw [toList_integer_negSucc] at hc
    rcases List.mem_cons.1 hc with rfl | hc
    · decide
    · have hdigit := range_of_mem_toDigits hc
      omega

def Plain (c : Char) : Prop := 33 ≤ c.toNat ∧ c.toNat ≤ 126 ∧ (c.toNat < 65 ∨ 90 < c.toNat)

instance (c : Char) : Decidable (Plain c) := inferInstanceAs (Decidable (_ ∧ _))

theorem plain_of_all {cs : List Char} (h : (cs.all fun c => decide (Plain c)) = true) :
    ∀ c ∈ cs, Plain c := by
  simpa using h

theorem isBlank_of_graphic {c : Char} (hlo : 33 ≤ c.toNat) (hhi : c.toNat ≤ 126) :
    isBlank c = false := by
  simp only [isBlank, Bool.or_eq_false_iff, Bool.and_eq_false_iff, decide_eq_false_iff_not,
    beq_eq_false_iff_ne]
  omega

theorem Plain.isBlank {c : Char} (hc : Plain c) : isBlank c = false :=
  isBlank_of_graphic hc.1 hc.2.1

theorem Plain.toLower {c : Char} (hc : Plain c) : c.toLower = c := by
  refine dif_neg fun hupper => ?_
  have hlo : 65 ≤ c.toNat := UInt32.le_iff_toNat_le.1 hupper.1
  have hhi : c.toNat ≤ 90 := UInt32.le_iff_toNat_le.1 hupper.2
  obtain ⟨-, -, hcase⟩ := hc
  omega

theorem isBlank_toLower (c : Char) : isBlank c.toLower = isBlank c := by
  unfold Char.toLower
  split
  · rename_i hupper
    have hlo : 65 ≤ c.toNat := UInt32.le_iff_toNat_le.1 hupper.1
    have hhi : c.toNat ≤ 90 := UInt32.le_iff_toNat_le.1 hupper.2
    have hlower : (c.val + ('a'.val - 'A'.val)).toNat = c.toNat + 32 := by
      rw [UInt32.toNat_add]
      exact Nat.mod_eq_of_lt (show c.toNat + 32 < _ by omega)
    rw [@isBlank_of_graphic c (by omega) (by omega)]
    exact isBlank_of_graphic ((show 33 ≤ c.toNat + 32 by omega).trans_eq hlower.symm)
      (hlower.trans_le (by omega))
  · rfl

theorem lower_of_plain {cs : List Char} (hcs : ∀ c ∈ cs, Plain c) : lower cs = cs :=
  (List.map_congr_left fun c hc => (hcs c hc).toLower).trans (List.map_id cs)

theorem dropWhile_isBlank {cs : List Char} (hcs : ∀ c ∈ cs, isBlank c = false) :
    cs.dropWhile isBlank = cs := by
  cases cs with
  | nil => rfl
  | cons c cs => simp [hcs c List.mem_cons_self]

theorem trimEnd_append {w behind : List Char} (hbehind : ∀ c ∈ behind, isBlank c = true)
    (hw : ∀ c ∈ w, isBlank c = false) : trimEnd (w ++ behind) = w := by
  unfold trimEnd
  rw [List.reverse_append, List.dropWhile_append_of_pos (by simpa using hbehind),
    dropWhile_isBlank (by simpa using hw), List.reverse_reverse]

theorem trim_surrounded {before w behind : List Char} (hbefore : ∀ c ∈ before, isBlank c = true)
    (hbehind : ∀ c ∈ behind, isBlank c = true) (hw : ∀ c ∈ w, isBlank c = false) :
    trim (before ++ w ++ behind) = w := by
  unfold trim
  rw [List.append_assoc, List.dropWhile_append_of_pos hbefore]
  cases w with
  | nil =>
    rw [List.nil_append, List.dropWhile_eq_nil_iff.2 hbehind]
    rfl
  | cons c w =>
    rw [List.cons_append, List.dropWhile_cons_of_neg (by simp [hw c List.mem_cons_self])]
    exact trimEnd_append hbehind hw

theorem trim_of_plain {w : List Char} (hw : ∀ c ∈ w, Plain c) : trim w = w := by
  have htrim := @trim_surrounded [] w [] (by simp) (by simp) fun c hc => (hw c hc).isBlank
  rwa [List.nil_append, List.append_nil] at htrim

theorem plain_of_mem_toDigits {n : Nat} {c : Char} (hc : c ∈ Nat.toDigits 10 n) : Plain c := by
  have hdigit := range_of_mem_toDigits hc
  unfold Plain
  omega

theorem plain_of_mem_integer {i : Int} {c : Char} (hc : c ∈ (toString i).toList) : Plain c := by
  have hdigit := range_of_mem_integer hc
  unfold Plain
  omega

end ScopedTensor.Text
