/-! Numbers as little-endian octets, and octet strings cut into pieces of one length. -/

namespace ScopedTensor

abbrev Bytes := List UInt8

namespace Bytes

def ofNat : Nat → Nat → Bytes
  | 0, _ => []
  | n + 1, v => UInt8.ofNat v :: ofNat n (v / 256)

def toNat : Bytes → Nat
  | [] => 0
  | b :: bs => b.toNat + 256 * toNat bs

@[simp] theorem length_ofNat (n v : Nat) : (ofNat n v).length = n := by
  induction n generalizing v with
  | zero => rfl
  | succ n ih => simp [ofNat, ih]

theorem toNat_ofNat (n v : Nat) : toNat (ofNat n v) = v % Nat.pow 256 n := by
  induction n generalizing v with
  | zero => simp [ofNat, toNat, Nat.mod_one]
  | succ n ih =>
    have h : v % Nat.pow 256 (n + 1) = v % 256 + 256 * (v / 256 % Nat.pow 256 n) := by
      have hpow : Nat.pow 256 (n + 1) = 256 * Nat.pow 256 n := Nat.mul_comm _ _
      rw [hpow, Nat.mod_mul]
    simp only [ofNat, toNat, ih, h, UInt8.toNat_ofNat']

theorem ofNat_toNat (bs : Bytes) : ofNat bs.length (toNat bs) = bs := by
  induction bs with
  | nil => rfl
  | cons b bs ih =>
    have hb := b.toNat_lt
    have hq : (b.toNat + 256 * toNat bs) / 256 = toNat bs := by omega
    simp only [List.length_cons, toNat, ofNat, hq, ih, List.cons.injEq, and_true]
    apply UInt8.toNat_inj.1
    rw [UInt8.toNat_ofNat']
    omega

/-- The pieces of length `n` from the front; a shorter rest is dropped. -/
def pieces (n : Nat) (bs : Bytes) : List Bytes :=
  (List.range (bs.length / n)).map fun i => (bs.drop (i * n)).take n

theorem length_of_mem_pieces {n : Nat} {bs p : Bytes} (h : p ∈ pieces n bs) : p.length = n := by
  obtain ⟨i, hi, rfl⟩ := List.mem_map.1 h
  have hi := List.mem_range.1 hi
  have hle : (i + 1) * n ≤ bs.length :=
    Nat.le_trans (Nat.mul_le_mul_right n hi) (Nat.div_mul_le_self ..)
  have hsucc : (i + 1) * n = i * n + n := Nat.succ_mul i n
  simp only [List.length_take, List.length_drop]
  omega

end Bytes
end ScopedTensor
