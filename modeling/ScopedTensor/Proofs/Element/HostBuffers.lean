import ScopedTensor.Element.Interchange
import ScopedTensor.Proofs.Conversions.Contents
import ScopedTensor.Proofs.Ownership.Untouched

/-! Host buffers, read and written as scalars of one type or, by the element type, as doubles. Both
ways go through the octets of one number, so they agree on order, sign and width. -/

namespace ScopedTensor

open ScopedTensor.Action Binary Session

section

variable {half : HalfPrecision}

namespace Bytes

theorem toNat_lt (bs : Bytes) : bs.toNat < Nat.pow 256 bs.length := by
  have h := toNat_ofNat bs.length bs.toNat
  rw [ofNat_toNat] at h
  exact h ▸ Nat.mod_lt _ (Nat.pow_pos (by decide))

theorem ofNat_mod (n v : Nat) : ofNat n (v % Nat.pow 256 n) = ofNat n v := by
  have h := ofNat_toNat (ofNat n v)
  rwa [length_ofNat, toNat_ofNat] at h

/-- `p` is the longest beginning of `bs` that consists of whole elements of `n` octets. -/
structure LongestWhole (n : Nat) (bs p : Bytes) : Prop where
  front : p <+: bs
  whole : n ∣ p.length
  longest : ∀ q, q <+: bs → n ∣ q.length → q <+: p

theorem flatten_pieces (n : Nat) (bs : Bytes) :
    (pieces n bs).flatten = bs.take (bs.length / n * n) := by
  unfold pieces
  induction bs.length / n with
  | zero => simp
  | succ k ih =>
    rw [List.range_succ, List.map_append, List.flatten_append, ih, Nat.succ_mul, List.take_add]
    simp

theorem longestWhole_flatten_pieces {n : Nat} (hn : 0 < n) (bs : Bytes) :
    LongestWhole n bs (pieces n bs).flatten := by
  rw [flatten_pieces]
  refine ⟨List.take_prefix .., ?_, fun q hq hdvd => List.prefix_take_iff.2 ⟨hq, ?_⟩⟩
  · rw [List.length_take, Nat.min_eq_left (Nat.div_mul_le_self ..)]
    exact Nat.dvd_mul_left ..
  · obtain ⟨k, hk⟩ := hdvd
    have hle : k * n ≤ bs.length := by rw [Nat.mul_comm, ← hk]; exact hq.length_le
    rw [hk, Nat.mul_comm]
    exact Nat.mul_le_mul_right n ((Nat.le_div_iff_mul_le hn).2 hle)

end Bytes

namespace HostValue

variable {t : HostType}

theorem pow_bytes (t : HostType) : Nat.pow 256 t.bytes = 2 ^ (8 * t.bytes) :=
  (Nat.pow_mul 2 8 t.bytes).symm

theorem length_write (v : HostValue t) : (write t v).length = t.bytes := Bytes.length_ofNat ..

theorem toNat_read {p : Bytes} (hp : p.length = t.bytes) : (read t p).toNat = p.toNat := by
  rw [read, BitVec.toNat_ofNat, ← pow_bytes, ← hp]
  exact Nat.mod_eq_of_lt p.toNat_lt

theorem write_read {p : Bytes} (hp : p.length = t.bytes) : write t (read t p) = p := by
  rw [write, toNat_read hp, ← hp, Bytes.ofNat_toNat]

theorem pieces_encode (vs : List (HostValue t)) :
    Bytes.pieces t.bytes (encode t vs) = vs.map (write t) :=
  Bytes.pieces_flatMap t.element.bytes_pos length_write vs

theorem decode_encode (vs : List (HostValue t)) : decode t (encode t vs) = vs := by
  rw [decode, pieces_encode, List.map_map]
  exact (List.map_congr_left fun v _ => read_write t v).trans (List.map_id vs)

theorem encode_decode (bs : Bytes) :
    encode t (decode t bs) = (Bytes.pieces t.bytes bs).flatten := by
  unfold encode decode
  rw [List.flatMap_def, List.map_map]
  refine congrArg List.flatten ((List.map_congr_left fun p hp => ?_).trans (List.map_id _))
  exact write_read (Bytes.length_of_mem_pieces hp)

theorem toDouble_read {p : Bytes} (hp : p.length = t.bytes) :
    t.element.toDouble p = toDouble t (read t p) := by
  have hread := toNat_read hp
  cases t with
  | f16 => rfl
  | f32 | f64 | u8 => simp only [HostType.element, ElementType.toDouble, toDouble, hread]
  | i8 | i32 | i64 =>
    exact congrArg Binary64.ofInt (BitVec.toInt_ofNat (n := _) (x := p.toNat)).symm

theorem signed_eq (t : HostType) (i : Int) :
    ElementType.ofDouble.signed t.bytes i = write t (BitVec.ofInt _ i) := by
  have hpow : Int.pow 256 t.bytes = (2 ^ (8 * t.bytes) : Nat) :=
    pow_bytes t ▸ (Int.natCast_pow 256 t.bytes).symm
  rw [write, BitVec.toNat_ofInt, ElementType.ofDouble.signed, hpow]

theorem write_ofNat (t : HostType) (n : Nat) :
    write t (BitVec.ofNat _ n) = Bytes.ofNat t.bytes n := by
  rw [write, BitVec.toNat_ofNat, ← pow_bytes, Bytes.ofNat_mod]

theorem ofDouble_eq_write (t : HostType) (x : Binary64) :
    t.element.ofDouble x = write t (ofDouble t x) := by
  cases t with
  | f16 => rfl
  | f32 => exact (write_ofNat .f32 _).symm
  | f64 => exact (write_ofNat .f64 _).symm
  | u8 =>
    -- the only unsigned type: what it saturates to is no negative number, so no modulus is left
    have hpos : 0 ≤ x.saturate 0 255 := Binary64.le_saturate x (by decide) (by decide)
    have hpattern : ofDouble .u8 x = BitVec.ofNat _ (x.saturate 0 255).toNat := by
      rw [← BitVec.ofInt_natCast, Int.toNat_of_nonneg hpos]
      rfl
    rw [hpattern, write_ofNat]
    rfl
  | i8 => exact signed_eq .i8 _
  | i32 => exact signed_eq .i32 _
  | i64 => exact signed_eq .i64 _

theorem map_toDouble_decode (t : HostType) (bs : Bytes) :
    t.element.decode bs = (decode t bs).map (toDouble t) := by
  unfold ElementType.decode decode
  rw [List.map_map]
  exact List.map_congr_left fun p hp => toDouble_read (Bytes.length_of_mem_pieces hp)

theorem encode_map_ofDouble (t : HostType) (xs : List Binary64) :
    t.element.encode xs = encode t (xs.map (ofDouble t)) := by
  unfold ElementType.encode encode
  rw [List.flatMap_map]
  exact congrArg (List.flatMap · xs) (funext (ofDouble_eq_write t))

end HostValue

theorem Session.toDoubles_eq {σ : Type} {id : ArrayId} {t : HostType} {s : Session σ}
    (ht : ∀ u s', Session.type id s = .ok u s' → u = t.element) :
    toDoubles id s = (List.map (HostValue.toDouble t) <$> toValues id t) s := by
  unfold toDoubles toValues
  rw [map_bind]
  cases htype : Session.type id s with
  | error e s' => rw [bind_error htype, bind_error htype]
  | ok u s' =>
    obtain rfl := ht u s' htype
    rw [bind_of_ok htype, bind_of_ok htype, if_neg (not_not.2 rfl)]
    simp only [HostValue.map_toDouble_decode, map_bind, map_pure]

/-- Scalars of a host type and the octets of a host buffer determine each other, up to a part of an
element at the end; an engine, which goes by the element type, reads and writes each element as the
scalar type does, and contents read as doubles are the contents read as scalars, widened. -/
theorem host_buffers_roundtrip [HalfPrecision] (t : HostType) :
    (∀ vs : List (HostValue t),
      HostValue.decode t (HostValue.encode t vs) = vs ∧
      (HostValue.encode t vs).length = t.element.bytes * vs.length ∧
      Bytes.pieces t.element.bytes (HostValue.encode t vs) = vs.map (HostValue.write t)) ∧
    (∀ bs : Bytes,
      Bytes.LongestWhole t.element.bytes bs (HostValue.encode t (HostValue.decode t bs))) ∧
    (∀ bs : Bytes, bs.length = t.element.bytes →
      t.element.toDouble bs = HostValue.toDouble t (HostValue.read t bs)) ∧
    (∀ x : Binary64, t.element.ofDouble x = HostValue.write t (HostValue.ofDouble t x)) ∧
    (∀ bs : Bytes, t.element.decode bs = (HostValue.decode t bs).map (HostValue.toDouble t)) ∧
    (∀ xs : List Binary64,
      t.element.encode xs = HostValue.encode t (xs.map (HostValue.ofDouble t))) ∧
    ∀ (σ : Type) (id : ArrayId) (s : Session σ),
      (∀ u s', Session.type id s = .ok u s' → u = t.element) →
        toDoubles id s = (List.map (HostValue.toDouble t) <$> toValues id t) s := by
  refine ⟨fun vs => ?_, fun bs => ?_, fun _ => HostValue.toDouble_read,
    HostValue.ofDouble_eq_write t, HostValue.map_toDouble_decode t,
    HostValue.encode_map_ofDouble t, fun _ _ _ => toDoubles_eq⟩
  · exact ⟨HostValue.decode_encode vs, HostValue.length_encode t vs, HostValue.pieces_encode vs⟩
  · rw [HostValue.encode_decode]
    exact Bytes.longestWhole_flatten_pieces t.element.bytes_pos bs

end

open Interchange

/-- An array of two signed octets, one of them negative, and the engine that stores it. -/
def Session.signedPair : Session Reference.State :=
  { start (Library.Call.run (Reference.library 0)
      [.create .cpu ⟨[2]⟩ .i8 .dense false, .copyIn ⟨1⟩ [0xFE, 3] 2] .initial) with
    arrays := ⟨[(1,
      { owned := ⟨⟨1⟩⟩
        engine := ⟨1, Reference.library 0, .empty⟩
        shape := some ⟨[2]⟩
        type := some .i8
        device := none
        storage := none
        name := none
        readiness := .pending
        owner := none
        gradient := none })]⟩ }

/-- An octet that stands for a negative number, alone and as contents of an array. -/
theorem host_buffers_roundtrip_negative :
    ElementType.i8.toDouble [0xFE] = HostValue.toDouble .i8 (0xFE : BitVec 8) ∧
    ∃ t, toDoubles 1 signedPair = .ok [Binary64.ofInt (-2), Binary64.ofInt 3] t := by
  obtain ⟨-, -, hread, -, -, -, hcontents⟩ := host_buffers_roundtrip .i8
  have htype : ∀ u s', Session.type 1 signedPair = .ok u s' → u = .i8 := by
    intro u s' h
    obtain ⟨rfl, -⟩ := EStateM.Result.ok.inj h
    rfl
  refine ⟨hread [0xFE] rfl, ?_⟩
  rw [hcontents _ 1 signedPair htype]
  exact ⟨_, rfl⟩

end ScopedTensor
