import ScopedTensor.Binary.Double
import ScopedTensor.Element.Bytes
import ScopedTensor.Value.ElementType

/-! Elements as octets. Host buffers are little-endian; an engine reads every element as a double
and writes doubles back narrowed to the element type. -/

namespace ScopedTensor

open Binary

/-- The element types that have a counterpart among host scalars. -/
inductive HostType where
  | f16 | f32 | f64 | u8 | i8 | i32 | i64
  deriving DecidableEq, Repr

namespace HostType

def element : HostType → ElementType
  | f16 => .f16
  | f32 => .f32
  | f64 => .f64
  | u8 => .u8
  | i8 => .i8
  | i32 => .i32
  | i64 => .i64

def bytes (t : HostType) : Nat := t.element.bytes

end HostType

/-- Conversions between doubles and halves. Which half a double becomes is up to whoever provides
them. -/
class HalfPrecision where
  narrow : Binary64 → BitVec 16
  widen : BitVec 16 → Binary64

/-- A double that a half was widened to becomes that half again, if a double became it before, and
zero stays zero. -/
class LawfulHalfPrecision [HalfPrecision] : Prop where
  narrow_widen_narrow : ∀ x : Binary64,
    HalfPrecision.narrow (HalfPrecision.widen (HalfPrecision.narrow x)) = HalfPrecision.narrow x
  widen_narrow_zero : HalfPrecision.widen (HalfPrecision.narrow .zero) = .zero

abbrev HostValue (t : HostType) := BitVec (8 * t.bytes)

namespace HostValue

def toDouble [HalfPrecision] : (t : HostType) → HostValue t → Binary64
  | .f16, v => HalfPrecision.widen v
  | .f32, v => .widen .single v.toNat
  | .f64, v => .ofPattern v.toNat
  | .u8, v => .ofNat v.toNat
  | .i8, v => .ofInt v.toInt
  | .i32, v => .ofInt v.toInt
  | .i64, v => .ofInt v.toInt

def ofDouble [HalfPrecision] (t : HostType) (x : Binary64) : HostValue t :=
  match t with
  | .f16 => HalfPrecision.narrow x
  | .f32 => BitVec.ofNat _ (x.narrow .single)
  | .f64 => BitVec.ofNat _ x.pattern
  | .u8 => BitVec.ofInt _ (x.saturate 0 255)
  | .i8 => BitVec.ofInt _ (x.saturate (-128) 127)
  | .i32 => BitVec.ofInt _ (x.saturate (-Int.pow 2 31) (Int.pow 2 31 - 1))
  | .i64 => BitVec.ofInt _ (x.saturate (-Int.pow 2 63) (Int.pow 2 63 - 1))

def toInt? : (t : HostType) → HostValue t → Option Int
  | .u8, v => some v.toNat
  | .i8, v => some v.toInt
  | .i32, v => some v.toInt
  | .i64, v => some v.toInt
  | _, _ => none

def write (t : HostType) (v : HostValue t) : Bytes := Bytes.ofNat t.bytes v.toNat

def read (t : HostType) (bs : Bytes) : HostValue t := BitVec.ofNat _ bs.toNat

theorem read_write (t : HostType) (v : HostValue t) : read t (write t v) = v := by
  apply BitVec.eq_of_toNat_eq
  have hpow : Nat.pow 256 t.bytes = 2 ^ (8 * t.bytes) := (Nat.pow_mul 2 8 t.bytes).symm
  simp only [read, write, Bytes.toNat_ofNat, hpow, BitVec.toNat_ofNat,
    Nat.mod_eq_of_lt v.isLt]

def encode (t : HostType) (vs : List (HostValue t)) : Bytes := vs.flatMap (write t)

def decode (t : HostType) (bs : Bytes) : List (HostValue t) :=
  (Bytes.pieces t.bytes bs).map (read t)

end HostValue

namespace ElementType

variable [HalfPrecision]

/-- One element of a host buffer as a double; a boolean is any octet but zero. -/
def toDouble (t : ElementType) (bs : Bytes) : Binary64 :=
  match t with
  | f16 => HalfPrecision.widen (BitVec.ofNat 16 bs.toNat)
  | f32 => .widen .single bs.toNat
  | f64 => .ofPattern bs.toNat
  | u8 => .ofNat bs.toNat
  | i8 => .ofInt (Int.bmod bs.toNat (Nat.pow 2 8))
  | i32 => .ofInt (Int.bmod bs.toNat (Nat.pow 2 32))
  | i64 => .ofInt (Int.bmod bs.toNat (Nat.pow 2 64))
  | bool => .ofNat (if bs.toNat = 0 then 0 else 1)

/-- A double as one element: floating types round to nearest, integers drop the fraction and
saturate, and a boolean asks whether the number is zero. -/
def ofDouble (t : ElementType) (x : Binary64) : Bytes :=
  match t with
  | f16 => .ofNat 2 (HalfPrecision.narrow x).toNat
  | f32 => .ofNat 4 (x.narrow .single)
  | f64 => .ofNat 8 x.pattern
  | u8 => .ofNat 1 (x.saturate 0 255).toNat
  | i8 => signed 1 (x.saturate (-128) 127)
  | i32 => signed 4 (x.saturate (-Int.pow 2 31) (Int.pow 2 31 - 1))
  | i64 => signed 8 (x.saturate (-Int.pow 2 63) (Int.pow 2 63 - 1))
  | bool => .ofNat 1 (if x.isZero then 0 else 1)
where
  signed (n : Nat) (i : Int) : Bytes := .ofNat n (i % Int.pow 256 n).toNat

@[simp] theorem length_ofDouble (t : ElementType) (x : Binary64) :
    (t.ofDouble x).length = t.bytes := by
  cases t <;> simp [ofDouble, ofDouble.signed, bytes]

/-- What is left of a double after it went through storage of this type. -/
def cast (t : ElementType) (x : Binary64) : Binary64 := t.toDouble (t.ofDouble x)

theorem cast_f64 (x : Binary64) : f64.cast x = x := by
  have h := x.bits.toNat_lt
  simp only [cast, toDouble, ofDouble, Bytes.toNat_ofNat, Binary64.pattern, Binary64.ofPattern]
  rw [Nat.mod_eq_of_lt (by simpa using h)]
  simp

def decode (t : ElementType) (bs : Bytes) : List Binary64 :=
  (Bytes.pieces t.bytes bs).map t.toDouble

def encode (t : ElementType) (xs : List Binary64) : Bytes := xs.flatMap t.ofDouble

end ElementType
end ScopedTensor
