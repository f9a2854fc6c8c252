import ScopedTensor.Element.Codec

/-! Halves in their interchange format, a sign, five bits of exponent and ten of fraction. -/

namespace ScopedTensor.Interchange

open Binary

/-- The half nearest to a single precision number that is nearest to the double. -/
def narrowToHalf (x : Binary64) : Nat := convert .single .half (x.narrow .single)

scoped instance : HalfPrecision where
  narrow x := BitVec.ofNat 16 (narrowToHalf x)
  widen v := .widen .half v.toNat

end ScopedTensor.Interchange
