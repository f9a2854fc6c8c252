import ScopedTensor.Kernel.Lane

/-! Reductions of a lane to one number, and of an array along one axis or as a whole. -/

namespace ScopedTensor

open Binary

inductive Reduction where
  | sum | mean | max | min
  deriving DecidableEq, Repr

namespace Reduction

/-- A mean divides by the length of the lane, an empty one by one. -/
def divisor (n : Nat) : Binary64 := .ofNat (Nat.max n 1)

def ofLane : Reduction → Values → Binary64
  | .sum, xs => Binary.sum xs
  | .mean, xs => Binary.sum xs / divisor xs.length
  | .max, xs => xs.foldl Binary64.larger .negativeInfinity
  | .min, xs => xs.foldl Binary64.smaller .infinity

def extents (dims : List Nat) (size : Nat) : Option Nat → Extents
  | some axis => .around dims axis
  | none => .whole size

def apply (r : Reduction) (xs : Values) (dims : List Nat) (axis : Option Nat) : Values :=
  (extents dims xs.length axis).foldLanes r.ofLane xs

/-- For each element, the position of its lane's number in the reduced array. -/
def targets (dims : List Nat) : Option Nat → List Nat
  | none => List.replicate (Extents.product dims) 0
  | some axis => (List.range (Extents.product dims)).map (Extents.around dims axis).laneOf

/-- What one element hands back of the gradient of its lane's number. Every element equal to the
extremum receives it. -/
def share (r : Reduction) (count x reduced g : Binary64) : Binary64 :=
  match r with
  | .sum => g
  | .mean => g / count
  | .max | .min => if x.same reduced then g else .zero

def gradient (r : Reduction) (xs : Values) (dims : List Nat) (axis : Option Nat)
    (reduced g : Values) : Values :=
  let count := divisor (match axis with
    | some a => dims.getD a 1
    | none => Extents.product dims)
  let shareOf (j : Nat) (x : Binary64) : Binary64 :=
    r.share count x (reduced.getD j .zero) (g.getD j .zero)
  (targets dims axis).zipWith shareOf xs

end Reduction
end ScopedTensor
