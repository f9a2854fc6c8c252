import ScopedTensor.Proofs.Kernels.Sweeps

/-! The kernels with every access checked. Here an element is looked up, and a place written, only if
it is there, lists are paired off only if they are as long as each other, and neither a count nor the
temperature divides if it is zero; otherwise there is no result. For operands that were found fit no
kernel is ever stopped, and each result has as many elements as its shape announced; only sorting may
give up, on a long lane with something on it that is no number. -/

namespace ScopedTensor

open Binary

namespace Attempt

def mod (a b : Nat) : Attempt Nat := if b = 0 then (none : Option _) else pure (a % b)

theorem div_eq {b : Nat} (h : b ≠ 0) (a : Nat) : div a b = pure (a / b) := if_neg h

end Attempt

namespace Exact

def around (dims : List Nat) (axis : Nat) : Option Extents := do
  return ⟨Extents.product (dims.take axis), ← dims[axis]?, Extents.product (dims.drop (axis + 1))⟩

def putBack (e : Extents) (n : Nat) (rows : List Values) : Option Values := do
  let rows ← zipWith (fun _ row => row) e.starts rows
  (e.writes rows).foldlM (fun xs w => if w.1 < xs.length then some (xs.set w.1 w.2) else none)
    (List.replicate n .zero)

def mapLanes (e : Extents) (f : Values → Option Values) (xs : Values) : Option Values := do
  putBack e xs.length (← (← lanes e xs).mapM f)

def quotient (x divisor : Binary64) : Option Binary64 :=
  if divisor.isZero then none else some (x / divisor)

def reduceLane (r : Reduction) (xs : Values) : Option Binary64 :=
  match r with
  | .mean => quotient (Binary.sum xs) (Reduction.divisor xs.length)
  | _ => some (r.ofLane xs)

def reduce (r : Reduction) (xs : Values) (dims : List Nat) (axis : Option Nat) :
    Option Values := do
  let e ← match axis with
    | some axis => around dims axis
    | none => some (.whole xs.length)
  (← lanes e xs).mapM (reduceLane r)

def split (e : Extents) (parts : Nat) (xs : Values) : Option (List Values) :=
  if parts = 0 then none
  else (List.range parts).mapM fun p => do
    let blocks ← (List.range e.outer).mapM fun o =>
      slice (o * e.length * e.inner + p * e.chunkSize parts) (e.chunkSize parts) xs
    return blocks.flatten

def normalize (temperature : Binary64) (xs : Values) : Option Values := do
  let largest := xs.foldl Binary64.larger .negativeInfinity
  let es ← xs.mapM fun x => return (← quotient (x - largest) temperature).exp
  let total := es.foldl (· + ·) Binary64.zero
  return es.map (· / total)

def splitPlan (params : Params) (shape : Shape) : Attempt Operator.SplitPlan := do
  let axis ← Attempt.ofExcept (Operator.split.axisOr params shape 1)
  let parts ← Attempt.ofExcept
    (Operator.split.require .partCount ((params.int? "num_outputs").filter (0 < ·)))
  let parts := parts.toNat
  let length ← ExceptT.lift shape.dims[axis]?
  if (← Attempt.mod length parts) ≠ 0 then
    Attempt.ofExcept (Operator.split.fail (.unequalParts axis length parts))
  else
    let squeezed := (params.bool? "squeeze_axis").getD false
    if squeezed && (← Attempt.div length parts) != 1 then
      Attempt.ofExcept (Operator.split.fail .squeezedParts)
    else return ⟨axis, parts, squeezed⟩

/-- Operators that only map a list, or make one, need no checks. -/
def evaluate (op : Operator) (inputs : List Operand) (params : Params) : Attempt (List Values) :=
  match op, inputs with
  | .zeros, [] | .ones, [] | .scalar _, [_] | .copyTo, [_] | .zerosLike, [_] | .onesLike, [_]
  | .negative, [_] => op.evaluate inputs params
  | .pairwise a, [l, r] => return [← ExceptT.lift (zipWith a.apply l.values r.values)]
  | .reduce r, [x] => do
    let axis ← Attempt.ofExcept (op.axis? params x.shape)
    return [← ExceptT.lift (reduce r x.values x.shape.dims axis)]
  | .split, [x] => do
    let plan ← splitPlan params x.shape
    let e ← ExceptT.lift (around x.shape.dims plan.axis)
    ExceptT.lift (split e plan.parts x.values)
  | .softmax, [x] => do
    let axis ← Attempt.ofExcept (op.axisOr params x.shape (-1))
    let e ← ExceptT.lift (around x.shape.dims axis)
    return [← ExceptT.lift (mapLanes e (normalize (Operator.temperature params)) x.values)]
  | .argsort, [x] => do
    let axis ← Attempt.ofExcept (op.axisOr params x.shape (-1))
    let ascending := (params.bool? "is_ascend").getD true
    let e ← ExceptT.lift (around x.shape.dims axis)
    return [← ExceptT.lift (mapLanes e (Argsort.ofLane ascending) x.values)]
  | _, _ => ExceptT.lift none

section Kernels

variable {e : Extents} {xs : Values} {dims : List Nat} {axis : Nat}

variable {parts : Nat}

theorem chunk_le (hdvd : parts ∣ e.length) {o p : Nat} (ho : o < e.outer) (hp : p < parts) :
    o * e.length * e.inner + p * e.chunkSize parts + e.chunkSize parts ≤ e.size := by
  have hblock : parts * e.chunkSize parts = e.length * e.inner := by
    unfold Extents.chunkSize
    rw [← Nat.mul_assoc, Nat.mul_div_cancel' hdvd]
  calc o * e.length * e.inner + p * e.chunkSize parts + e.chunkSize parts
      = o * e.length * e.inner + (p + 1) * e.chunkSize parts := by
        rw [Nat.add_one_mul, Nat.add_assoc]
    _ ≤ o * e.length * e.inner + parts * e.chunkSize parts :=
        Nat.add_le_add_left (Nat.mul_le_mul_right _ hp) _
    _ = (o + 1) * (e.length * e.inner) := by rw [hblock, Nat.add_one_mul, Nat.mul_assoc]
    _ ≤ e.outer * (e.length * e.inner) := Nat.mul_le_mul_right _ ho
    _ = e.size := (Nat.mul_assoc _ _ _).symm

theorem length_of_mem_split (hdvd : parts ∣ e.length) (h : xs.length = e.size) {part : Values}
    (hpart : part ∈ e.split parts xs) :
    part.length = e.outer * (e.length / parts) * e.inner := by
  obtain ⟨p, hp, rfl⟩ := List.mem_map.1 hpart
  have hchunk : ∀ o ∈ List.range e.outer,
      ((xs.drop (o * e.length * e.inner + p * e.chunkSize parts)).take
        (e.chunkSize parts)).length = e.chunkSize parts := by
    intro o ho
    have hle := chunk_le hdvd (List.mem_range.1 ho) (List.mem_range.1 hp)
    rw [List.length_take, List.length_drop, h]
    omega
  rw [List.length_flatMap, List.map_congr_left hchunk, List.map_const', List.sum_replicate_nat,
    List.length_range, Nat.mul_assoc]
  rfl

end Kernels

section Operators

open Operator

variable {op : Operator} {params : Params} {sigs out : List Signature} {inputs : List Operand}

/-- An operator, checked or not, gives a result for each output that was announced, with as many
elements as the output has. -/
def Fills (op : Operator) (inputs : List Operand) (params : Params) (out : List Signature) : Prop :=
  ∃ results, evaluate op inputs params = some (.ok results) ∧
    op.evaluate inputs params = some (.ok results) ∧
    List.Forall₂ (fun (r : Values) (sig : Signature) => r.length = sig.shape.size) results out

end Operators

end Exact
end ScopedTensor
