import ScopedTensor.Operator.Basic
import ScopedTensor.Value.Params

/-! What an operator makes of its inputs' shapes and element types, decided before any value is
looked at. Everything that can be wrong with operands and parameters is found here. -/

namespace ScopedTensor

structure Signature where
  shape : Shape
  type : ElementType
  deriving DecidableEq

namespace Operator

variable (op : Operator)

def fail {α : Type} (r : Report) : Except Error α := .error (.native op.name r)

def require {α : Type} (r : Report) : Option α → Except Error α
  | some a => .ok a
  | none => op.fail r

def wantedAxis (params : Params) (default : Option Int) : Option Int :=
  ((params.int? "axis").or ((params.tuple? "axis").bind List.head?)).or default

def axisOf (shape : Shape) (wanted : Int) : Except Error Nat :=
  op.require (.axis wanted shape) (shape.axis? wanted)

def axis? (params : Params) (shape : Shape) : Except Error (Option Nat) :=
  match wantedAxis params none with
  | none => .ok none
  | some wanted => (op.axisOf shape wanted).map some

def axisOr (params : Params) (shape : Shape) (default : Int) : Except Error Nat :=
  op.axisOf shape ((wantedAxis params (some default)).getD default)

def scalarOf (params : Params) : Except Error Binary.Binary64 :=
  op.require (.missing "scalar") (params.float? "scalar")

def temperature (params : Params) : Binary.Binary64 := (params.float? "temperature").getD .one

structure SplitPlan where
  axis : Nat
  parts : Nat
  squeezed : Bool

def splitPlan (params : Params) (shape : Shape) : Except Error SplitPlan := do
  let axis ← split.axisOr params shape 1
  let parts ← split.require .partCount ((params.int? "num_outputs").filter (0 < ·))
  let parts := parts.toNat
  let length := shape.dims.getD axis 1
  if length % parts ≠ 0 then split.fail (.unequalParts axis length parts)
  else
    let squeezed := (params.bool? "squeeze_axis").getD false
    if squeezed && length / parts != 1 then split.fail .squeezedParts
    else .ok ⟨axis, parts, squeezed⟩

/-- A shape that would lose its last axis keeps one of length one. -/
def reducedShape (shape : Shape) (axis : Option Nat) (keepDims : Bool) : Shape :=
  let out : Shape := match axis, keepDims with
    | some a, true => shape.withDim a 1
    | some a, false => shape.withoutAxis a
    | none, true => ⟨List.replicate shape.rank 1⟩
    | none, false => ⟨[1]⟩
  if out.dims.isEmpty then ⟨[1]⟩ else out

def dimsOf (entries : List Int) : Except Error (List Nat) :=
  entries.mapM fun d => if d < 0 then op.fail (.negativeDimension d) else .ok d.toNat

def filledSignature (params : Params) : Except Error (List Signature) := do
  let entries ← op.require (.missing "shape") (params.tuple? "shape")
  let dims ← op.dimsOf entries
  .ok [⟨⟨dims⟩, (params.type? "dtype").getD .f32⟩]

def infer (inputs : List Signature) (params : Params) : Except Error (List Signature) :=
  match op, inputs with
  | zeros, [] => zeros.filledSignature params
  | ones, [] => ones.filledSignature params
  | pairwise _, [l, r] =>
    if l.shape ≠ r.shape then op.fail (.shapes l.shape r.shape)
    else if l.type ≠ r.type then op.fail (.types l.type r.type)
    else .ok [l]
  | scalar _, [x] => (op.scalarOf params).map fun _ => [x]
  | copyTo, [x] => .ok [x]
  | zerosLike, [x] => .ok [x]
  | onesLike, [x] => .ok [x]
  | negative, [x] => .ok [x]
  | reduce _, [x] => do
    let axis ← op.axis? params x.shape
    let keepDims := (params.bool? "keepdims").getD false
    .ok [⟨reducedShape x.shape axis keepDims, x.type⟩]
  | split, [x] => do
    let plan ← splitPlan params x.shape
    let part := if plan.squeezed then x.shape.withoutAxis plan.axis
      else x.shape.withDim plan.axis (x.shape.dims.getD plan.axis 1 / plan.parts)
    .ok (List.replicate plan.parts ⟨part, x.type⟩)
  | softmax, [x] => do
    let _ ← op.axisOr params x.shape (-1)
    if (temperature params).isZero then op.fail .zeroTemperature else .ok [x]
  | argsort, [x] => do
    let _ ← op.axisOr params x.shape (-1)
    .ok [⟨x.shape, (params.type? "dtype").getD .f32⟩]
  | _, _ => op.fail (.inputCount op.arity inputs.length)

end Operator
end ScopedTensor
