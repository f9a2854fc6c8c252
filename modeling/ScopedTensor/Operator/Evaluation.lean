import ScopedTensor.Kernel.Ordering
import ScopedTensor.Kernel.Lane
import ScopedTensor.Operator.Inference

/-! The values an operator computes, and the gradients of its inputs from those of its outputs. -/

namespace ScopedTensor

open Binary

structure Operand where
  values : Values
  shape : Shape

namespace Operator

variable (op : Operator)

def fillCount (params : Params) : Nat :=
  match params.tuple? "shape" with
  | none => 0
  | some dims => (dims.foldr (· * ·) 1).toNat

/-- Sorting may break off; whatever else an operator does comes to an end. -/
def evaluate (inputs : List Operand) (params : Params) : Attempt (List Values) :=
  match op, inputs with
  | zeros, [] => return [List.replicate (fillCount params) .zero]
  | ones, [] => return [List.replicate (fillCount params) .one]
  | pairwise a, [l, r] => return [l.values.zipWith a.apply r.values]
  | scalar a, [x] => .ofExcept do
    let s ← op.scalarOf params
    return [x.values.map fun v => a.apply v s]
  | copyTo, [x] => return [x.values]
  | zerosLike, [x] => return [x.values.map fun _ => .zero]
  | onesLike, [x] => return [x.values.map fun _ => .one]
  | negative, [x] => return [x.values.map Neg.neg]
  | reduce r, [x] => .ofExcept do
    let axis ← op.axis? params x.shape
    return [r.apply x.values x.shape.dims axis]
  | split, [x] => .ofExcept do
    let plan ← splitPlan params x.shape
    return (Extents.around x.shape.dims plan.axis).split plan.parts x.values
  | softmax, [x] => .ofExcept do
    let axis ← op.axisOr params x.shape (-1)
    return [Softmax.apply x.values x.shape.dims axis (temperature params)]
  | argsort, [x] => do
    let axis ← .ofExcept (op.axisOr params x.shape (-1))
    let ascending := (params.bool? "is_ascend").getD true
    return [← ExceptT.lift (Argsort.apply x.values x.shape.dims axis ascending)]
  | _, _ => .ofExcept (op.fail (.inputCount op.arity inputs.length))

def divisorGradient (g a b : Binary64) : Binary64 := -g * a / (b * b)

def pairwiseGradient (l r g : Values) : Arithmetic → List (Option Values)
  | .add => [some g, some g]
  | .sub => [some g, some (g.map Neg.neg)]
  | .mul => [some (g.zipWith (· * ·) r), some (g.zipWith (· * ·) l)]
  | .div => [some (g.zipWith (· / ·) r),
      some (g.zipWith (fun g (ab : Binary64 × Binary64) => divisorGradient g ab.1 ab.2) (l.zip r))]

def scalarGradient (s : Binary64) (g : Values) : Arithmetic → Values
  | .add | .sub => g
  | .mul => g.map (· * s)
  | .div => g.map (· / s)

def gradientFrom (params : Params) (inputs outputs : List Operand) (g : Values) :
    Except Error (List (Option Values)) :=
  match op, inputs, outputs with
  | copyTo, _, _ => .ok [some g]
  | negative, _, _ => .ok [some (g.map Neg.neg)]
  | scalar .add, _, _ => .ok [some g]
  | scalar .sub, _, _ => .ok [some g]
  | scalar a, _, _ => do
    let s ← op.scalarOf params
    .ok [some (scalarGradient s g a)]
  | pairwise a, [l, r], _ => .ok (pairwiseGradient l.values r.values g a)
  | zerosLike, _, _ => .ok [none]
  | onesLike, _, _ => .ok [none]
  | reduce r, [x], [y] => do
    let axis ← op.axis? params x.shape
    .ok [some (r.gradient x.values x.shape.dims axis y.values g)]
  | softmax, [x], [y] => do
    let axis ← op.axisOr params x.shape (-1)
    .ok [some (Softmax.gradient y.values g x.shape.dims axis (temperature params))]
  | argsort, _, _ => op.fail .notDifferentiable
  | _, _, _ => .ok []

/-- Outputs that no gradient reached count as zero. -/
def splitGradient (params : Params) (x : Operand) (outputs : List Operand)
    (gs : List (Option Values)) : Except Error (List (Option Values)) := do
  let plan ← splitPlan params x.shape
  let parts := gs.zipWith (fun g (o : Operand) =>
    g.getD (List.replicate o.values.length .zero)) outputs
  .ok [some ((Extents.around x.shape.dims plan.axis).concat parts)]

/-- Gradients of the inputs; none where an input receives nothing. -/
def gradient (params : Params) (inputs outputs : List Operand) (gs : List (Option Values)) :
    Except Error (List (Option Values)) :=
  match op, inputs with
  | split, [x] => splitGradient params x outputs gs
  | _, _ =>
    match gs.head?.join with
    | none => .ok (List.replicate inputs.length none)
    | some g => op.gradientFrom params inputs outputs g

end Operator
end ScopedTensor
