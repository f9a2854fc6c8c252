import ScopedTensor.Session.Array

/-! Operators as functions. Operands are compared and views are checked before the engine
is asked; results join the scope of the array an operation is called on. -/

namespace ScopedTensor.Session

variable {σ : Type}

def arithmetic (op : String) (a b : ArrayId) : Action (Session σ) ArrayId := keeping do
  let s ← shape a
  let s' ← shape b
  if s ≠ s' then throw (.invalid (.operandShapes op s s'))
  let t ← type a
  let t' ← type b
  if t ≠ t' then throw (.invalid (.operandTypes op t t'))
  outputOf a op [a, b] .empty

def add : ArrayId → ArrayId → Action (Session σ) ArrayId := arithmetic "elemwise_add"

def sub : ArrayId → ArrayId → Action (Session σ) ArrayId := arithmetic "elemwise_sub"

def mul : ArrayId → ArrayId → Action (Session σ) ArrayId := arithmetic "elemwise_mul"

def div : ArrayId → ArrayId → Action (Session σ) ArrayId := arithmetic "elemwise_div"

def unary (op : String) (params : Params) (a : ArrayId) : Action (Session σ) ArrayId :=
  keeping (outputOf a op [a] params)

def scalar (op : String) (a : ArrayId) (x : Binary.Binary64) : Action (Session σ) ArrayId :=
  unary op (Params.empty.set "scalar" (.float x)) a

def addScalar : ArrayId → Binary.Binary64 → Action (Session σ) ArrayId := scalar "_plus_scalar"

def subScalar : ArrayId → Binary.Binary64 → Action (Session σ) ArrayId := scalar "_minus_scalar"

def mulScalar : ArrayId → Binary.Binary64 → Action (Session σ) ArrayId := scalar "_mul_scalar"

def divScalar : ArrayId → Binary.Binary64 → Action (Session σ) ArrayId := scalar "_div_scalar"

def neg : ArrayId → Action (Session σ) ArrayId := unary "negative" .empty

def reduce (op : String) (a : ArrayId) (axis : Option Int) (keepDims : Bool) :
    Action (Session σ) ArrayId :=
  let params := match axis with
    | some i => Params.empty.set "axis" (.int i)
    | none => .empty
  unary op (if keepDims then params.set "keepdims" (.bool true) else params) a

def sum : ArrayId → Option Int → Bool → Action (Session σ) ArrayId := reduce "sum"

def mean : ArrayId → Option Int → Bool → Action (Session σ) ArrayId := reduce "mean"

def max : ArrayId → Option Int → Bool → Action (Session σ) ArrayId := reduce "max"

def min : ArrayId → Option Int → Bool → Action (Session σ) ArrayId := reduce "min"

def zerosLike : ArrayId → Action (Session σ) ArrayId := unary "zeros_like" .empty

def onesLike : ArrayId → Action (Session σ) ArrayId := unary "ones_like" .empty

def softmax (a : ArrayId) (axis : Int) (temperature : Option Binary.Binary64) :
    Action (Session σ) ArrayId :=
  let params := Params.empty.set "axis" (.int axis)
  unary "softmax" (match temperature with
    | some t => params.set "temperature" (.float t)
    | none => params) a

def argsort (a : ArrayId) (axis : Int) (ascending : Bool) : Action (Session σ) ArrayId :=
  unary "argsort" ((Params.empty.set "axis" (.int axis)).set "is_ascend" (.bool ascending)) a

def view (a : ArrayId) (make : Library σ → Handle → Action σ Handle) :
    Action (Session σ) ArrayId := do
  let h ← handle a
  let v ← callFor a fun lib => make lib h
  joinScope a v none

def row (a : ArrayId) (index : Nat) : Action (Session σ) ArrayId := keeping do
  let s ← shape a
  if s.isScalar ∨ s.head ≤ index then throw (.invalid (.index index s))
  view a fun lib h => lib.row h index

def slice (a : ArrayId) (first last : Nat) : Action (Session σ) ArrayId := keeping do
  let s ← shape a
  if s.isScalar ∨ last ≤ first ∨ s.head < last then throw (.invalid (.range first last s))
  view a fun lib h => lib.slice h first last

def reshape (a : ArrayId) (target : List Int) : Action (Session σ) ArrayId := keeping do
  let s ← shape a
  if (s.reshape? target).isNone then throw (.invalid (.reshape s target))
  view a fun lib h => lib.reshape h target false

/-- Counts are passed as signed words. -/
def splitParams (axis : Int) (parts : Nat) : Params :=
  (Params.empty.set "axis" (.int axis)).set "num_outputs" (.int (Int.bmod parts Shape.wordSize))

def split (a : ArrayId) (axis : Int) (parts : Nat) : Action (Session σ) (List ArrayId) :=
  keepingAll do
    if parts = 0 then throw (.invalid .noSections)
    outputsOf a "split" [a] (splitParams axis parts)

def splitSqueeze (a : ArrayId) (axis : Int) : Action (Session σ) (List ArrayId) := keepingAll do
  let s ← shape a
  match s.axis? axis with
  | none => throw (.invalid (.axis axis s))
  | some i =>
    outputsOf a "split" [a]
      ((splitParams axis (s.dims.getD i 1)).set "squeeze_axis" (.bool true))

end ScopedTensor.Session
