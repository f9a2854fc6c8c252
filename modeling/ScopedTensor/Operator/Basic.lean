import ScopedTensor.Kernel.Reduction

/-! The operators of the reference engine: their names, their order, and how many inputs each
takes. An operator's handle is its place in that order, counted from one. -/

namespace ScopedTensor

inductive Arithmetic where
  | add | sub | mul | div
  deriving DecidableEq, Repr

def Arithmetic.apply : Arithmetic → Binary.Binary64 → Binary.Binary64 → Binary.Binary64
  | add, x, y => x + y
  | sub, x, y => x - y
  | mul, x, y => x * y
  | div, x, y => x / y

inductive Operator where
  | copyTo
  | zerosLike
  | onesLike
  | zeros
  | ones
  | pairwise (a : Arithmetic)
  | scalar (a : Arithmetic)
  | negative
  | reduce (r : Reduction)
  | split
  | softmax
  | argsort
  deriving DecidableEq, Repr

namespace Operator

def all : List Operator :=
  [copyTo, zerosLike, onesLike, zeros, ones, pairwise .add, pairwise .sub, pairwise .mul,
    pairwise .div, scalar .add, scalar .sub, scalar .mul, scalar .div, negative, reduce .sum,
    reduce .mean, reduce .max, reduce .min, split, softmax, argsort]

theorem mem_all (op : Operator) : op ∈ all := by
  cases op with
  | pairwise a => cases a <;> decide
  | scalar a => cases a <;> decide
  | reduce r => cases r <;> decide
  | _ => decide

def name : Operator → String
  | copyTo => "_copyto"
  | zerosLike => "zeros_like"
  | onesLike => "ones_like"
  | zeros => "_zeros"
  | ones => "_ones"
  | pairwise .add => "elemwise_add"
  | pairwise .sub => "elemwise_sub"
  | pairwise .mul => "elemwise_mul"
  | pairwise .div => "elemwise_div"
  | scalar .add => "_plus_scalar"
  | scalar .sub => "_minus_scalar"
  | scalar .mul => "_mul_scalar"
  | scalar .div => "_div_scalar"
  | negative => "negative"
  | reduce .sum => "sum"
  | reduce .mean => "mean"
  | reduce .max => "max"
  | reduce .min => "min"
  | split => "split"
  | softmax => "softmax"
  | argsort => "argsort"

def label : Operator → String
  | copyTo => "CopyTo"
  | zerosLike => "ZerosLike"
  | onesLike => "OnesLike"
  | zeros => "Zeros"
  | ones => "Ones"
  | pairwise .add => "Add"
  | pairwise .sub => "Sub"
  | pairwise .mul => "Mul"
  | pairwise .div => "Div"
  | scalar .add => "PlusScalar"
  | scalar .sub => "MinusScalar"
  | scalar .mul => "MulScalar"
  | scalar .div => "DivScalar"
  | negative => "Negative"
  | reduce .sum => "Sum"
  | reduce .mean => "Mean"
  | reduce .max => "Max"
  | reduce .min => "Min"
  | split => "Split"
  | softmax => "Softmax"
  | argsort => "Argsort"

def ofName? (s : String) : Option Operator := all.find? fun op => op.name == s

def number (op : Operator) : Nat := all.idxOf op + 1

def ofNumber? : Nat → Option Operator
  | 0 => none
  | n + 1 => all[n]?

theorem ofNumber?_number (op : Operator) : ofNumber? op.number = some op := by
  cases op with
  | pairwise a => cases a <;> rfl
  | scalar a => cases a <;> rfl
  | reduce r => cases r <;> rfl
  | _ => rfl

def arity : Operator → Nat
  | zeros | ones => 0
  | pairwise _ => 2
  | _ => 1

end Operator
end ScopedTensor
