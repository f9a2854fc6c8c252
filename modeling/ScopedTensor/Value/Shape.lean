import ScopedTensor.Text.Numeral

/-! Shapes: the lengths of an array's axes, the first axis varying slowest. A shape without axes
has one element. -/

namespace ScopedTensor

structure Shape where
  dims : List Nat
  deriving DecidableEq, Repr, Inhabited

namespace Shape

variable (s : Shape)

def rank : Nat := s.dims.length

/-- The number of elements, which is assumed to fit a word of 64 bits. -/
def size : Nat := s.dims.foldr (· * ·) 1

def head : Nat := s.dims.headD 1

def isScalar : Bool := s.dims.isEmpty

def isMatrix : Bool := s.dims.length == 2

def withoutAxis (axis : Nat) : Shape := ⟨s.dims.eraseIdx axis⟩

def withDim (axis length : Nat) : Shape := ⟨s.dims.set axis length⟩

/-- Negative axes count from the end. -/
def axis? (axis : Int) : Option Nat :=
  let i := if axis < 0 then axis + s.rank else axis
  if 0 ≤ i ∧ i < s.rank then some i.toNat else none

def row : Shape := ⟨s.dims.tail⟩

def text : String := "(" ++ Text.commaSeparated (s.dims.map toString) ++ ")"

def listText {α : Type} [ToString α] (xs : List α) : String :=
  "[" ++ Text.commaSeparated (xs.map toString) ++ "]"

def label : String := "Shape(" ++ listText s.dims ++ ")"

def wordSize : Nat := Nat.pow 2 64

def mulWord? (a b : Nat) : Option Nat := if a * b < wordSize then some (a * b) else none

/-- A reshape target entry by entry: `-1` leaves a gap, `0` copies the length at the same place,
and a positive entry stands for itself. -/
def targetDim? (place : Nat) (entry : Int) : Option (Option Nat) :=
  if entry = -1 then some none
  else if entry = 0 then s.dims[place]?.map some
  else if entry < 0 then none
  else some (some entry.toNat)

/-- Left to right: the entries so far, and the product of the known ones, which must fit a word. -/
def resolveFrom (place : Nat) (known : Nat) : List Int → Option (List (Option Nat) × Nat)
  | [] => some ([], known)
  | entry :: rest => do
    match ← s.targetDim? place entry with
    | none => do
      let (entries, product) ← resolveFrom (place + 1) known rest
      some (none :: entries, product)
    | some d => do
      let (entries, product) ← resolveFrom (place + 1) (← mulWord? known d) rest
      some (some d :: entries, product)

/-- The shape a reshape to `target` gives, if it keeps the number of elements. At most one entry is
inferred from the others. -/
def reshape? (target : List Int) : Option Shape := do
  if 1 < (target.filter (· == -1)).length then none
  else
    let (entries, known) ← s.resolveFrom 0 1 target
    let gap ← if target.contains (-1) then
        if known = 0 ∨ s.size % known ≠ 0 then none else some (s.size / known)
      else some 0
    let result : Shape := ⟨entries.map fun e => e.getD gap⟩
    if result.size = s.size then some result else none

end Shape
end ScopedTensor
