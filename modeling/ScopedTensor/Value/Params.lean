import ScopedTensor.Binary.Double
import ScopedTensor.Decimal.Layout
import ScopedTensor.Decimal.Reading
import ScopedTensor.Value.Reading

/-! Typed operator parameters: a map that keeps the order in which keys first came in, where a key
set again keeps its place and changes its value. An engine sees keys and values as text. -/

namespace ScopedTensor

open Binary (Binary64)

inductive Param where
  | int (i : Int)
  | float (x : Binary64)
  | bool (b : Bool)
  | text (s : String)
  | tuple (xs : List Int)
  | type (t : ElementType)
  | device (d : Device)
  deriving DecidableEq

/-- One entry takes a comma behind it, as engines expect of tuples. -/
def Param.tupleText : List Int → String
  | [x] => s!"({x},)"
  | xs => "(" ++ Text.commaSeparated (xs.map toString) ++ ")"

def Param.native : Param → String
  | int i => toString i
  | float x => Decimal.Layout.parameter.write .double x.pattern
  | bool true => "True"
  | bool false => "False"
  | text s => s
  | tuple xs => tupleText xs
  | type t => t.name
  | device d => d.parameterText

structure Params where
  entries : List (String × Param)
  deriving DecidableEq

namespace Params

def empty : Params := ⟨[]⟩

variable (p : Params)

def keys : List String := p.entries.map Prod.fst

def size : Nat := p.entries.length

def get? (k : String) : Option Param := (p.entries.find? fun e => e.1 == k).map Prod.snd

def contains (k : String) : Bool := p.entries.any fun e => e.1 == k

def set (k : String) (v : Param) : Params :=
  if p.contains k then ⟨p.entries.map fun e => if e.1 == k then (e.1, v) else e⟩
  else ⟨p.entries ++ [(k, v)]⟩

def dimsParam (s : Shape) : Param :=
  .tuple (s.dims.map fun (d : Nat) => Int.bmod d (Nat.pow 2 64))

def int? (k : String) : Option Int := do
  match ← p.get? k with
  | .int i => some i
  | .text s => Text.integer? (Nat.pow 2 63) s.toList
  | _ => none

def float? (k : String) : Option Binary64 := do
  match ← p.get? k with
  | .float x => some x
  | .int i => some (.ofInt i)
  | .text s => Decimal.readDouble? s
  | _ => none

def bool? (k : String) : Option Bool := do
  match ← p.get? k with
  | .bool b => some b
  | .int i => some (i ≠ 0)
  | .text s =>
    if s = "True" ∨ s = "true" ∨ s = "1" then some true
    else if s = "False" ∨ s = "false" ∨ s = "0" then some false
    else none
  | _ => none

def tuple? (k : String) : Option (List Int) := do
  match ← p.get? k with
  | .tuple xs => some xs
  | _ => none

def type? (k : String) : Option ElementType := do
  match ← p.get? k with
  | .type t => some t
  | .text s => (ElementType.read s).toOption
  | _ => none

def device? (k : String) : Option Device := do
  match ← p.get? k with
  | .device d => some d
  | .text s => (Device.read s).toOption
  | _ => none

def native : List String × List String :=
  (p.keys, p.entries.map fun e => e.2.native)

theorem length_native : p.native.1.length = p.native.2.length := by
  simp [native, keys]

end Params
end ScopedTensor
