import ScopedTensor.Library.Basic

/-! Operator names resolved once to an engine's operators. -/

namespace ScopedTensor

structure OperatorTable where
  entries : List (String × OpHandle)

namespace OperatorTable

def empty : OperatorTable := ⟨[]⟩

variable {σ : Type} (t : OperatorTable)

def contains (name : String) : Bool := t.entries.any fun e => e.1 == name

def size : Nat := t.entries.length

/-- A name listed twice keeps the operator resolved last. -/
def insert (name : String) (op : OpHandle) : OperatorTable :=
  if t.contains name then ⟨t.entries.map fun e => if e.1 == name then (name, op) else e⟩
  else ⟨t.entries ++ [(name, op)]⟩

def load (lib : Library σ) : Action σ OperatorTable := do
  let names ← lib.listOps
  names.foldlM (fun t name => return t.insert name (← lib.getOp name)) empty

def lookup (name : String) : Except Error OpHandle :=
  match t.entries.find? fun e => e.1 == name with
  | some e => .ok e.2
  | none => .error (.unsupported name)

def names : List String := (t.entries.map Prod.fst).mergeSort fun a b => decide (a ≤ b)

def invoke (lib : Library σ) (name : String) (inputs : List Handle)
    (outputs : Option (List Handle)) (params : Params) : Action σ (List Handle) := do
  let op ← Action.ofExcept (t.lookup name)
  lib.invoke op inputs outputs params

end OperatorTable
end ScopedTensor
