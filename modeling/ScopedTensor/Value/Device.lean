/-! Where an array lives: host memory, or an accelerator with an ordinal. -/

namespace ScopedTensor

inductive Device where
  | cpu
  | gpu (ordinal : Nat)
  deriving DecidableEq, Repr, Inhabited

namespace Device

def text : Device → String
  | cpu => "cpu()"
  | gpu n => s!"gpu({n})"

def parameterText : Device → String
  | cpu => "cpu(0)"
  | gpu n => s!"gpu({n})"

def label : Device → String
  | cpu => "Cpu"
  | gpu n => s!"Gpu({n})"

def isCpu : Device → Bool
  | cpu => true
  | gpu _ => false

def isGpu (d : Device) : Bool := !d.isCpu

/-- The pair a foreign engine knows the device by. An ordinal keeps only its low 32 bits, read
as a signed number. -/
def code : Device → Int × Int
  | cpu => (1, 0)
  | gpu n => (2, Int.bmod n (Nat.pow 2 32))

/-- Pinned host memory, kind 3, counts as host memory. -/
def ofCode? (kind ordinal : Int) : Option Device :=
  if kind = 1 ∨ kind = 3 then some cpu
  else if kind = 2 ∧ 0 ≤ ordinal then some (gpu ordinal.toNat)
  else none

end Device
end ScopedTensor
