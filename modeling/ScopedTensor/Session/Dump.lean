import ScopedTensor.Decimal.Layout
import ScopedTensor.Element.Codec
import ScopedTensor.Session.Array

/-! Contents as text, row by row. Long levels and rows are cut short and say by how much. Each row
is looked at through a view that is given back before the next one is made. -/

namespace ScopedTensor

def Dump.maxRank : Nat := 10

def Dump.maxRows : Nat := 10

def Dump.maxItems : Nat := 20

namespace Dump

/-- Halves are shown like single precision numbers. -/
def element (t : ElementType) (x : Binary.Binary64) : String :=
  match t with
  | .f16 | .f32 => Decimal.Layout.contents.write .single (x.narrow .single)
  | .f64 => Decimal.Layout.contents.write .double x.pattern
  | .bool => toString (!x.isZero)
  | .u8 | .i8 | .i32 | .i64 => toString (x.saturate (-Int.pow 2 63) (Int.pow 2 63 - 1))

def pad (depth : Nat) : String := String.ofList (List.replicate depth ' ')

def items (t : ElementType) (xs : List Binary.Binary64) : String :=
  Text.commaSeparated ((xs.take maxItems).map (element t)) ++
    (if maxItems < xs.length then s!", ... {xs.length - maxItems} more" else "")

variable {σ : Type} (lib : Library σ) (t : ElementType)

def leaf [HalfPrecision] (h : Handle) (n : Nat) : Action σ String := do
  return items t (t.decode (← lib.copyOut h (t.storageBytes n) n))

def throughRow (h : Handle) (i : Nat) (render : Handle → Action σ String) : Action σ String := do
  let row : OwnedHandle := ⟨← lib.row h i⟩
  let text ← (do render (← Action.ofExcept row.get)).outcome
  let _ ← row.release lib
  Action.ofExcept text

def level [HalfPrecision] : List Nat → Nat → Handle → Action σ String
  | [], depth, h => do
    return pad depth ++ "[" ++ (← leaf lib t h 1) ++ "],\n"
  | [n], depth, h => do
    return pad depth ++ "[" ++ (← leaf lib t h n) ++ "],\n"
  | n :: m :: dims, depth, h => do
    let rows ← (List.range (min n maxRows)).mapM fun i =>
      throughRow lib h i (level (m :: dims) (depth + 1))
    let rest := if maxRows < n then pad (depth + 1) ++ s!"... {n - maxRows} more\n" else ""
    return pad depth ++ "[\n" ++ String.join rows ++ rest ++ pad depth ++ "],\n"

end Dump

def Session.dump {σ : Type} [HalfPrecision] (id : ArrayId) : Action (Session σ) String := do
  let s ← shape id
  let t ← type id
  let d ← device id
  let header := "ND: " ++ s.text ++ " " ++ d.text ++ " " ++ t.name ++ "\n"
  if Dump.maxRank ≤ s.rank then return header ++ "[ Exceed max print dimension ]"
  let h ← handle id
  return header ++ (← callFor id fun lib => Dump.level lib t s.dims 0 h)

end ScopedTensor
