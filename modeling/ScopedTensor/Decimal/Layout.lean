import ScopedTensor.Decimal.Shortest
import ScopedTensor.Binary.Double

/-! How numbers are written: which are written positionally, and whether an integral one keeps a
fraction. One record per place where numbers are printed. -/

namespace ScopedTensor.Decimal

structure Layout where
  /-- Exponents `e` of `d.d… * 10 ^ e` that are written positionally; none means all. -/
  positional : Option (Int × Int)
  keepsFraction : Bool

/-- Operator parameters never use an exponent. -/
def Layout.parameter : Layout := ⟨none, false⟩

/-- Array contents use an exponent below a ten-thousandth and from ten to the sixteenth on. -/
def Layout.contents : Layout := ⟨some (-4, 15), true⟩

def text (digits : List Nat) : String := String.join (digits.map toString)

def zeros (n : Nat) : List Nat := List.replicate n 0

def Layout.pointed (layout : Layout) (d : Decimal) : String :=
  let n := d.digits.length
  if d.exponent ≤ 0 then "0." ++ text (zeros (-d.exponent).toNat ++ d.digits)
  else
    let e := d.exponent.toNat
    if n ≤ e then
      text (d.digits ++ zeros (e - n)) ++ (if layout.keepsFraction then ".0" else "")
    else text (d.digits.take e) ++ "." ++ text (d.digits.drop e)

def scientific (d : Decimal) : String :=
  let rest := d.digits.drop 1
  text (d.digits.take 1) ++ (if rest.isEmpty then "" else "." ++ text rest) ++
    "e" ++ toString (d.exponent - 1)

def Layout.write (layout : Layout) (f : Binary.Format) (bits : Nat) : String :=
  if f.isNaN bits then "NaN"
  else
    let sign := if f.isNegative bits then "-" else ""
    if f.isInfinite bits then sign ++ "inf"
    else
      let magnitude := f.magnitude bits
      let d := shortest f magnitude
      let written := match layout.positional with
        | none => layout.pointed d
        | some (low, high) =>
          if magnitude = 0 ∨ (low ≤ d.exponent - 1 ∧ d.exponent - 1 ≤ high) then
            layout.pointed d
          else scientific d
      sign ++ written

end ScopedTensor.Decimal
