import ScopedTensor.Binary.Format

/-! The shortest decimal that reads back as a given binary number. Around the number lies the
interval of reals that round to it, its ends included when the significand is even. For one digit,
two digits and so on the two neighbours of the number on the decimal grid are tried; the first grid
with a hit wins, of two hits the nearer, and of two equally near the larger. -/

namespace ScopedTensor

/-- `0.d₁d₂… * 10 ^ exponent`, the first digit not zero unless there is only one. -/
structure Decimal where
  digits : List Nat
  exponent : Int
  deriving DecidableEq

namespace Decimal

open Binary

def digitsOf (n : Nat) : List Nat := (Nat.toDigits 10 n).map fun c => c.toNat - '0'.toNat

def digitCount (n : Nat) : Nat := (digitsOf n).length

/-- The least `k` with `n / d < 10 ^ k`, for positive `n` and `d`. -/
def exponentOf (n d : Nat) : Int :=
  if d ≤ n then digitCount (n / d)
  else
    let c := digitCount (d / n)
    if d ≤ n * Nat.pow 10 (c - 1) then 2 - (c : Int) else 1 - (c : Int)

/-- The interval of reals that round to a positive magnitude: below, value and above, as numerators
over one denominator. The gap below a power of two is half the gap above. -/
structure Interval where
  low : Nat
  value : Nat
  high : Nat
  denominator : Nat
  closed : Bool

def Interval.around (f : Format) (magnitude : Nat) : Interval :=
  let (m, q) := f.significand magnitude
  let below := if m = Nat.pow 2 f.fraction ∧ f.lowest < q then 1 else 2
  let (unit, denominator) := scaled 1 (q - 2)
  { low := (4 * m - below) * unit
    value := 4 * m * unit
    high := (4 * m + 2) * unit
    denominator
    closed := m % 2 = 0 }

def Interval.holds (i : Interval) (unit per k : Nat) : Bool :=
  let p := k * unit * i.denominator
  let low := i.low * per
  let high := i.high * per
  if i.closed then decide (low ≤ p ∧ p ≤ high) else decide (low < p ∧ p < high)

/-- The multiple of the grid to take, if a neighbour of the value on it lies in the interval. -/
def Interval.onGrid (i : Interval) (unit per : Nat) : Option Nat :=
  let step := unit * i.denominator
  let below := i.value * per / step
  let rest := i.value * per % step
  let down := i.holds unit per below
  let up := i.holds unit per (below + 1)
  if up && (!down || decide (step ≤ 2 * rest)) then some (below + 1)
  else if down then some below
  else none

def mostDigits : Nat := 18

def shortest (f : Format) (magnitude : Nat) : Decimal :=
  if magnitude = 0 then ⟨[0], 1⟩ else
    let i := Interval.around f magnitude
    let k := exponentOf i.value i.denominator
    let hit := (List.range mostDigits).findSome? fun (n : Nat) =>
      let place : Int := k - (n + 1 : Nat)
      let (unit, per) := if 0 ≤ place then (Nat.pow 10 place.toNat, 1)
        else (1, Nat.pow 10 (-place).toNat)
      (i.onGrid unit per).map fun m => (n + 1, m)
    match hit with
    | none => ⟨[0], 1⟩
    | some (n, m) => if m = Nat.pow 10 n then ⟨[1], k + 1⟩ else ⟨digitsOf m, k⟩

end Decimal
end ScopedTensor
