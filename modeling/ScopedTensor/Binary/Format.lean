/-! Binary interchange formats, each given by the widths of its two fields. A bit pattern is a
natural number below two to the width. Rounding goes to the nearest pattern and from a tie to the
even one; what lies beyond the largest finite pattern becomes infinite. -/

namespace ScopedTensor.Binary

structure Format where
  fraction : Nat
  exponent : Nat

namespace Format

def half : Format := ⟨10, 5⟩

def single : Format := ⟨23, 8⟩

def double : Format := ⟨52, 11⟩

variable (f : Format)

def signBit : Nat := Nat.pow 2 (f.fraction + f.exponent)

def magnitude (bits : Nat) : Nat := bits % f.signBit

def isNegative (bits : Nat) : Bool := f.signBit ≤ bits

def infinity : Nat := (Nat.pow 2 f.exponent - 1) * Nat.pow 2 f.fraction

def isNaN (bits : Nat) : Bool := f.infinity < f.magnitude bits

def isInfinite (bits : Nat) : Bool := f.magnitude bits == f.infinity

def quietBit : Nat := Nat.pow 2 (f.fraction - 1)

/-- The power of two that the last place of the smallest positive number counts. -/
def lowest : Int := 2 - Nat.pow 2 (f.exponent - 1) - f.fraction

/-- `(m, q)` such that a finite magnitude stands for `m * 2 ^ q`. -/
def significand (magnitude : Nat) : Nat × Int :=
  let field := magnitude / Nat.pow 2 f.fraction
  let rest := magnitude % Nat.pow 2 f.fraction
  if field = 0 then (rest, f.lowest) else (rest + Nat.pow 2 f.fraction, f.lowest + field - 1)

end Format

/-- The natural number nearest to `n / d`, a tie going to the even one. -/
def divNearest (n d : Nat) : Nat :=
  let q := n / d
  let r := n % d
  if d < 2 * r ∨ (2 * r = d ∧ q % 2 = 1) then q + 1 else q

def inUnits (q : Int) (n d : Nat) : Nat × Nat :=
  if 0 ≤ q then (n, d * Nat.pow 2 q.toNat) else (n * Nat.pow 2 (-q).toNat, d)

/-- The greatest `e` with `2 ^ e ≤ n / d`, for positive `n` and `d`. -/
def log2Ratio (n d : Nat) : Int :=
  let e : Int := (Nat.log2 n : Int) - Nat.log2 d
  let (n', d') := inUnits e n d
  if n' < d' then e - 1 else e

def scaled (m : Nat) (q : Int) : Nat × Nat :=
  if 0 ≤ q then (m * Nat.pow 2 q.toNat, 1) else (m, Nat.pow 2 (-q).toNat)

namespace Format

variable (f : Format)

/-- The magnitude nearest to `n / d`. Patterns of one sign are consecutive naturals, so a place
that overflows its exponent carries into the next by addition. -/
def round (n d : Nat) : Nat :=
  if n = 0 then 0 else
    let q := max (log2Ratio n d - f.fraction) f.lowest
    let (n', d') := inUnits q n d
    min f.infinity ((q - f.lowest).toNat * Nat.pow 2 f.fraction + divNearest n' d')

def withSign (negative : Bool) (magnitude : Nat) : Nat :=
  if negative then f.signBit + magnitude else magnitude

end Format

/-- A pattern of one format in another. What is no number keeps its sign and the leading bits of
its fraction and becomes quiet. -/
def convert (source target : Format) (bits : Nat) : Nat :=
  let negative := source.isNegative bits
  let magnitude := source.magnitude bits
  if source.isNaN bits then
    let payload := magnitude % Nat.pow 2 source.fraction
    let kept :=
      if source.fraction ≤ target.fraction then
        payload * Nat.pow 2 (target.fraction - source.fraction)
      else payload / Nat.pow 2 (source.fraction - target.fraction)
    target.withSign negative (target.infinity + (kept ||| target.quietBit))
  else if source.isInfinite bits then target.withSign negative target.infinity
  else
    let (m, q) := source.significand magnitude
    let (n, d) := scaled m q
    target.withSign negative (target.round n d)

end ScopedTensor.Binary
