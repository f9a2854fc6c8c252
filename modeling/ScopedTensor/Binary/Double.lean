import ScopedTensor.Binary.Format

/-! Double precision numbers as bit patterns, so that signs of zero and patterns above infinity
are kept exactly. Arithmetic passes on the first operand that is no number, made quiet; an invalid
operation on numbers gives the negative quiet pattern. -/

namespace ScopedTensor.Binary

structure Binary64 where
  bits : UInt64
  deriving DecidableEq, Inhabited

namespace Binary64

def ofPattern (n : Nat) : Binary64 := ⟨UInt64.ofNat n⟩

def pattern (x : Binary64) : Nat := x.bits.toNat

def zero : Binary64 := ⟨0⟩

def one : Binary64 := ⟨0x3FF0000000000000⟩

def negativeZero : Binary64 := ⟨0x8000000000000000⟩

def infinity : Binary64 := ⟨0x7FF0000000000000⟩

def negativeInfinity : Binary64 := ⟨0xFFF0000000000000⟩

def quietNaN : Binary64 := ⟨0x7FF8000000000000⟩

def invalid : Binary64 := ⟨0xFFF8000000000000⟩

variable (x y : Binary64)

def isNegative : Bool := Format.double.isNegative x.pattern

def magnitude : Nat := Format.double.magnitude x.pattern

def isNaN : Bool := Format.double.isNaN x.pattern

def isInfinite : Bool := Format.double.isInfinite x.pattern

def isZero : Bool := x.magnitude == 0

def quiet : Binary64 := ⟨x.bits ||| 0x0008000000000000⟩

def neg : Binary64 := ⟨x.bits ^^^ 0x8000000000000000⟩

def toFloat : Float := Float.ofBits x.bits

def ofFloat (v : Float) : Binary64 := if v.isNaN then invalid else ⟨v.toBits⟩

def lift (op : Float → Float → Float) : Binary64 :=
  if x.isNaN then x.quiet
  else if y.isNaN then y.quiet
  else ofFloat (op x.toFloat y.toFloat)

def add : Binary64 := lift x y (· + ·)

def sub : Binary64 := lift x y (· - ·)

def mul : Binary64 := lift x y (· * ·)

def div : Binary64 := lift x y (· / ·)

def exp : Binary64 := if x.isNaN then x.quiet else ofFloat x.toFloat.exp

instance : Add Binary64 := ⟨add⟩

instance : Sub Binary64 := ⟨sub⟩

instance : Mul Binary64 := ⟨mul⟩

instance : Div Binary64 := ⟨div⟩

instance : Neg Binary64 := ⟨neg⟩

def key : Int := if x.isNegative then -(x.magnitude : Int) else x.magnitude

def less : Bool := !x.isNaN && !y.isNaN && decide (x.key < y.key)

/-- Equality of numbers: both zeros are equal, and what is no number equals nothing. -/
def same : Bool := !x.isNaN && !y.isNaN && x.key == y.key

/-- The larger; of a number and what is no number, the number; of equals, the last. -/
def larger : Binary64 := if y.isNaN then x else if less y x then x else y

/-- The smaller, with the rules of `larger`. -/
def smaller : Binary64 := if y.isNaN then x else if less x y then x else y

def narrow (f : Format) : Nat := convert .double f x.pattern

def widen (f : Format) (bits : Nat) : Binary64 := ofPattern (convert f .double bits)

def ofRatio (negative : Bool) (n d : Nat) : Binary64 :=
  ofPattern (Format.double.withSign negative (Format.double.round n d))

def ofInt (i : Int) : Binary64 := ofRatio (i < 0) i.natAbs 1

def ofNat (n : Nat) : Binary64 := ofInt n

/-- The integer part, cut down to `low ≤ i ≤ high`; what is no number counts as zero. -/
def saturate (low high : Int) : Int :=
  if x.isNaN then 0
  else if x.isInfinite then if x.isNegative then low else high
  else
    let (m, q) := Format.double.significand x.magnitude
    let (n, d) := scaled m q
    let i : Int := (n / d : Nat)
    max low (min high (if x.isNegative then -i else i))

def toInt? : Option Int :=
  if x.isNaN || x.isInfinite then none
  else
    let (m, q) := Format.double.significand x.magnitude
    let (n, d) := scaled m q
    if n % d = 0 then
      some (if x.isNegative then -((n / d : Nat) : Int) else (n / d : Nat))
    else none

end Binary64

/-- Sums run from the left and start from negative zero, so an empty sum is negative. -/
def sum (xs : List Binary64) : Binary64 := xs.foldl (· + ·) Binary64.negativeZero

end ScopedTensor.Binary
