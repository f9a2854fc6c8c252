import ScopedTensor.Binary.Double
import ScopedTensor.Text.Numeral

/-! Decimal text read as the nearest double. A sign may stand in front; digits may be missing on
one side of the point; an exponent may follow. `inf`, `infinity` and `nan` count in any case. -/

namespace ScopedTensor.Decimal

open Binary Text

/-- An unsigned decimal: its digits, how many of them stand after the point, and the exponent. -/
structure Unsigned where
  digits : List Nat
  places : Nat
  exponent : Int

def takeDigits (cs : List Char) : List Nat × List Char :=
  ((cs.takeWhile Char.isDigit).filterMap digit?, cs.dropWhile Char.isDigit)

def exponent? : List Char → Option Int
  | [] => some 0
  | c :: cs =>
    if c = 'e' ∨ c = 'E' then
      let (negative, rest) := match cs with
        | '-' :: r => (true, r)
        | '+' :: r => (false, r)
        | _ => (false, cs)
      (digits? rest).map fun ds => if negative then -(ofDigits ds : Int) else ofDigits ds
    else none

def unsigned? (cs : List Char) : Option Unsigned := do
  let (whole, rest) := takeDigits cs
  let (part, rest) := match rest with
    | '.' :: r => takeDigits r
    | _ => ([], rest)
  if whole.isEmpty && part.isEmpty then none
  else some ⟨whole ++ part, part.length, ← exponent? rest⟩

/-- Exponents so large or small that the answer no longer depends on the digits are settled
without computing the power of ten. -/
def Unsigned.toBinary64 (u : Unsigned) (negative : Bool) : Binary64 :=
  let m := ofDigits u.digits
  let e := u.exponent - u.places
  let scale := e + u.digits.length
  if m = 0 ∨ scale < -400 then .ofRatio negative 0 1
  else if 400 < scale ∧ 400 < e + (toString m).length then
    if negative then .negativeInfinity else .infinity
  else if 0 ≤ e then .ofRatio negative (m * Nat.pow 10 e.toNat) 1
  else .ofRatio negative m (Nat.pow 10 (-e).toNat)

def readDouble? (s : String) : Option Binary64 :=
  let cs := s.toList
  let (negative, rest) := match cs with
    | '-' :: r => (true, r)
    | '+' :: r => (false, r)
    | _ => (false, cs)
  let word := String.ofList (lower rest)
  let signed (x : Binary64) : Binary64 := if negative then -x else x
  if word = "inf" ∨ word = "infinity" then some (signed .infinity)
  else if word = "nan" then some (signed .quietNaN)
  else (unsigned? rest).map fun u => u.toBinary64 negative

end ScopedTensor.Decimal
