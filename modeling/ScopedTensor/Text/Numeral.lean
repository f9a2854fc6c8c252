/-! White space as the Unicode property `White_Space` has it, and decimal numerals: a sign where one
is allowed, then at least one ASCII digit, and nothing else. A value outside the stated range is
refused. -/

namespace ScopedTensor.Text

def isBlank (c : Char) : Bool :=
  let n := c.toNat
  (9 ≤ n && n ≤ 13) || n == 32 || n == 0x85 || n == 0xA0 || n == 0x1680 ||
    (0x2000 ≤ n && n ≤ 0x200A) || n == 0x2028 || n == 0x2029 || n == 0x202F ||
    n == 0x205F || n == 0x3000

def trimEnd (cs : List Char) : List Char := (cs.reverse.dropWhile isBlank).reverse

def trim (cs : List Char) : List Char := trimEnd (cs.dropWhile isBlank)

def lower (cs : List Char) : List Char := cs.map Char.toLower

def digit? (c : Char) : Option Nat :=
  if '0' ≤ c ∧ c ≤ '9' then some (c.toNat - '0'.toNat) else none

def digits? (cs : List Char) : Option (List Nat) :=
  if cs.isEmpty then none else cs.mapM digit?

def ofDigits (ds : List Nat) : Nat := ds.foldl (fun n d => 10 * n + d) 0

def natural? (bound : Nat) (cs : List Char) : Option Nat := do
  let ds ← digits? (match cs with | '+' :: r => r | _ => cs)
  let n := ofDigits ds
  if n < bound then some n else none

def integer? (bound : Nat) (cs : List Char) : Option Int := do
  let (negative, rest) := match cs with
    | '-' :: r => (true, r)
    | '+' :: r => (false, r)
    | _ => (false, cs)
  let n := ofDigits (← digits? rest)
  if negative then
    if n ≤ bound then some (-(n : Int)) else none
  else
    if n < bound then some (n : Int) else none

def hex (n : Nat) : String := String.ofList (Nat.toDigits 16 n)

def commaSeparated (parts : List String) : String := ", ".intercalate parts

end ScopedTensor.Text
