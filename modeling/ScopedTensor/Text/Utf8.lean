/-! UTF-8 octets read as text. Octets that begin no character are shown as U+FFFD, one for each
longest run that could still have begun one. A foreign text ends at its first zero octet. -/

namespace ScopedTensor.Text

/-- For the first octet of a character: how many follow, and the range of the next one. -/
def sequenceShape (b : Nat) : Option (Nat × Nat × Nat) :=
  if 0xC2 ≤ b ∧ b ≤ 0xDF then some (1, 0x80, 0xBF)
  else if b = 0xE0 then some (2, 0xA0, 0xBF)
  else if b = 0xED then some (2, 0x80, 0x9F)
  else if 0xE1 ≤ b ∧ b ≤ 0xEF then some (2, 0x80, 0xBF)
  else if b = 0xF0 then some (3, 0x90, 0xBF)
  else if 0xF1 ≤ b ∧ b ≤ 0xF3 then some (3, 0x80, 0xBF)
  else if b = 0xF4 then some (3, 0x80, 0x8F)
  else none

/-- Where a reader stands: between characters, or owing `owed` octets of one whose bits so far
are `bits`, the next octet lying in a range. -/
inductive Utf8State where
  | between
  | inside (owed bits low high : Nat)

def replacement : Char := Char.ofNat 0xFFFD

def startCharacter (b : Nat) (out : List Char) : Utf8State × List Char :=
  if b < 0x80 then (.between, Char.ofNat b :: out)
  else match sequenceShape b with
    | none => (.between, replacement :: out)
    | some (owed, low, high) =>
      (.inside owed (b % Nat.pow 2 (6 - owed)) low high, out)

def stepUtf8 : Utf8State × List Char → Nat → Utf8State × List Char
  | (.between, out), b => startCharacter b out
  | (.inside owed bits low high, out), b =>
    if low ≤ b ∧ b ≤ high then
      let bits := bits * 64 + b % 64
      if owed ≤ 1 then (.between, Char.ofNat bits :: out)
      else (.inside (owed - 1) bits 0x80 0xBF, out)
    else startCharacter b (replacement :: out)

def decodeUtf8 (bytes : List UInt8) : String :=
  match bytes.foldl (fun s b => stepUtf8 s b.toNat) (.between, []) with
  | (.between, out) => String.ofList out.reverse
  | (.inside .., out) => String.ofList (replacement :: out).reverse

def decodeTerminated (bytes : List UInt8) : String :=
  decodeUtf8 (bytes.takeWhile fun b => b != 0)

end ScopedTensor.Text
