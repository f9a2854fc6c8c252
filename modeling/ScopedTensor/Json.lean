import ScopedTensor.Text.Numeral

/-! JSON texts: a reader that accepts exactly the JSON grammar, and the quoting of strings. Members
of an object are kept in order and may repeat; whoever reads a configuration decides about them. -/

namespace ScopedTensor

inductive Json where
  | null
  | bool (b : Bool)
  | integer (i : Int)
  /-- A number with a fraction or an exponent, and negative zero. -/
  | fraction
  /-- A string; none if it holds half a surrogate pair. -/
  | text (s : Option String)
  | array (items : List Json)
  | object (members : List (Option String × Json))

namespace Json

abbrev Reader (α : Type) := List Char → Option (α × List Char)

def isBlank (c : Char) : Bool := c == ' ' || c == '\t' || c == '\n' || c == '\r'

def skipBlanks (cs : List Char) : List Char := cs.dropWhile isBlank

def expect (c : Char) (cs : List Char) : Option (List Char) :=
  match skipBlanks cs with
  | d :: rest => if d = c then some rest else none
  | [] => none

/-- A character of a string, or a 16-bit unit written as an escape. -/
inductive Piece where
  | char (c : Char)
  | unit (n : Nat)

def hexDigit? (c : Char) : Option Nat :=
  if '0' ≤ c ∧ c ≤ '9' then some (c.toNat - 48)
  else if 'a' ≤ c ∧ c ≤ 'f' then some (c.toNat - 87)
  else if 'A' ≤ c ∧ c ≤ 'F' then some (c.toNat - 55)
  else none

def hexUnit? (ds : List Char) : Option Nat := do
  return (← ds.mapM hexDigit?).foldl (fun n d => 16 * n + d) 0

def escaped? : Char → Option Char
  | '"' => some '"'
  | '\\' => some '\\'
  | '/' => some '/'
  | 'b' => some (Char.ofNat 8)
  | 'f' => some (Char.ofNat 12)
  | 'n' => some '\n'
  | 'r' => some '\r'
  | 't' => some '\t'
  | _ => none

def pieces : Reader (List Piece)
  | [] => none
  | '"' :: rest => some ([], rest)
  | '\\' :: 'u' :: a :: b :: c :: d :: rest => do
    let n ← hexUnit? [a, b, c, d]
    let (ps, rest) ← pieces rest
    return (.unit n :: ps, rest)
  | '\\' :: c :: rest => do
    let e ← escaped? c
    let (ps, rest) ← pieces rest
    return (.char e :: ps, rest)
  | c :: rest =>
    if c.toNat < 32 then none
    else do
      let (ps, rest) ← pieces rest
      return (.char c :: ps, rest)

/-- Two units that form a surrogate pair are one character. -/
def join : List Piece → Option (List Char)
  | [] => some []
  | .char c :: ps => return c :: (← join ps)
  | .unit n :: ps =>
    if n < 0xD800 ∨ 0xDFFF < n then return Char.ofNat n :: (← join ps)
    else match ps with
      | .unit m :: ps =>
        if n ≤ 0xDBFF ∧ 0xDC00 ≤ m ∧ m ≤ 0xDFFF then
          return Char.ofNat (0x10000 + (n - 0xD800) * 1024 + (m - 0xDC00)) :: (← join ps)
        else none
      | _ => none

def string : Reader (Option String) := fun cs => do
  let (ps, rest) ← pieces cs
  return ((join ps).map String.ofList, rest)

def digits (cs : List Char) : Option (List Char × List Char) :=
  let ds := cs.takeWhile Char.isDigit
  if ds.isEmpty then none else some (ds, cs.dropWhile Char.isDigit)

/-- The rest behind a fraction, and whether there was one. -/
def fractionPart : Reader Bool
  | '.' :: rest => do
    let (_, rest) ← digits rest
    return (true, rest)
  | cs => some (false, cs)

def unsigned : List Char → List Char
  | '+' :: rest => rest
  | '-' :: rest => rest
  | cs => cs

def exponentPart : Reader Bool
  | [] => some (false, [])
  | c :: rest =>
    if c = 'e' ∨ c = 'E' then do
      let (_, rest) ← digits (unsigned rest)
      return (true, rest)
    else some (false, c :: rest)

/-- A number without a superfluous leading zero. -/
def number (negative : Bool) : Reader Json := fun cs => do
  let (ds, rest) ← digits cs
  if 1 < ds.length && ds.head? == some '0' then none
  let (pointed, rest) ← fractionPart rest
  let (powered, rest) ← exponentPart rest
  let n := Text.ofDigits (ds.filterMap Text.digit?)
  let value :=
    if pointed || powered || (negative && n == 0) then .fraction
    else .integer (if negative then -n else n)
  return (value, rest)

/-- The rest behind a word that stands in front. -/
def word? (w : String) (cs : List Char) : Option (List Char) :=
  let n := w.length
  if cs.take n = w.toList then some (cs.drop n) else none

variable {α : Type}

/-- Items with commas between them up to a closing mark; at least one, and at most as many as the
first argument allows. -/
def items (item : Reader α) (close : Char) : Nat → Reader (List α)
  | 0, _ => none
  | fuel + 1, cs => do
    let (a, rest) ← item cs
    match skipBlanks rest with
    | c :: rest =>
      if c = close then return ([a], rest)
      else if c = ',' then
        let (more, rest) ← items item close fuel rest
        return (a :: more, rest)
      else none
    | [] => none

def sequence (item : Reader α) (close : Char) : Reader (List α) := fun cs =>
  match expect close cs with
  | some rest => some ([], rest)
  | none => items item close (cs.length + 1) cs

def member (item : Reader α) : Reader (Option String × α) := fun cs => do
  let (key, rest) ← string (← expect '"' cs)
  let (a, rest) ← item (← expect ':' rest)
  return ((key, a), rest)

/-- A value nested no deeper than the first argument. -/
def value : Nat → Reader Json
  | 0, _ => none
  | depth + 1, cs =>
    match skipBlanks cs with
    | '"' :: rest => (string rest).map fun (s, rest) => (.text s, rest)
    | '[' :: rest => (sequence (value depth) ']' rest).map fun (xs, rest) => (.array xs, rest)
    | '\x7b' :: rest =>
      (sequence (member (value depth)) '\x7d' rest).map fun (ms, rest) => (.object ms, rest)
    | '-' :: rest => number true rest
    | 'n' :: rest => (word? "ull" rest).map fun rest => (.null, rest)
    | 't' :: rest => (word? "rue" rest).map fun rest => (.bool true, rest)
    | 'f' :: rest => (word? "alse" rest).map fun rest => (.bool false, rest)
    | rest => number false rest

/-- A whole text; a value cannot be nested deeper than the text is long. -/
def ofText? (s : String) : Option Json := do
  let cs := s.toList
  let (v, rest) ← value (cs.length + 1) cs
  if (skipBlanks rest).isEmpty then some v else none

/-- The name of a variant that carries nothing: as a string, or as the only key of an object over
`null`. -/
def variantName? : Json → Option String
  | text s => s
  | object [(key, null)] => key
  | _ => none

def quoteChar (c : Char) : String :=
  match c with
  | '"' => "\\\""
  | '\\' => "\\\\"
  | '\n' => "\\n"
  | '\r' => "\\r"
  | '\t' => "\\t"
  | _ =>
    if c.toNat = 8 then "\\b"
    else if c.toNat = 12 then "\\f"
    else if c.toNat < 16 then "\\u000" ++ Text.hex c.toNat
    else if c.toNat < 32 then "\\u00" ++ Text.hex c.toNat
    else c.toString

def quote (s : String) : String := "\"" ++ String.join (s.toList.map quoteChar) ++ "\""

end Json
end ScopedTensor
