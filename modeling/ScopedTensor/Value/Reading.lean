import ScopedTensor.Error
import ScopedTensor.Text.Numeral
import ScopedTensor.Value.Storage

/-! Element types, devices and storage layouts read from text and from an engine's numbers. -/

namespace ScopedTensor

def ElementType.read (s : String) : Except Error ElementType :=
  let w := String.ofList (Text.lower s.toList)
  match all.find? fun t => t.name == w || t.tag == w with
  | some t => .ok t
  | none => .error (.invalid (.unknownElementType s))

def ElementType.ofCode (c : Int) : Except Error ElementType :=
  match ofCode? c with
  | some t => .ok t
  | none => .error (.invalid (.unknownElementCode c))

def Device.splitText (cs : List Char) : List Char × List Char :=
  let opens (c : Char) : Bool := c == '(' || c == ':'
  let kind := cs.takeWhile fun c => !opens c
  let rest := (cs.dropWhile fun c => !opens c).drop 1
  (kind, (rest.reverse.dropWhile (· == ')')).reverse)

/-- A kind, alone or with an ordinal behind a colon or in parentheses; blanks around and letter case
do not matter. The ordinal is looked at first, and that of the host is dropped. -/
def Device.refuseOrRead (s : String) : Except Refusal Device :=
  let cs := Text.lower (Text.trim s.toList)
  let (kind, ordinal) := splitText cs
  let text := String.ofList cs
  match if ordinal.isEmpty then some 0 else Text.natural? Shape.wordSize ordinal with
  | none => .error (.badOrdinal text)
  | some n =>
    match String.ofList kind with
    | "cpu" => .ok .cpu
    | "gpu" | "cuda" => .ok (.gpu n)
    | _ => .error (.unknownDevice text)

def Device.read (s : String) : Except Error Device := (refuseOrRead s).mapError .invalid

def Device.ofCode (kind ordinal : Int) : Except Error Device :=
  match ofCode? kind ordinal with
  | some d => .ok d
  | none => .error (.invalid (.unknownDeviceCode kind ordinal))

def Storage.ofCode (c : Int) : Except Error Storage :=
  match ofCode? c with
  | some s => .ok s
  | none => .error (.invalid (.unknownStorageCode c))

end ScopedTensor
