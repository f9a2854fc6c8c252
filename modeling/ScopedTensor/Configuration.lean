import ScopedTensor.Foreign.Library
import ScopedTensor.Json
import ScopedTensor.Text.Numeral
import ScopedTensor.Value.Reading

/-! Which engine to open and how. Settings come from defaults, then a JSON text, then named
variables, where what comes later wins. -/

namespace ScopedTensor

inductive LibraryKind where
  | reference
  /-- An engine loaded from a file. -/
  | dynamic
  deriving DecidableEq, Repr, Inhabited

namespace LibraryKind

def name : LibraryKind → String
  | reference => "reference"
  | dynamic => "dylib"

def label : LibraryKind → String
  | reference => "Reference"
  | dynamic => "Dylib"

def read (s : String) : Except Error LibraryKind :=
  match String.ofList (Text.lower (Text.trim s.toList)) with
  | "reference" | "ref" => .ok reference
  | "dylib" | "mxnet" | "native" => .ok dynamic
  | other => .error (.configuration (.libraryKind other))

def ofJson? (j : Json) : Option LibraryKind :=
  match j.variantName? with
  | some "reference" => some reference
  | some "dylib" => some dynamic
  | _ => none

end LibraryKind

structure Configuration where
  library : LibraryKind
  libraryPath : Option String
  defaultDevice : String
  randomSeed : Option Nat
  simulatedGpus : Nat
  deriving DecidableEq, Inhabited

namespace Json

def text? : Json → Option String
  | text s => s
  | _ => none

def natural? (bound : Nat) : Json → Option Nat
  | integer i => if 0 ≤ i ∧ i < bound then some i.toNat else none
  | _ => none

def optional? {α : Type} (read : Json → Option α) : Json → Option (Option α)
  | null => some none
  | j => (read j).map some

def member? {α : Type} (members : List (Option String × Json)) (name : String) (default : α)
    (read : Json → Option α) : Option α :=
  match members.filter fun m => m.1 == some name with
  | [] => some default
  | [(_, j)] => read j
  | _ => none

end Json

namespace Configuration

def standard : Configuration := ⟨.reference, none, "cpu()", none, 0⟩

def fieldNames : List String :=
  ["library", "library_path", "default_device", "random_seed", "simulated_gpus"]

/-- Settings by name: an object with readable keys, or the fields in their order from the first
on. -/
def members? : Json → Option (List (Option String × Json))
  | .object members => if members.all fun m => m.1.isSome then some members else none
  | .array items =>
    if fieldNames.length < items.length then none else some ((fieldNames.map some).zip items)
  | _ => none

/-- Names that are no settings are passed over. -/
def ofJson? (j : Json) : Option Configuration := do
  let ms ← members? j
  return {
    library := ← Json.member? ms "library" standard.library LibraryKind.ofJson?
    libraryPath := ← Json.member? ms "library_path" none (Json.optional? Json.text?)
    defaultDevice := ← Json.member? ms "default_device" standard.defaultDevice Json.text?
    randomSeed :=
      ← Json.member? ms "random_seed" none (Json.optional? (Json.natural? (Nat.pow 2 32)))
    simulatedGpus := ← Json.member? ms "simulated_gpus" 0 (Json.natural? Shape.wordSize) }

def ofText (s : String) : Except Error Configuration :=
  match (Json.ofText? s).bind ofJson? with
  | some c => .ok c
  | none => .error (.configuration .unreadable)

variable (c : Configuration)

def nullable {α : Type} (write : α → String) : Option α → String
  | some a => write a
  | none => "null"

def toText : String :=
  "\x7b\"library\":" ++ Json.quote c.library.name ++
    ",\"library_path\":" ++ nullable Json.quote c.libraryPath ++
    ",\"default_device\":" ++ Json.quote c.defaultDevice ++
    ",\"random_seed\":" ++ nullable toString c.randomSeed ++
    ",\"simulated_gpus\":" ++ toString c.simulatedGpus ++ "\x7d"

abbrev Variables := String → Option String

def readSeed (s : String) : Except Error Nat :=
  match Text.natural? (Nat.pow 2 32) (Text.trim s.toList) with
  | some n => .ok n
  | none => .error (.configuration (.seed s))

def override (vars : Variables) : Except Error Configuration := do
  let library ← match vars "NDBIND_LIBRARY" with
    | some s => LibraryKind.read s
    | none => .ok c.library
  let randomSeed ← match vars "NDBIND_RANDOM_SEED" with
    | some s => (readSeed s).map some
    | none => .ok c.randomSeed
  return {
    library, randomSeed
    libraryPath := (vars "NDBIND_LIBRARY_PATH").or c.libraryPath
    defaultDevice := (vars "NDBIND_DEFAULT_DEVICE").getD c.defaultDevice
    simulatedGpus := c.simulatedGpus }

def device : Except Error Device :=
  (Device.refuseOrRead c.defaultDevice).mapError fun r => .configuration (.device r)

def resolvedPath : String := c.libraryPath.getD Foreign.defaultPath

end Configuration
end ScopedTensor
