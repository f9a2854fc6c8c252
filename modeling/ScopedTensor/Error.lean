import ScopedTensor.Value.Device
import ScopedTensor.Value.ElementType
import ScopedTensor.Value.Shape

/-! Why a call can fail: a cause for each way to go wrong, and one function for the wording. -/

namespace ScopedTensor

/-- Arguments refused before an engine is asked. -/
inductive Refusal where
  | unknownElementType (text : String)
  | unknownElementCode (code : Int)
  | badOrdinal (text : String)
  | unknownDevice (text : String)
  | unknownDeviceCode (kind ordinal : Int)
  | unknownStorageCode (code : Int)
  | released
  | scopeClosed
  | adoptingScopeClosed
  | adoptingReleased
  | previousScopeClosing
  | releasedWithScope
  | foreignArray
  | foreignOperand
  | foreignDestination
  | foreignHeadGradient
  | copyShapes (source target : Shape)
  | operandShapes (operator : String) (left right : Shape)
  | operandTypes (operator : String) (left right : ElementType)
  | valueCount (count : Nat) (shape : Shape)
  | byteCount (count size : Nat) (type : ElementType)
  | index (index : Nat) (shape : Shape)
  | range (first last : Nat) (shape : Shape)
  | reshape (shape : Shape) (target : List Int)
  | axis (axis : Int) (shape : Shape)
  | noSections
  | noGradient
  | dimension (length : Nat)
  | zeroOctet (text : String)
  | markLengths
  deriving DecidableEq, Repr

/-- What an engine reports about a call. -/
inductive Report where
  | unknownArray (id : Nat)
  | notLive (id : Nat)
  | unregistered (name : String)
  | unknownOperator (id : Nat)
  | unavailable (device : Device) (count : Nat)
  | hostSource (held length bytes : Nat)
  | hostTarget (held length bytes : Nat)
  | index (index : Nat) (shape : Shape)
  | range (first last : Nat) (shape : Shape)
  | reshape (shape : Shape) (target : List Int)
  | inputCount (expected actual : Nat)
  | outputCount (expected actual : Nat)
  | outputTooSmall (held result : Shape)
  | missing (parameter : String)
  | negativeDimension (length : Int)
  | shapes (left right : Shape)
  | types (left right : ElementType)
  | axis (axis : Int) (shape : Shape)
  | partCount
  | unequalParts (axis length parts : Nat)
  | squeezedParts
  | zeroTemperature
  | notDifferentiable
  | markLengths
  | markShapes (gradient marked : Shape)
  | headGradient (held expected : Nat)
  | noOutput
  | text (message : String)
  deriving DecidableEq, Repr

/-- Settings that cannot be used. -/
inductive BadSetting where
  | unreadable
  | libraryKind (text : String)
  | seed (text : String)
  | device (refusal : Refusal)
  deriving DecidableEq, Repr

inductive Error where
  | unsupported (operation : String)
  | invalid (refusal : Refusal)
  | typeMismatch (required actual : ElementType)
  | native (call : String) (report : Report)
  | load (path message : String)
  | configuration (setting : BadSetting)
  deriving DecidableEq, Repr

/-- What comes of work that may fail, or break off with neither a result nor an error. -/
abbrev Attempt (α : Type) := ExceptT Error Option α

def Attempt.ofExcept {α : Type} (x : Except Error α) : Attempt α := show Option _ from some x

def Refusal.message : Refusal → String
  | unknownElementType s => s!"unknown dtype: {s}"
  | unknownElementCode c => s!"unknown native dtype code {c}"
  | badOrdinal s => s!"invalid device index in '{s}'"
  | unknownDevice s => s!"unknown device: {s}"
  | unknownDeviceCode k o => s!"unknown native device ({k}, {o})"
  | unknownStorageCode c => s!"unknown native storage type {c}"
  | released => "native resource already released"
  | scopeClosed => "scope is closed"
  | adoptingScopeClosed => "cannot adopt into a closed scope"
  | adoptingReleased => "cannot adopt a released array"
  | previousScopeClosing => "previous scope is closing"
  | releasedWithScope => "array was released with its scope"
  | foreignArray => "array belongs to a different engine"
  | foreignOperand => "operand belongs to a different engine"
  | foreignDestination => "destination belongs to a different engine"
  | foreignHeadGradient => "head gradient belongs to a different engine"
  | copyShapes a b => "shape mismatch: cannot copy " ++ a.text ++ " into " ++ b.text
  | operandShapes o a b => s!"{o}: shape mismatch " ++ a.text ++ " vs " ++ b.text
  | operandTypes o a b => s!"{o}: dtype mismatch " ++ a.name ++ " vs " ++ b.name
  | valueCount n s => s!"{n} values cannot fill shape " ++ s.text
  | byteCount n k t => s!"{n} bytes cannot fill {k} elements of " ++ t.name
  | index i s => s!"index {i} out of range for shape " ++ s.text
  | range b e s => s!"range [{b}, {e}) out of range for shape " ++ s.text
  | reshape s t => "cannot reshape " ++ s.text ++ " into " ++ Shape.listText t
  | axis a s => s!"axis {a} out of range for shape " ++ s.text
  | noSections => "split needs at least one section"
  | noGradient => "no gradient attached; call attach_grad first"
  | dimension d => s!"dimension {d} exceeds native range"
  | zeroOctet s => s!"interior NUL in '{s}'"
  | markLengths => "mark_variables: vars, reqs and grads must have equal length"

def Report.message : Report → String
  | unknownArray i => s!"unknown array handle {i}"
  | notLive i => s!"handle {i} is not live (double free?)"
  | unregistered n => s!"operator {n} is not registered"
  | unknownOperator i => "unknown operator handle OpHandle(0x" ++ Text.hex i ++ ")"
  | unavailable d n => d.text ++ s!" not available ({n} gpu(s))"
  | hostSource h l b => s!"array holds {h} elements, got {l} elements in {b} bytes"
  | hostTarget h l b =>
    s!"array holds {h} elements, host buffer has room for {l} in {b} bytes"
  | index i s => s!"index {i} out of range for shape " ++ s.text
  | range b e s => s!"range [{b}, {e}) out of range for shape " ++ s.text
  | reshape s t => "cannot reshape " ++ s.text ++ " into " ++ Shape.listText t
  | inputCount e a => s!"expected {e} inputs, got {a}"
  | outputCount e a => s!"expected {e} outputs, got {a}"
  | outputTooSmall h r => "output " ++ h.text ++ " cannot hold result " ++ r.text
  | missing p => s!"missing parameter '{p}'"
  | negativeDimension d => s!"negative dimension {d}"
  | shapes a b => "shape mismatch " ++ a.text ++ " vs " ++ b.text
  | types a b => "dtype mismatch " ++ a.name ++ " vs " ++ b.name
  | axis a s => s!"axis {a} out of range for shape " ++ s.text
  | partCount => "num_outputs must be a positive integer"
  | unequalParts a l p => s!"axis {a} of length {l} does not split into {p} equal parts"
  | squeezedParts => "squeeze_axis requires parts of length 1"
  | zeroTemperature => "temperature must be non-zero"
  | notDifferentiable => "operator is not differentiable"
  | markLengths => "variables, requests and gradients differ in length"
  | markShapes g v => "gradient " ++ g.text ++ " does not match variable " ++ v.text
  | headGradient g h => s!"head gradient has {g} elements, head has {h}"
  | noOutput => "operator returned no output"
  | text m => m

def BadSetting.message : BadSetting → String
  | unreadable => "unreadable"
  | libraryKind s => s!"unknown library kind '{s}'"
  | seed s => s!"NDBIND_RANDOM_SEED: '{s}' is not a u32"
  | device r => "default_device: invalid argument: " ++ r.message

def Error.message : Error → String
  | unsupported o => s!"unsupported operation: {o}"
  | invalid r => "invalid argument: " ++ r.message
  | typeMismatch r a => "data type mismatch: required " ++ r.name ++ ", actual " ++ a.name
  | native c r => s!"native call {c} failed: " ++ r.message
  | load p m => s!"failed to load native library '{p}': {m}"
  | configuration s => "configuration error: " ++ s.message

end ScopedTensor
