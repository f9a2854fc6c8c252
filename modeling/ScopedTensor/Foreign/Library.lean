import ScopedTensor.Foreign.Call
import ScopedTensor.Text.Utf8

/-! A foreign engine as a library: each operation makes one call, once its arguments have been found
fit to be passed. A nonzero status is an error with the engine's own text. -/

namespace ScopedTensor.Foreign

variable {σ : Type} (host : Host σ)

def ask (c : Call) : Action σ c.Out := fun s =>
  let (answer, s) := host.call c s
  if answer.status = 0 then .ok answer.out s
  else
    let (text, s) := host.lastError s
    .error (.native c.symbol
      (.text ((text.map Text.decodeTerminated).getD "unknown native error"))) s

def word : Nat := Nat.pow 2 32

def counted {α : Type} (xs : List α) : Nat := xs.length % word

def nativeDims (s : Shape) : Except Error (List Nat) :=
  s.dims.mapM fun d => if d < word then .ok d else .error (.invalid (.dimension d))

/-- Texts end at a zero character, so they may not hold one. -/
def nativeText (s : String) : Except Error String :=
  if s.toList.contains (Char.ofNat 0) then .error (.invalid (.zeroOctet s)) else .ok s

def versionText (v : Int) : String :=
  s!"{v.tdiv 10000}.{(v.tdiv 100).tmod 100}.{v.tmod 100}"

def indexType : Int := ElementType.i64.code

def create (device : Device) (shape : Shape) (type : ElementType) (storage : Storage)
    (delayed : Bool) : Action σ Handle := do
  let dims ← Action.ofExcept (nativeDims shape)
  let n := storage.auxiliaryCount
  if storage.isSparse then
    ask host (.createSparse storage.code dims (counted dims) device.code delayed type.code n
      (List.replicate n indexType) (List.replicate n 1) (List.replicate n 0))
  else ask host (.create dims (counted dims) device.code delayed type.code)

def shape (h : Handle) : Action σ Shape := do
  return ⟨(← ask host (.shape h)).toList⟩

def listOps : Action σ (List String) := do
  return (← ask host .opNames).toList.map Text.decodeTerminated

def getOp (name : String) : Action σ OpHandle := do
  let name ← Action.ofExcept (nativeText name)
  let op ← ask host (.opHandle name)
  if op.id = 0 then throw (.unsupported name) else return op

def filled (room : Nat) (written : Bytes) : Bytes :=
  (written ++ List.replicate (room - written.length) 0).take room

/-- An empty list of outputs is passed like none. -/
def invoke (op : OpHandle) (inputs : List Handle) (outputs : Option (List Handle))
    (params : Params) : Action σ (List Handle) := do
  let (keys, values) := params.native
  let keys ← Action.ofExcept (keys.mapM nativeText)
  let values ← Action.ofExcept (values.mapM nativeText)
  let given := outputs.getD []
  let produced ← ask host (.invoke op (counted inputs) inputs (counted given)
    (if given.isEmpty then none else some given) (counted keys) keys values)
  return outputs.getD produced.toList

def markVariables (vars : List Handle) (requests : List GradRequest)
    (gradients : List Handle) : Action σ Unit :=
  if vars.length ≠ requests.length ∨ vars.length ≠ gradients.length then
    throw (.invalid .markLengths)
  else
    ask host (.markVariables (counted vars) vars (requests.map GradRequest.code) gradients)

/-- The one count is that of the heads, however many head gradients there are. -/
def backward (heads : List Handle) (headGradients : List (Option Handle))
    (retain training : Bool) : Action σ Unit :=
  let gradients := headGradients.map fun g => g.getD ⟨0⟩
  ask host (.backward (counted heads) heads
    (if gradients.isEmpty then none else some gradients) retain training)

def getGrad (h : Handle) : Action σ (Option Handle) := do
  let g ← ask host (.getGrad h)
  return if g.isNull then none else some g

def library : Library σ where
  name := "MXNet"
  version := return versionText (← ask host .version)
  gpuCount := return (← ask host .gpuCount).toNat
  listOps := listOps host
  getOp := getOp host
  create := create host
  free h := ask host (.free h)
  shape := shape host
  type h := do Action.ofExcept (ElementType.ofCode (← ask host (.type h)))
  device h := do
    let (kind, ordinal) ← ask host (.context h)
    Action.ofExcept (Device.ofCode kind ordinal)
  storage h := do Action.ofExcept (Storage.ofCode (← ask host (.storage h)))
  copyIn h bytes length := ask host (.copyIn h bytes length)
  copyOut h room length := return filled room (← ask host (.copyOut h room length))
  waitToRead h := ask host (.waitToRead h)
  waitToWrite h := ask host (.waitToWrite h)
  waitAll := ask host .waitAll
  invoke := invoke host
  row h index := ask host (.row h (index % word))
  slice h first last := ask host (.slice h (first % word) (last % word))
  reshape h dims reverse := ask host (.reshape h (counted dims) dims reverse)
  markVariables := markVariables host
  backward := backward host
  getGrad := getGrad host
  setRecording on := return (← ask host (.setRecording on)) != 0
  setTraining on := return (← ask host (.setTraining on)) != 0
  randomSeed seed := ask host (.randomSeed (Int.bmod seed word))

/-- What a loader finds at a path: the symbols that are exported there, or why there is nothing to
load. -/
abbrev Loader := String → Except String (List String)

def probe (load : Loader) (path : String) : Except Error Unit :=
  match load path with
  | .error message => .error (.load path message)
  | .ok exported =>
    match symbols.find? fun s => !exported.contains s with
    | some missing => .error (.load path ("missing symbol " ++ missing))
    | none => .ok ()

def defaultPath : String := "libmxnet.so"

end ScopedTensor.Foreign
