import ScopedTensor.Element.Bytes
import ScopedTensor.Error
import ScopedTensor.Value.Params
import ScopedTensor.Value.Storage

/-! What an engine offers: calls over a state of its own, each of which may fail and then leaves
the state it reached. Views, gradients and seeding are optional; an engine without them refuses the
call. -/

namespace ScopedTensor

/-- An engine's name for an array. Zero stands for none. -/
structure Handle where
  id : Nat
  deriving DecidableEq, Repr, Inhabited

def Handle.isNull (h : Handle) : Bool := h.id == 0

def Handle.text (h : Handle) : String := "RawHandle(0x" ++ Text.hex h.id ++ ")"

structure OpHandle where
  id : Nat
  deriving DecidableEq, Repr, Inhabited

def OpHandle.text (h : OpHandle) : String := "OpHandle(0x" ++ Text.hex h.id ++ ")"

abbrev Action (σ α : Type) := EStateM Error σ α

namespace Action

variable {σ τ α : Type}

def zoom (get : τ → σ) (put : σ → τ → τ) (a : Action σ α) : Action τ α := fun t =>
  match a (get t) with
  | .ok x s => .ok x (put s t)
  | .error e s => .error e (put s t)

def outcome (a : Action σ α) : Action σ (Except Error α) := fun s =>
  match a s with
  | .ok x s' => .ok (.ok x) s'
  | .error e s' => .ok (.error e) s'

def quietly (a : Action σ α) : Action σ Unit := fun s =>
  match a s with
  | .ok _ s' => .ok () s'
  | .error _ s' => .ok () s'

def ofExcept : Except Error α → Action σ α
  | .ok x => pure x
  | .error e => throw e

def query (f : σ → Except Error α) : Action σ α := fun s =>
  match f s with
  | .ok x => .ok x s
  | .error e => .error e s

def transition (f : σ → Except Error (α × σ)) : Action σ α := fun s =>
  match f s with
  | .ok (x, s') => .ok x s'
  | .error e => .error e s

def after (a : Action σ α) (s : σ) : σ :=
  match a s with
  | .ok _ s' => s'
  | .error _ s' => s'

end Action

structure Library (σ : Type) where
  name : String
  version : Action σ String
  gpuCount : Action σ Nat
  listOps : Action σ (List String)
  getOp : String → Action σ OpHandle
  create : Device → Shape → ElementType → Storage → Bool → Action σ Handle
  free : Handle → Action σ Unit
  shape : Handle → Action σ Shape
  type : Handle → Action σ ElementType
  device : Handle → Action σ Device
  storage : Handle → Action σ Storage
  /-- Host bytes into an array, with the number of elements they hold. -/
  copyIn : Handle → Bytes → Nat → Action σ Unit
  /-- An array's elements into a zeroed host buffer of a given size in bytes. -/
  copyOut : Handle → Nat → Nat → Action σ Bytes
  waitToRead : Handle → Action σ Unit
  waitToWrite : Handle → Action σ Unit
  waitAll : Action σ Unit
  /-- Without outputs the engine allocates them. -/
  invoke : OpHandle → List Handle → Option (List Handle) → Params → Action σ (List Handle)
  row : Handle → Nat → Action σ Handle := fun _ _ => throw (.unsupported "at")
  slice : Handle → Nat → Nat → Action σ Handle := fun _ _ _ => throw (.unsupported "slice")
  reshape : Handle → List Int → Bool → Action σ Handle :=
    fun _ _ _ => throw (.unsupported "reshape")
  markVariables : List Handle → List GradRequest → List Handle → Action σ Unit :=
    fun _ _ _ => throw (.unsupported "mark_variables")
  /-- Heads with their head gradients, whether the recorded operators are kept, and whether the
  pass is for training. -/
  backward : List Handle → List (Option Handle) → Bool → Bool → Action σ Unit :=
    fun _ _ _ _ => throw (.unsupported "backward")
  getGrad : Handle → Action σ (Option Handle) := fun _ => throw (.unsupported "get_grad")
  setRecording : Bool → Action σ Bool := fun _ => throw (.unsupported "set_recording")
  setTraining : Bool → Action σ Bool := fun _ => throw (.unsupported "set_training")
  randomSeed : Nat → Action σ Unit := fun _ => throw (.unsupported "random_seed")

def Library.zoom {σ τ : Type} (get : τ → σ) (put : σ → τ → τ) (lib : Library σ) : Library τ where
  name := lib.name
  version := lib.version.zoom get put
  gpuCount := lib.gpuCount.zoom get put
  listOps := lib.listOps.zoom get put
  getOp n := (lib.getOp n).zoom get put
  create d s t st b := (lib.create d s t st b).zoom get put
  free h := (lib.free h).zoom get put
  shape h := (lib.shape h).zoom get put
  type h := (lib.type h).zoom get put
  device h := (lib.device h).zoom get put
  storage h := (lib.storage h).zoom get put
  copyIn h bs n := (lib.copyIn h bs n).zoom get put
  copyOut h room n := (lib.copyOut h room n).zoom get put
  waitToRead h := (lib.waitToRead h).zoom get put
  waitToWrite h := (lib.waitToWrite h).zoom get put
  waitAll := lib.waitAll.zoom get put
  invoke op xs outs p := (lib.invoke op xs outs p).zoom get put
  row h i := (lib.row h i).zoom get put
  slice h b e := (lib.slice h b e).zoom get put
  reshape h dims r := (lib.reshape h dims r).zoom get put
  markVariables vs rs gs := (lib.markVariables vs rs gs).zoom get put
  backward hs gs r t := (lib.backward hs gs r t).zoom get put
  getGrad h := (lib.getGrad h).zoom get put
  setRecording on := (lib.setRecording on).zoom get put
  setTraining on := (lib.setTraining on).zoom get put
  randomSeed n := (lib.randomSeed n).zoom get put

/-- A handle that one owner holds and gives back once. A failed free counts as given back, since
freeing twice is worse than a leak. -/
structure OwnedHandle where
  handle : Handle
  deriving DecidableEq

namespace OwnedHandle

variable {σ : Type} (r : OwnedHandle)

def isReleased : Bool := r.handle.isNull

def get : Except Error Handle :=
  if r.isReleased then .error (.invalid .released) else .ok r.handle

def release (lib : Library σ) : Action σ (Bool × OwnedHandle) := do
  if r.isReleased then return (false, r)
  (lib.free r.handle).quietly
  return (true, ⟨⟨0⟩⟩)

def text (library : String) : String :=
  "NativeResource \x7b handle: " ++ r.handle.text ++ ", library: \"" ++ library ++ "\" \x7d"

end OwnedHandle

/-- Whether an array is known to be ready. The first wait that succeeds makes it so, and later waits
then ask the engine no more; only a wait for the whole engine always does. -/
structure Readiness where
  ready : Bool
  deriving DecidableEq, Inhabited

namespace Readiness

variable {σ : Type} (r : Readiness)

def pending : Readiness := ⟨false⟩

def marked : Readiness := ⟨true⟩

def wait (call : Action σ Unit) : Action σ Readiness := do
  if r.ready then return r
  call
  return marked

def waitToRead (lib : Library σ) (h : Handle) : Action σ Readiness := r.wait (lib.waitToRead h)

def waitToWrite (lib : Library σ) (h : Handle) : Action σ Readiness := r.wait (lib.waitToWrite h)

def waitAll (lib : Library σ) : Action σ Readiness := do
  lib.waitAll
  return marked

end Readiness

end ScopedTensor
