import ScopedTensor.Configuration
import ScopedTensor.Session.Gradient

/-! An engine with its operators resolved and the scope at the root of its tree. An engine that is
dropped closes its root, and with it every scope below. -/

namespace ScopedTensor

structure Engine (σ : Type) where
  loaded : LoadedEngine σ
  configuration : Configuration
  device : Device
  system : ScopeId

namespace Engine

variable {σ : Type}

def build (library : Library σ) (configuration : Configuration) (device : Device) :
    Action (Session σ) (Engine σ) := do
  let operators ← Session.onNative (OperatorTable.load library)
  let loaded : LoadedEngine σ := ⟨← Session.freshId, library, operators⟩
  configuration.randomSeed.forM fun seed => Session.onNative (library.randomSeed seed)
  return ⟨loaded, configuration, device, ← Session.rootScope loaded device⟩

def ofConfiguration (openLibrary : Configuration → Action σ (Library σ)) (c : Configuration) :
    Action (Session σ) (Engine σ) := do
  let device ← Action.ofExcept c.device
  build (← Session.onNative (openLibrary c)) c device

def ofLibrary (library : Library σ) : Action (Session σ) (Engine σ) := do
  build library .standard (← Action.ofExcept Configuration.standard.device)

variable (e : Engine σ)

def version : Action (Session σ) String := Session.onNative e.loaded.library.version

def gpuCount : Action (Session σ) Nat := Session.onNative e.loaded.library.gpuCount

/-- Accelerators count as absent when the engine cannot say. -/
def hasAccelerators : Action (Session σ) Bool := do
  match ← e.gpuCount.outcome with
  | .ok n => return decide (0 < n)
  | .error _ => return false

def hasOptimizedKernels : Bool := e.configuration.library == .reference

def setRandomSeed (seed : Nat) : Action (Session σ) Unit :=
  Session.onNative (e.loaded.library.randomSeed seed)

def baseScope (device : Option Device) : Action (Session σ) ScopeId :=
  Session.subScope e.system (some (device.getD e.device))

def startRecording : Action (Session σ) (RecordingSection σ) :=
  Session.onNative (RecordingSection.start e.loaded)

def drop : Action (Session σ) Unit := do
  Session.closeScope e.system
  Session.dropScope e.system

def text : String :=
  "Engine \x7b name: \"" ++ e.loaded.library.name ++ "\", library: " ++
    e.configuration.library.label ++ ", device: " ++ e.device.label ++ ", ops: " ++
    toString e.loaded.operators.size ++ " \x7d"

end Engine
end ScopedTensor
