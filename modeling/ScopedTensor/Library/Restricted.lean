import ScopedTensor.Library.Basic

/-! Libraries that offer less than the one they stand in front of: without the optional calls, or
with single calls that fail. They exercise a binding where an engine lacks something. -/

namespace ScopedTensor

/-- Which calls a library in front of another passes on. -/
inductive Restriction where
  | minimal
  | ghostOp
  | mute
  | noGpuCount
  | noTraining
  | noTrainingStuck
  | stuck
  deriving DecidableEq, Repr

/-- The calls an engine may leave out. -/
inductive OptionalCall where
  | row
  | slice
  | reshape
  | markVariables
  | backward
  | getGrad
  | setRecording
  | setTraining
  | randomSeed
  deriving DecidableEq, Repr

namespace Library

variable {σ : Type} (lib : Library σ)

def essential (name : String) : Library σ where
  name
  version := lib.version
  gpuCount := lib.gpuCount
  listOps := lib.listOps
  getOp := lib.getOp
  create := lib.create
  free := lib.free
  shape := lib.shape
  type := lib.type
  device := lib.device
  storage := lib.storage
  copyIn := lib.copyIn
  copyOut := lib.copyOut
  waitToRead := lib.waitToRead
  waitToWrite := lib.waitToWrite
  waitAll := lib.waitAll
  invoke := lib.invoke

def offering (name : String) (offers : OptionalCall → Bool) : Library σ :=
  let without := lib.essential name
  { without with
    row := if offers .row then lib.row else without.row
    slice := if offers .slice then lib.slice else without.slice
    reshape := if offers .reshape then lib.reshape else without.reshape
    markVariables := if offers .markVariables then lib.markVariables else without.markVariables
    backward := if offers .backward then lib.backward else without.backward
    getGrad := if offers .getGrad then lib.getGrad else without.getGrad
    setRecording := if offers .setRecording then lib.setRecording else without.setRecording
    setTraining := if offers .setTraining then lib.setTraining else without.setTraining
    randomSeed := if offers .randomSeed then lib.randomSeed else without.randomSeed }

theorem offering_all : lib.offering lib.name (fun _ => true) = lib := rfl

/-- A switch that can be turned on but not off. -/
def sticking (call message : String) (switch : Bool → Action σ Bool) (on : Bool) : Action σ Bool :=
  if on then switch on else throw (.native call (.text message))

def stuckRecording : Bool → Action σ Bool :=
  sticking "set_recording" "recording cannot be stopped" lib.setRecording

def restrict : Restriction → Library σ
  | .minimal => lib.essential "Minimal"
  | .ghostOp =>
    { lib.essential "Minimal" with listOps := do return (← lib.listOps) ++ ["ghost"] }
  | .mute =>
    { lib.essential "Minimal" with invoke := fun _ _ outputs _ => return outputs.getD [] }
  | .noGpuCount =>
    { lib.essential "Minimal" with
      gpuCount := throw (.native "gpu_count" (.text "probe failed")) }
  | .noTraining => { lib.essential "Recording" with setRecording := lib.setRecording }
  | .noTrainingStuck => { lib.essential "Recording" with setRecording := lib.stuckRecording }
  | .stuck =>
    { lib.essential "Recording" with
      setRecording := lib.stuckRecording
      setTraining := sticking "set_training" "training cannot be stopped" lib.setTraining }

end Library
end ScopedTensor
