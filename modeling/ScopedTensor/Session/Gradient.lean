import ScopedTensor.Session.Operations

/-! Gradients: arrays that want one, backward passes, and recording sections that put the engine's
switches back where they were. -/

namespace ScopedTensor

namespace Session

variable {σ : Type}

def gradientBuffer (a : ArrayId) (storage : Option Storage) : Action (Session σ) ArrayId := do
  match storage.filter Storage.isSparse with
  | none => outputOf a "zeros_like" [a] .empty
  | some format =>
    let d ← device a
    let s ← shape a
    sibling a d s (← type a) format

/-- Tells the engine that an array wants its gradient in a fresh buffer in the array's scope. A
buffer from an earlier call is given back; so is the fresh one when the engine refuses. -/
def attachGrad (a : ArrayId) (request : GradRequest) (storage : Option Storage) :
    Action (Session σ) Unit := settled do
  let g ← gradientBuffer a storage
  let ah ← handle a
  let gh ← handle g
  match ← (callFor a fun lib => lib.markVariables [ah] [request] [gh]).outcome with
  | .error e =>
    retire g
    throw e
  | .ok () =>
    let earlier := (← array a).gradient
    modifyArray a fun t => { t with gradient := some g }
    earlier.forM retire

def backward (a : ArrayId) (seed : Option ArrayId) (retain training : Bool) :
    Action (Session σ) Unit := do
  let seed ← match seed with
    | none => pure none
    | some g => do
      requireSameEngine .foreignHeadGradient a g
      some <$> handle g
  let h ← handle a
  callFor a fun lib => lib.backward [h] [seed] retain training

def gradient (a : ArrayId) : Action (Session σ) ArrayId := keeping do
  let h ← handle a
  match ← callFor a fun lib => lib.getGrad h with
  | some g => joinScope a g none
  | none => throw (.invalid .noGradient)

end Session

/-- A recording section: the engine, and where its switches stood before. -/
structure RecordingSection (σ : Type) where
  engine : LoadedEngine σ
  recording : Bool
  training : Bool

namespace RecordingSection

variable {σ : Type}

/-- Turns recording and training on. Recording is put back when training cannot be turned on. -/
def start (engine : LoadedEngine σ) : Action σ (RecordingSection σ) := do
  let recording ← engine.library.setRecording true
  match ← (engine.library.setTraining true).outcome with
  | .ok training => return ⟨engine, recording, training⟩
  | .error e =>
    (engine.library.setRecording recording).quietly
    throw e

variable (c : RecordingSection σ)

def finish : Action σ Unit := do
  (c.engine.library.setRecording c.recording).quietly
  (c.engine.library.setTraining c.training).quietly

def backward (a : ArrayId) (seed : Option ArrayId) (retain : Bool) : Action (Session σ) Unit := do
  if c.engine.id ≠ (← Session.array a).engine.id then throw (.invalid .foreignArray)
  Session.backward a seed retain true

end RecordingSection
end ScopedTensor
