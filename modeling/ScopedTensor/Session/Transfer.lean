import ScopedTensor.Element.Codec
import ScopedTensor.Session.Array

/-! Contents between host and engine. A transfer waits for the engine by itself, and afterwards the
array is known to be ready. -/

namespace ScopedTensor.Session

variable {σ : Type}

def setBytes (id : ArrayId) (bytes : Bytes) : Action (Session σ) Unit := do
  let n ← size id
  let t ← type id
  if bytes.length ≠ t.storageBytes n then throw (.invalid (.byteCount bytes.length n t))
  let h ← handle id
  callFor id fun lib => lib.copyIn h bytes n
  markReady id

def toBytes (id : ArrayId) : Action (Session σ) Bytes := do
  let n ← size id
  let t ← type id
  let h ← handle id
  let bytes ← callFor id fun lib => lib.copyOut h (t.storageBytes n) n
  markReady id
  return bytes

def set (id : ArrayId) (t : HostType) (values : List (HostValue t)) : Action (Session σ) Unit := do
  let required ← type id
  if t.element ≠ required then throw (.typeMismatch required t.element)
  setBytes id (HostValue.encode t values)

def toValues (id : ArrayId) (t : HostType) : Action (Session σ) (List (HostValue t)) := do
  let actual ← type id
  if actual ≠ t.element then throw (.typeMismatch t.element actual)
  return HostValue.decode t (← toBytes id)

def toDoubles [HalfPrecision] (id : ArrayId) : Action (Session σ) (List Binary.Binary64) := do
  let t ← type id
  return t.decode (← toBytes id)

def fromValues (id : ScopeId) (t : HostType) (values : List (HostValue t)) (shape : Shape) :
    Action (Session σ) ArrayId := keeping do
  if values.length ≠ shape.size then throw (.invalid (.valueCount values.length shape))
  let new ← createdOn id (← scope id).device shape t.element .dense
  set new t values
  return new

end ScopedTensor.Session
