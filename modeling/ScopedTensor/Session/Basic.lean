import ScopedTensor.Library.OperatorTable
import ScopedTensor.Table
import ScopedTensor.Value.Storage

/-! What a program holds of its engines: scopes in a tree, arrays with at most one scope each, and
how often the program holds on to each of them. Scopes know their parents and children only as long
as somebody holds those. -/

namespace ScopedTensor

abbrev ScopeId := Nat

abbrev ArrayId := Nat

/-- What is known about an array without looking at its contents. -/
structure Description where
  name : Option String
  shape : Shape
  type : ElementType
  device : Device
  storage : Storage
  deriving DecidableEq

namespace Description

def dense (shape : Shape) (type : ElementType) (device : Device) : Description :=
  ⟨none, shape, type, device, .dense⟩

variable (d : Description)

def byteLength : Nat := d.type.storageBytes d.shape.size

def text : String :=
  (match d.name with | some n => n ++ ": " | none => "") ++
    d.shape.text ++ " " ++ d.device.text ++ " " ++ d.type.name ++
    (if d.storage.isSparse then " " ++ d.storage.name else "")

end Description

structure LoadedEngine (σ : Type) where
  id : Nat
  library : Library σ
  operators : OperatorTable

structure Scope (σ : Type) where
  /-- Where arrays are created unless another device is asked for. -/
  device : Device
  engine : LoadedEngine σ
  parent : Option ScopeId
  closed : Bool
  arrays : List ArrayId
  children : List ScopeId

/-- An array: the handle it owns, what is known of it without asking the engine, the scope that owns
it, and the gradient buffer that the engine was given last. -/
structure Tensor (σ : Type) where
  owned : OwnedHandle
  engine : LoadedEngine σ
  shape : Option Shape
  type : Option ElementType
  device : Option Device
  storage : Option Storage
  name : Option String
  readiness : Readiness
  owner : Option ScopeId
  gradient : Option ArrayId

structure Session (σ : Type) where
  native : σ
  /-- Loaded engines, scopes and arrays are numbered together, from one on. -/
  lastId : Nat
  scopes : Table (Scope σ)
  arrays : Table (Tensor σ)
  /-- Scopes that variables hold, one entry for each variable. -/
  scopeHolds : List ScopeId
  /-- Arrays that variables hold, one entry for each variable. -/
  arrayHolds : List ArrayId

namespace Session

variable {σ α : Type}

def start (native : σ) : Session σ := ⟨native, 0, .empty, .empty, [], []⟩

def onNative (a : Action σ α) : Action (Session σ) α :=
  a.zoom native fun n s => { s with native := n }

def freshId : Action (Session σ) Nat := fun s =>
  .ok (s.lastId + 1) { s with lastId := s.lastId + 1 }

/-- A scope nobody holds any more counts as closed. -/
def scope (id : ScopeId) : Action (Session σ) (Scope σ) := .query fun s =>
  match s.scopes.get? id with
  | some scope => .ok scope
  | none => .error (.invalid .scopeClosed)

/-- An array nobody holds any more counts as released. -/
def array (id : ArrayId) : Action (Session σ) (Tensor σ) := .query fun s =>
  match s.arrays.get? id with
  | some a => .ok a
  | none => .error (.invalid .released)

def modifyScope (id : ScopeId) (f : Scope σ → Scope σ) : Action (Session σ) Unit :=
  modify fun s => { s with scopes := s.scopes.modify id f }

def modifyArray (id : ArrayId) (f : Tensor σ → Tensor σ) : Action (Session σ) Unit :=
  modify fun s => { s with arrays := s.arrays.modify id f }

def holdArray (id : ArrayId) : Action (Session σ) Unit :=
  modify fun s => { s with arrayHolds := id :: s.arrayHolds }

def holdScope (id : ScopeId) : Action (Session σ) Unit :=
  modify fun s => { s with scopeHolds := id :: s.scopeHolds }

/-- Held by a variable, by a scope, or as the gradient of an array. -/
def isHeld (s : Session σ) (id : ArrayId) : Bool :=
  s.arrayHolds.contains id ||
    s.scopes.entries.any (fun e => e.2.arrays.contains id) ||
    s.arrays.entries.any fun e => e.2.gradient == some id

def release (id : ArrayId) : Action (Session σ) Unit := do
  match (← get).arrays.get? id with
  | none => pure ()
  | some a =>
    let (_, owned) ← onNative (a.owned.release a.engine.library)
    modifyArray id fun a => { a with owned }

/-- Ends an array that nobody holds. Its gradient may then be held by nobody in turn. -/
def bury (id : ArrayId) : Action (Session σ) Unit := do
  release id
  modify fun s => { s with arrays := s.arrays.erase id }

def letGo (id : ArrayId) : Action (Session σ) Unit := do
  if !(← get).isHeld id then bury id

def buryUnheld : Nat → Action (Session σ) Unit
  | 0 => pure ()
  | n + 1 => do
    let s ← get
    match s.arrays.keys.find? fun id => !s.isHeld id with
    | none => pure ()
    | some id =>
      bury id
      buryUnheld n

def sweep : Action (Session σ) Unit := do
  buryUnheld (← get).arrays.size

/-- An operation as the program sees it: what it left behind unheld is gone when it is over. -/
def settled (a : Action (Session σ) α) : Action (Session σ) α := do
  let result ← a.outcome
  sweep
  Action.ofExcept result

def keeping (a : Action (Session σ) ArrayId) : Action (Session σ) ArrayId := settled do
  let id ← a
  holdArray id
  return id

def keepingAll (a : Action (Session σ) (List ArrayId)) : Action (Session σ) (List ArrayId) :=
  settled do
    let ids ← a
    ids.forM holdArray
    return ids

def dropArray (id : ArrayId) : Action (Session σ) Unit := settled do
  modify fun s => { s with arrayHolds := s.arrayHolds.erase id }

def cloneArray (id : ArrayId) : Action (Session σ) Unit := do
  let _ ← array id
  holdArray id

def wrap (engine : LoadedEngine σ) (h : Handle) (known : Option Description) :
    Action (Session σ) ArrayId := do
  let id ← freshId
  let a : Tensor σ :=
    { owned := ⟨h⟩
      engine
      shape := known.map Description.shape
      type := known.map Description.type
      device := known.map Description.device
      storage := known.map Description.storage
      name := known.bind Description.name
      readiness := .pending
      owner := none
      gradient := none }
  modify fun s => { s with arrays := s.arrays.insert id a }
  return id

def attach (owner : Option ScopeId) (id : ArrayId) : Action (Session σ) Unit := do
  match owner with
  | none => pure ()
  | some o =>
    if (← scope o).closed then throw (.invalid .scopeClosed)
    modifyScope o fun s => { s with arrays := s.arrays ++ [id] }
    modifyArray id fun a => { a with owner := some o }

def leave (id : ArrayId) : Action (Session σ) Unit := do
  match ((← get).arrays.get? id).bind Tensor.owner with
  | none => pure ()
  | some o =>
    modifyArray id fun a => { a with owner := none }
    modifyScope o fun s => { s with arrays := s.arrays.erase id }

def retire (id : ArrayId) : Action (Session σ) Unit := do
  release id
  leave id

def closeArray (id : ArrayId) : Action (Session σ) Unit := settled (retire id)

def detach (id : ArrayId) : Action (Session σ) Unit := settled (leave id)

end Session
end ScopedTensor
