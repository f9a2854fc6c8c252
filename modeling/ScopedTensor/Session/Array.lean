import ScopedTensor.Session.Scope

/-! Arrays: what is known about them, waiting for them, running operators on them, and the arrays
made from nothing in a scope. What the engine was asked once about an array is remembered. -/

namespace ScopedTensor

def Tensor.text {σ : Type} (a : Tensor σ) (name : String) : String :=
  "NdArray \x7b id: " ++ name ++
    (match a.shape with | some s => ", shape: " ++ s.label | none => "") ++
    (match a.type with | some t => ", dtype: " ++ t.label | none => "") ++
    ", released: " ++ toString a.owned.isReleased ++ " \x7d"

namespace Session

variable {σ α : Type}

def callFor (id : ArrayId) (f : Library σ → Action σ α) : Action (Session σ) α := do
  onNative (f (← array id).engine.library)

def handle (id : ArrayId) : Action (Session σ) Handle := do
  Action.ofExcept (← array id).owned.get

def remembered (known : Tensor σ → Option α) (remember : α → Tensor σ → Tensor σ)
    (load : Library σ → Handle → Action σ α) (id : ArrayId) : Action (Session σ) α := do
  match known (← array id) with
  | some x => return x
  | none =>
    let h ← handle id
    let x ← callFor id fun lib => load lib h
    modifyArray id (remember x)
    return x

def shape : ArrayId → Action (Session σ) Shape :=
  remembered Tensor.shape (fun x a => { a with shape := some x }) Library.shape

def type : ArrayId → Action (Session σ) ElementType :=
  remembered Tensor.type (fun x a => { a with type := some x }) Library.type

def device : ArrayId → Action (Session σ) Device :=
  remembered Tensor.device (fun x a => { a with device := some x }) Library.device

def storage : ArrayId → Action (Session σ) Storage :=
  remembered Tensor.storage (fun x a => { a with storage := some x }) Library.storage

def size (id : ArrayId) : Action (Session σ) Nat := return (← shape id).size

def setName (id : ArrayId) (name : String) : Action (Session σ) Unit :=
  modifyArray id fun a => { a with name := some name }

def description (id : ArrayId) : Action (Session σ) Description := do
  let shape ← shape id
  let type ← type id
  let device ← device id
  let storage ← storage id
  return ⟨(← array id).name, shape, type, device, storage⟩

def isReleased (id : ArrayId) : Action (Session σ) Bool :=
  return (← array id).owned.isReleased

def waitBy (wait : Readiness → Library σ → Action σ Readiness) (id : ArrayId) :
    Action (Session σ) Unit := do
  let readiness ← callFor id (wait (← array id).readiness)
  modifyArray id fun a => { a with readiness }

def waitToRead (id : ArrayId) : Action (Session σ) Unit := do
  let h ← handle id
  waitBy (fun r lib => r.waitToRead lib h) id

def waitToWrite (id : ArrayId) : Action (Session σ) Unit := do
  let h ← handle id
  waitBy (fun r lib => r.waitToWrite lib h) id

def waitAll (id : ArrayId) : Action (Session σ) Unit := do
  let _ ← handle id
  waitBy (fun _ lib => Readiness.waitAll lib) id

def markReady (id : ArrayId) : Action (Session σ) Unit :=
  modifyArray id fun a => { a with readiness := .marked }

def sameEngine (a b : ArrayId) : Action (Session σ) Bool :=
  return (← array a).engine.id == (← array b).engine.id

def requireSameEngine (refusal : Refusal) (a b : ArrayId) : Action (Session σ) Unit := do
  if !(← sameEngine a b) then throw (.invalid refusal)

/-- New arrays around handles an engine returned, entered into a scope one after the other once all
are wrapped. -/
def wrapAll (engine : LoadedEngine σ) (owner : Option ScopeId) (known : Option Description)
    (handles : List Handle) : Action (Session σ) (List ArrayId) := do
  let ids ← handles.mapM fun h => wrap engine h known
  ids.forM (attach owner)
  return ids

def joinScope (id : ArrayId) (h : Handle) (known : Option Description) :
    Action (Session σ) ArrayId := do
  let a ← array id
  let new ← wrap a.engine h known
  attach a.owner new
  return new

def sibling (id : ArrayId) (device : Device) (shape : Shape) (type : ElementType)
    (storage : Storage) : Action (Session σ) ArrayId := do
  let h ← callFor id fun lib => lib.create device shape type storage false
  joinScope id h (some { Description.dense shape type device with storage })

def run (engine : LoadedEngine σ) (op : String) (inputs : List Handle)
    (outputs : Option (List Handle)) (params : Params) : Action (Session σ) (List Handle) :=
  onNative (engine.operators.invoke engine.library op inputs outputs params)

def outputsOf (id : ArrayId) (op : String) (inputs : List ArrayId) (params : Params) :
    Action (Session σ) (List ArrayId) := do
  let handles ← inputs.mapM fun input => do
    requireSameEngine .foreignOperand id input
    handle input
  let a ← array id
  let outputs ← run a.engine op handles none params
  wrapAll a.engine a.owner none outputs

/-- The first output of an operator. The others last only as long as a scope owns them. -/
def outputOf (id : ArrayId) (op : String) (inputs : List ArrayId) (params : Params) :
    Action (Session σ) ArrayId := do
  match ← outputsOf id op inputs params with
  | out :: others =>
    others.forM letGo
    return out
  | [] => throw (.native op .noOutput)

def invoke (id : ArrayId) (op : String) (inputs : List ArrayId) (params : Params) :
    Action (Session σ) (List ArrayId) := keepingAll (outputsOf id op inputs params)

def copyInto (source target : ArrayId) : Action (Session σ) Unit := do
  requireSameEngine .foreignDestination source target
  let s ← shape source
  let t ← shape target
  if s ≠ t then throw (.invalid (.copyShapes s t))
  let th ← handle target
  let sh ← handle source
  let _ ← run (← array source).engine "_copyto" [sh] (some [th]) .empty

def copyTo (source target : ArrayId) : Action (Session σ) Unit := settled (copyInto source target)

def copyAs (id : ArrayId) (device : Device) (shape : Shape) (type : ElementType)
    (storage : Storage) : Action (Session σ) ArrayId := do
  let target ← sibling id device shape type storage
  copyInto id target
  return target

def toDevice (id : ArrayId) (target : Device) (copy : Bool) : Action (Session σ) ArrayId :=
  keeping do
    if !copy then
      if (← device id) = target then return id
    let s ← shape id
    let t ← type id
    copyAs id target s t (← storage id)

def toType (id : ArrayId) (target : ElementType) (copy : Bool) : Action (Session σ) ArrayId :=
  keeping do
    if !copy then
      if (← type id) = target then return id
    let d ← device id
    let s ← shape id
    copyAs id d s target (← storage id)

def requireOpen (id : ScopeId) : Action (Session σ) (Scope σ) := do
  let s ← scope id
  if s.closed then throw (.invalid .scopeClosed)
  return s

/-- Makes a scope the owner of a handle. The handle is given back if the scope is closed. -/
def fromHandle (id : ScopeId) (h : Handle) (known : Option Description) :
    Action (Session σ) ArrayId := keeping do
  let s ← scope id
  let new ← wrap s.engine h known
  attach (some id) new
  return new

def createdOn (id : ScopeId) (device : Device) (shape : Shape) (type : ElementType)
    (storage : Storage) : Action (Session σ) ArrayId := do
  let s ← requireOpen id
  let h ← onNative (s.engine.library.create device shape type storage false)
  let new ← wrap s.engine h (some { Description.dense shape type device with storage })
  attach (some id) new
  return new

def createOn (id : ScopeId) (device : Device) (shape : Shape) (type : ElementType)
    (storage : Storage) : Action (Session σ) ArrayId :=
  keeping (createdOn id device shape type storage)

def create (id : ScopeId) (shape : Shape) (type : ElementType) : Action (Session σ) ArrayId :=
  keeping do createdOn id (← scope id).device shape type .dense

def filled (op : String) (id : ScopeId) (shape : Shape) (type : ElementType) :
    Action (Session σ) ArrayId := keeping do
  let s ← requireOpen id
  let params := ((Params.empty.set "shape" (Params.dimsParam shape)).set "ctx"
    (.device s.device)).set "dtype" (.type type)
  let handles ← run s.engine op [] none params
  let ids ← wrapAll s.engine (some id) (some (.dense shape type s.device)) handles
  match ids.getLast? with
  | some out => return out
  | none => throw (.native op .noOutput)

def zeros : ScopeId → Shape → ElementType → Action (Session σ) ArrayId := filled "_zeros"

def ones : ScopeId → Shape → ElementType → Action (Session σ) ArrayId := filled "_ones"

end Session
end ScopedTensor
