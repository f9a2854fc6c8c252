import ScopedTensor.Reference.State

/-! The calls of the reference engine. Arrays live in host memory whatever device they are created
on; the number of accelerators only says which ordinals are accepted. Operators are checked when
they are submitted and run when a wait, a host copy or a backward pass needs their results. -/

namespace ScopedTensor.Reference

open Binary State

/-- When an accepted operator runs: when its result is needed, or at once. -/
inductive Execution where
  | deferred
  | immediate
  deriving DecidableEq

/-- An order in which a backward pass comes to the marked variables. They are kept in a map that
promises none, and another pass may come to them in another. -/
structure MarkOrder where
  arrange : Table Mark → Table Mark
  perm : ∀ marks, (arrange marks).entries.Perm marks.entries

def MarkOrder.asMarked : MarkOrder := ⟨id, fun _ => .refl _⟩

def checkDevice (gpus : Nat) (d : Device) : Except Error Unit :=
  match d with
  | .gpu n => if gpus ≤ n then .error (.native "device" (.unavailable d gpus)) else .ok ()
  | .cpu => .ok ()

def create (gpus : Nat) (device : Device) (shape : Shape) (type : ElementType)
    (storage : Storage) : Action State Handle :=
  .transition fun s => do
    checkDevice gpus device
    return s.allocate shape type device storage

/-- Freed handles lose their mark. -/
def free (h : Handle) : Action State Unit := fun s =>
  let s := { s with freeCalls := s.freeCalls + 1 }
  match s.entries.get? h.id with
  | none => .error (.native "free" (.notLive h.id)) s
  | some _ => .ok () { s with entries := s.entries.erase h.id, tape := s.tape.unmark h.id }

def entryOf (h : Handle) : Action State Entry := .query fun s => s.entry h

def viewOf (h : Handle) : Action State View := return (← entryOf h).view

def copyIn [HalfPrecision] (h : Handle) (bytes : Bytes) (length : Nat) : Action State Unit := do
  let view ← viewOf h
  if length ≠ view.size ∨ bytes.length ≠ length * view.type.bytes then
    throw (.native "sync_copy_from_cpu" (.hostSource view.size length bytes.length))
  drain
  modify fun s => { s with memory := s.memory.write view (view.type.decode bytes) }

def copyOut [HalfPrecision] (h : Handle) (room length : Nat) : Action State Bytes := do
  let view ← viewOf h
  if length ≠ view.size ∨ room ≠ length * view.type.bytes then
    throw (.native "sync_copy_to_cpu" (.hostTarget view.size length room))
  drain
  return view.type.encode ((← get).memory.read view)

def wait [HalfPrecision] (h : Handle) : Action State Unit := do
  let _ ← entryOf h
  modify fun s => { s with waits := s.waits + 1 }
  drain

def waitAll [HalfPrecision] : Action State Unit := do
  modify fun s => { s with waitAlls := s.waitAlls + 1 }
  drain

/-- The cells of the outputs a caller gives, each large enough for its result. -/
def givenOutputs (s : State) (op : Operator) (outputs : List Handle) (inferred : List Signature) :
    Except Error (List (Handle × View)) :=
  if outputs.length ≠ inferred.length then
    op.fail (.outputCount inferred.length outputs.length)
  else
    (outputs.zip inferred).mapM fun (h, sig) => do
      let view := (← s.entry h).view
      if view.size ≠ sig.shape.size then op.fail (.outputTooSmall view.shape sig.shape)
      else return (h, view)

def outputDevice (inputs : List Entry) (params : Params) : Device :=
  ((inputs.head?.map Entry.device).or (params.device? "ctx")).getD .cpu

def outputsOf (gpus : Nat) (s : State) (op : Operator) (entries : List Entry)
    (inferred : List Signature) (outputs : Option (List Handle)) (params : Params) :
    Except Error (List (Handle × View) × State) :=
  match outputs with
  | some hs => return (← givenOutputs s op hs inferred, s)
  | none => do
    let device := outputDevice entries params
    checkDevice gpus device
    return allocateAll device inferred s

/-- Everything about an operator but running it: it is checked, its outputs are found or allocated,
and it is recorded. -/
def submit (gpus : Nat) (s : State) (op : Operator) (inputs : List Handle)
    (outputs : Option (List Handle)) (params : Params) :
    Except Error (List Handle × Task × State) := do
  let entries ← inputs.mapM s.entry
  let inferred ← op.infer (entries.map fun e => ⟨e.view.shape, e.view.type⟩) params
  let (outs, s) ← outputsOf gpus s op entries inferred outputs params
  let views := entries.map Entry.view
  let node : Node :=
    { op, params
      inputs := (inputs.zip views).map fun (h, v) => ⟨h.id, v⟩
      outputs := outs.map fun (h, v) => ⟨h.id, v⟩ }
  return (outs.map Prod.fst, ⟨op, params, views, outs.map Prod.snd⟩,
    { s with tape := s.tape.record node })

def operatorOf (h : OpHandle) : Except Error Operator :=
  match Operator.ofNumber? h.id with
  | some op => .ok op
  | none => .error (.native "invoke" (.unknownOperator h.id))

def invoke [HalfPrecision] (mode : Execution) (gpus : Nat) (h : OpHandle) (inputs : List Handle)
    (outputs : Option (List Handle)) (params : Params) : Action State (List Handle) := do
  let hs ← Action.transition fun s => do
    let op ← operatorOf h
    let (hs, task, s) ← submit gpus s op inputs outputs params
    return (hs, { s with queue := s.queue ++ [task] })
  match mode with
  | .deferred => return hs
  | .immediate =>
    drain
    return hs

def derive (h : Handle) (f : View → Except Error View) : Action State Handle :=
  .transition fun s => do
    let e ← s.entry h
    return s.insert { e with view := ← f e.view }

def rowOf (index : Nat) (v : View) : Except Error View :=
  match v.shape.dims with
  | [] => .error (.native "at" (.index index v.shape))
  | n :: rest =>
    if n ≤ index then .error (.native "at" (.index index v.shape))
    else .ok (v.window (index * (v.size / n)) ⟨if rest.isEmpty then [1] else rest⟩)

def sliceOf (first last : Nat) (v : View) : Except Error View :=
  match v.shape.dims with
  | [] => .error (.native "slice" (.range first last v.shape))
  | n :: _ =>
    if last ≤ first ∨ n < last then .error (.native "slice" (.range first last v.shape))
    else .ok (v.window (first * (v.size / n)) (v.shape.withDim 0 (last - first)))

def reshapeOf (target : List Int) (v : View) : Except Error View :=
  match v.shape.reshape? target with
  | none => .error (.native "reshape" (.reshape v.shape target))
  | some s => .ok (v.reshaped s)

def markOne (var : Handle) (request : GradRequest) (grad : Handle) : Action State Unit :=
  .transition fun s => do
    let v := (← s.entry var).view
    let g := (← s.entry grad).view
    if g.shape ≠ v.shape then .error (.native "mark_variables" (.markShapes g.shape v.shape))
    else return ((), { s with tape := s.tape.mark var.id ⟨request, g⟩ })

/-- Variables are marked one after the other; those in front of one that cannot be marked stay
marked. -/
def markVariables (vars : List Handle) (requests : List GradRequest) (grads : List Handle) :
    Action State Unit :=
  if vars.length ≠ requests.length ∨ vars.length ≠ grads.length then
    throw (.native "mark_variables" .markLengths)
  else (vars.zip (requests.zip grads)).forM fun (var, request, grad) => markOne var request grad

def seedOf (s : State) (head : Handle) (headGradient : Option Handle) :
    Except Error (Nat × Values) := do
  let size := (← s.entry head).view.size
  match headGradient with
  | none => return (head.id, List.replicate size .one)
  | some g =>
    let values := s.memory.read (← s.entry g).view
    if values.length ≠ size then .error (.native "backward" (.headGradient values.length size))
    else return (head.id, values)

/-- Heads beyond the head gradients have none. -/
def seedsOf (s : State) (heads : List Handle) (headGradients : List (Option Handle)) :
    Except Error (List (Nat × Values)) :=
  heads.zipIdx.mapM fun (head, i) => seedOf s head (headGradients[i]?.join)

def backward [HalfPrecision] (order : MarkOrder) (heads : List Handle)
    (headGradients : List (Option Handle)) (retain : Bool) : Action State Unit := do
  drain
  let seeds ← Action.query fun s => seedsOf s heads headGradients
  let nodes := (← get).tape.nodes
  modify fun s => { s with tape := s.tape.afterPass retain }
  Action.transition fun s => do
    let memory ← Tape.backward s.memory nodes (order.arrange s.tape.marks) seeds
    return ((), { s with memory })

def getGrad (h : Handle) : Action State (Option Handle) :=
  .transition fun s => do
    let device := (← s.entry h).device
    match s.tape.marks.get? h.id with
    | none => return (none, s)
    | some m =>
      let (g, s) := s.insert ⟨m.gradient, device, .dense⟩
      return (some g, s)

def setRecording (on : Bool) : Action State Bool := fun s =>
  .ok s.tape.recording { s with tape := s.tape.setRecording on }

def setTraining (on : Bool) : Action State Bool := fun s =>
  .ok s.tape.training { s with tape := s.tape.setTraining on }

def getOp (name : String) : Except Error OpHandle :=
  match Operator.ofName? name with
  | some op => .ok ⟨op.number⟩
  | none => .error (.native "get_op" (.unregistered name))

/-- The engine with its operators run as `mode` says, and its passes ordered as `order` says. -/
def engine [HalfPrecision] (mode : Execution) (order : MarkOrder) (gpus : Nat) : Library State where
  name := "Reference"
  version := return "0.1.0"
  gpuCount := return gpus
  listOps := return Operator.all.map Operator.name
  getOp name := .ofExcept (getOp name)
  create device shape type storage _ := create gpus device shape type storage
  free := free
  shape h := return (← viewOf h).shape
  type h := return (← viewOf h).type
  device h := return (← entryOf h).device
  storage h := return (← entryOf h).storage
  copyIn := copyIn
  copyOut := copyOut
  waitToRead := wait
  waitToWrite := wait
  waitAll := waitAll
  invoke := invoke mode gpus
  row h index := derive h (rowOf index)
  slice h first last := derive h (sliceOf first last)
  reshape h target _ := derive h (reshapeOf target)
  markVariables := markVariables
  backward heads grads retain _ := backward order heads grads retain
  getGrad := getGrad
  setRecording := setRecording
  setTraining := setTraining
  randomSeed seed := modify fun s => { s with seed := some seed }

abbrev library [HalfPrecision] (gpus : Nat) : Library State := engine .deferred .asMarked gpus

end ScopedTensor.Reference
