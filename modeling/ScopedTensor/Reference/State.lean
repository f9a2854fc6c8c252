import ScopedTensor.Autograd.Backward
import ScopedTensor.Library.Basic

/-! The state of the reference engine: live handles with what they show, the memory behind them,
operators that were submitted but not yet run, the tape, and counters of calls. -/

namespace ScopedTensor.Reference

open Binary

structure Entry where
  view : View
  device : Device
  storage : Storage
  deriving DecidableEq

/-- An operator that was accepted, with the cells it reads and the cells it writes. -/
structure Task where
  op : Operator
  params : Params
  inputs : List View
  outputs : List View

def Task.run [HalfPrecision] (t : Task) (m : Memory) : Attempt Memory := do
  let results ← t.op.evaluate (t.inputs.map fun v => ⟨m.read v, v.shape⟩) t.params
  return (t.outputs.zip results).foldl (fun m r => m.write r.1 r.2) m

structure State where
  lastId : Nat
  entries : Table Entry
  memory : Memory
  queue : List Task
  tape : Tape
  created : Nat
  freeCalls : Nat
  waits : Nat
  waitAlls : Nat
  seed : Option Nat
  /-- Whether a task broke off. The call that ran it never came back, so what is seen of the engine
  from then on stands for nothing. -/
  halted : Bool

namespace State

def initial : State := ⟨0, .empty, .empty, [], .empty, 0, 0, 0, 0, none, false⟩

variable (s : State)

def live : Nat := s.entries.size

def pending : Nat := s.queue.length

def recorded : Nat := s.tape.nodes.length

def entry (h : Handle) : Except Error Entry :=
  match s.entries.get? h.id with
  | some e => .ok e
  | none => .error (.native "lookup" (.unknownArray h.id))

/-- Handles are numbered from one and never used again. -/
def insert (e : Entry) : Handle × State :=
  let id := s.lastId + 1
  (⟨id⟩, { s with lastId := id, created := s.created + 1, entries := s.entries.insert id e })

def allocate (shape : Shape) (type : ElementType) (device : Device) (storage : Storage) :
    Handle × State :=
  let (view, memory) := s.memory.allocate shape type
  { s with memory }.insert ⟨view, device, storage⟩

def allocateAll (device : Device) : List Signature → State → List (Handle × View) × State
  | [], s => ([], s)
  | sig :: sigs, s =>
    let (view, memory) := s.memory.allocate sig.shape sig.type
    let (h, s) := { s with memory }.insert ⟨view, device, .dense⟩
    let (rest, s) := allocateAll device sigs s
    ((h, view) :: rest, s)

/-- The memory after the tasks ran in order, and the first failure. A task that fails or breaks off
changes nothing. -/
def runAll [HalfPrecision] : List Task → Memory → Memory × Option Error
  | [], m => (m, none)
  | t :: ts, m =>
    match t.run m with
    | some (.ok m') => runAll ts m'
    | some (.error e) => ((runAll ts m).1, some e)
    | none => runAll ts m

/-- Whether one of the tasks breaks off when they run in order. -/
def breaksOff [HalfPrecision] : List Task → Memory → Bool
  | [], _ => false
  | t :: ts, m =>
    match t.run m with
    | some (.ok m') => breaksOff ts m'
    | some (.error _) => breaksOff ts m
    | none => true

def drained [HalfPrecision] : State :=
  { s with
    memory := (runAll s.queue s.memory).1
    queue := []
    halted := s.halted || breaksOff s.queue s.memory }

def drain [HalfPrecision] : Action State Unit := fun s =>
  match (runAll s.queue s.memory).2 with
  | none => .ok () s.drained
  | some e => .error e s.drained

end State
end ScopedTensor.Reference
