import ScopedTensor.Library.Basic

/-! The calls of an engine as data, what each answers, and sequences of them. The next call is made
whether or not the one before it failed. -/

namespace ScopedTensor.Library

inductive Call where
  | version
  | gpuCount
  | listOps
  | getOp (name : String)
  | create (device : Device) (shape : Shape) (type : ElementType) (storage : Storage)
      (delayed : Bool)
  | free (h : Handle)
  | shape (h : Handle)
  | type (h : Handle)
  | device (h : Handle)
  | storage (h : Handle)
  | copyIn (h : Handle) (bytes : Bytes) (length : Nat)
  | copyOut (h : Handle) (room length : Nat)
  | waitToRead (h : Handle)
  | waitToWrite (h : Handle)
  | waitAll
  | invoke (op : OpHandle) (inputs : List Handle) (outputs : Option (List Handle))
      (params : Params)
  | row (h : Handle) (index : Nat)
  | slice (h : Handle) (first last : Nat)
  | reshape (h : Handle) (dims : List Int) (reverse : Bool)
  | markVariables (vars : List Handle) (requests : List GradRequest) (gradients : List Handle)
  | backward (heads : List Handle) (headGradients : List (Option Handle)) (retain training : Bool)
  | getGrad (h : Handle)
  | setRecording (on : Bool)
  | setTraining (on : Bool)
  | randomSeed (seed : Nat)

inductive Answer where
  | done
  | text (s : String)
  | count (n : Nat)
  | names (ns : List String)
  | operator (op : OpHandle)
  | shape (s : Shape)
  | type (t : ElementType)
  | device (d : Device)
  | storage (st : Storage)
  | bytes (bs : Bytes)
  | handle (h : Handle)
  | handles (hs : List Handle)
  | gradient (h : Option Handle)
  /-- Where a switch stood before. -/
  | switch (on : Bool)
  deriving DecidableEq

namespace Call

variable {σ α : Type} (lib : Library σ)

def perform : Call → Action σ Answer
  | version => .text <$> lib.version
  | gpuCount => .count <$> lib.gpuCount
  | listOps => .names <$> lib.listOps
  | getOp name => .operator <$> lib.getOp name
  | create d s t st delayed => .handle <$> lib.create d s t st delayed
  | free h => (fun _ => .done) <$> lib.free h
  | shape h => .shape <$> lib.shape h
  | type h => .type <$> lib.type h
  | device h => .device <$> lib.device h
  | storage h => .storage <$> lib.storage h
  | copyIn h bytes length => (fun _ => .done) <$> lib.copyIn h bytes length
  | copyOut h room length => .bytes <$> lib.copyOut h room length
  | waitToRead h => (fun _ => .done) <$> lib.waitToRead h
  | waitToWrite h => (fun _ => .done) <$> lib.waitToWrite h
  | waitAll => (fun _ => .done) <$> lib.waitAll
  | invoke op inputs outputs params => .handles <$> lib.invoke op inputs outputs params
  | row h index => .handle <$> lib.row h index
  | slice h first last => .handle <$> lib.slice h first last
  | reshape h dims reverse => .handle <$> lib.reshape h dims reverse
  | markVariables vars requests gradients =>
    (fun _ => .done) <$> lib.markVariables vars requests gradients
  | backward heads gradients retain training =>
    (fun _ => .done) <$> lib.backward heads gradients retain training
  | getGrad h => .gradient <$> lib.getGrad h
  | setRecording on => .switch <$> lib.setRecording on
  | setTraining on => .switch <$> lib.setTraining on
  | randomSeed seed => (fun _ => .done) <$> lib.randomSeed seed

def reply (c : Call) (s : σ) : Except Error Answer :=
  match c.perform lib s with
  | .ok a _ => .ok a
  | .error e _ => .error e

def step (c : Call) (s : σ) : σ := (c.perform lib).after s

def trace : List Call → σ → List (Call × σ)
  | [], _ => []
  | c :: cs, s => (c, s) :: trace cs (c.step lib s)

def run (cs : List Call) (s : σ) : σ := cs.foldl (fun s c => c.step lib s) s

def replies (cs : List Call) (s : σ) : List (Except Error Answer) :=
  (trace lib cs s).map fun p => p.1.reply lib p.2

end Call
end ScopedTensor.Library
