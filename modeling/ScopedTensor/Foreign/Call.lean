import ScopedTensor.Library.Basic

/-! The functions of a foreign engine. A call carries its arguments as they are passed, counts
beside lists; the answer is a status and the values written through the call's result pointers,
which only mean something when the status is zero. -/

namespace ScopedTensor.Foreign

inductive Call where
  | version
  | gpuCount
  | randomSeed (seed : Int)
  | create (dims : List Nat) (rank : Nat) (device : Int × Int) (delayed : Bool) (type : Int)
  | createSparse (storage : Int) (dims : List Nat) (rank : Nat) (device : Int × Int)
      (delayed : Bool) (type : Int) (auxiliaries : Nat) (auxiliaryTypes : List Int)
      (auxiliaryRanks auxiliaryDims : List Nat)
  | free (h : Handle)
  | shape (h : Handle)
  | type (h : Handle)
  | context (h : Handle)
  | storage (h : Handle)
  | copyIn (h : Handle) (bytes : Bytes) (length : Nat)
  | copyOut (h : Handle) (room length : Nat)
  | waitToRead (h : Handle)
  | waitToWrite (h : Handle)
  | waitAll
  | row (h : Handle) (index : Nat)
  | slice (h : Handle) (first last : Nat)
  | reshape (h : Handle) (rank : Nat) (dims : List Int) (reverse : Bool)
  | opNames
  | opHandle (name : String)
  /-- Without an output list the engine allocates the outputs. -/
  | invoke (op : OpHandle) (inputCount : Nat) (inputs : List Handle) (outputCount : Nat)
      (outputs : Option (List Handle)) (paramCount : Nat) (keys values : List String)
  | markVariables (count : Nat) (vars : List Handle) (requests : List Nat)
      (gradients : List Handle)
  /-- The null handle stands for a head gradient of ones. -/
  | backward (count : Nat) (heads : List Handle) (headGradients : Option (List Handle))
      (retain training : Bool)
  | getGrad (h : Handle)
  | setRecording (on : Bool)
  | setTraining (on : Bool)
  deriving DecidableEq

/-- A count, and a list that may be missing. -/
structure Listing (α : Type) where
  count : Int
  entries : Option (List α)
  deriving DecidableEq, Inhabited

def Listing.toList {α : Type} (l : Listing α) : List α :=
  match l.entries with
  | some xs => xs.take l.count.toNat
  | none => []

namespace Call

def symbol : Call → String
  | version => "MXGetVersion"
  | gpuCount => "MXGetGPUCount"
  | randomSeed .. => "MXRandomSeed"
  | create .. => "MXNDArrayCreateEx"
  | createSparse .. => "MXNDArrayCreateSparseEx"
  | free .. => "MXNDArrayFree"
  | shape .. => "MXNDArrayGetShape"
  | type .. => "MXNDArrayGetDType"
  | context .. => "MXNDArrayGetContext"
  | storage .. => "MXNDArrayGetStorageType"
  | copyIn .. => "MXNDArraySyncCopyFromCPU"
  | copyOut .. => "MXNDArraySyncCopyToCPU"
  | waitToRead .. => "MXNDArrayWaitToRead"
  | waitToWrite .. => "MXNDArrayWaitToWrite"
  | waitAll => "MXNDArrayWaitAll"
  | row .. => "MXNDArrayAt"
  | slice .. => "MXNDArraySlice"
  | reshape .. => "MXNDArrayReshape64"
  | opNames => "MXListAllOpNames"
  | opHandle .. => "NNGetOpHandle"
  | invoke .. => "MXImperativeInvoke"
  | markVariables .. => "MXAutogradMarkVariables"
  | backward .. => "MXAutogradBackwardEx"
  | getGrad .. => "MXNDArrayGetGrad"
  | setRecording .. => "MXAutogradSetIsRecording"
  | setTraining .. => "MXAutogradSetIsTraining"

/-- What a call writes through its result pointers. Names are octets without the closing zero. -/
abbrev Out : Call → Type
  | version | gpuCount | type _ | storage _ | setRecording _ | setTraining _ => Int
  | context _ => Int × Int
  | shape _ => Listing Nat
  | opNames => Listing Bytes
  | invoke .. => Listing Handle
  | create .. | createSparse .. | row .. | slice .. | reshape .. | getGrad _ => Handle
  | opHandle _ => OpHandle
  | copyOut .. => Bytes
  | _ => Unit

def unwritten : (c : Call) → c.Out
  | version | gpuCount | type _ | storage _ | setRecording _ | setTraining _ => (0 : Int)
  | context _ => ((0, 0) : Int × Int)
  | shape _ => (⟨0, none⟩ : Listing Nat)
  | opNames => (⟨0, none⟩ : Listing Bytes)
  | invoke .. => (⟨0, none⟩ : Listing Handle)
  | create .. | createSparse .. | row .. | slice .. | reshape .. | getGrad _ => (⟨0⟩ : Handle)
  | opHandle _ => (⟨0⟩ : OpHandle)
  | copyOut .. => ([] : Bytes)
  | randomSeed _ | free _ | copyIn .. | waitToRead _ | waitToWrite _ | waitAll
  | markVariables .. | backward .. => ()

end Call

structure Answer (α : Type) where
  status : Int
  out : α

/-- A foreign engine: its functions, and the text it keeps about the call that failed last. -/
structure Host (σ : Type) where
  call : (c : Call) → σ → Answer c.Out × σ
  lastError : σ → Option Bytes × σ

def lastErrorSymbol : String := "MXGetLastError"

/-- Everything a foreign engine has to export, in the order in which it is looked up. -/
def symbols : List String :=
  [lastErrorSymbol, "MXGetVersion", "MXGetGPUCount", "MXRandomSeed", "MXNDArrayCreateEx",
    "MXNDArrayCreateSparseEx", "MXNDArrayFree", "MXNDArrayGetShape", "MXNDArrayGetDType",
    "MXNDArrayGetContext", "MXNDArrayGetStorageType", "MXNDArraySyncCopyFromCPU",
    "MXNDArraySyncCopyToCPU", "MXNDArrayWaitToRead", "MXNDArrayWaitToWrite", "MXNDArrayWaitAll",
    "MXNDArrayAt", "MXNDArraySlice", "MXNDArrayReshape64", "MXListAllOpNames", "NNGetOpHandle",
    "MXImperativeInvoke", "MXAutogradMarkVariables", "MXAutogradBackwardEx", "MXNDArrayGetGrad",
    "MXAutogradSetIsRecording", "MXAutogradSetIsTraining"]

end ScopedTensor.Foreign
