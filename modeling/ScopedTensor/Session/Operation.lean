import ScopedTensor.Session.Dump
import ScopedTensor.Session.Engine
import ScopedTensor.Session.Operations
import ScopedTensor.Session.Transfer

/-! What a program does with an engine, as data, and runs of it. A program goes on after an
operation that failed. Handles that the program has from elsewhere are not among the operations. -/

namespace ScopedTensor

inductive Operation where
  | version
  | gpuCount
  | hasAccelerators
  | setRandomSeed (seed : Nat)
  | baseScope (device : Option Device)
  | subScope (parent : ScopeId) (device : Option Device)
  | parentOf (id : ScopeId)
  | owns (id : ScopeId) (a : ArrayId)
  | cloneScope (id : ScopeId)
  | closeScope (id : ScopeId)
  | dropScope (id : ScopeId)
  | adopt (target : ScopeId) (id : ArrayId)
  | detach (id : ArrayId)
  | closeArray (id : ArrayId)
  | cloneArray (id : ArrayId)
  | dropArray (id : ArrayId)
  | create (id : ScopeId) (shape : Shape) (type : ElementType)
  | createOn (id : ScopeId) (device : Device) (shape : Shape) (type : ElementType) (storage : Storage)
  /-- `zeros` and `ones` -/
  | filled (op : String) (id : ScopeId) (shape : Shape) (type : ElementType)
  | fromValues (id : ScopeId) (t : HostType) (values : List (HostValue t)) (shape : Shape)
  | shape (id : ArrayId)
  | type (id : ArrayId)
  | device (id : ArrayId)
  | storage (id : ArrayId)
  | description (id : ArrayId)
  | setName (id : ArrayId) (name : String)
  | isReleased (id : ArrayId)
  | markReady (id : ArrayId)
  | waitToRead (id : ArrayId)
  | waitToWrite (id : ArrayId)
  | waitAll (id : ArrayId)
  | set (id : ArrayId) (t : HostType) (values : List (HostValue t))
  | setBytes (id : ArrayId) (bytes : Bytes)
  | toBytes (id : ArrayId)
  | toValues (id : ArrayId) (t : HostType)
  | toDoubles (id : ArrayId)
  | dump (id : ArrayId)
  | invoke (id : ArrayId) (op : String) (inputs : List ArrayId) (params : Params)
  | copyTo (source target : ArrayId)
  | toDevice (id : ArrayId) (target : Device) (copy : Bool)
  | toType (id : ArrayId) (target : ElementType) (copy : Bool)
  /-- `add`, `sub`, `mul` and `div` -/
  | arithmetic (op : String) (a b : ArrayId)
  /-- Operators on one array: with a scalar, reductions, `softmax` and the others. -/
  | unary (op : String) (params : Params) (a : ArrayId)
  | row (a : ArrayId) (index : Nat)
  | slice (a : ArrayId) (first last : Nat)
  | reshape (a : ArrayId) (target : List Int)
  | split (a : ArrayId) (axis : Int) (parts : Nat)
  | splitSqueeze (a : ArrayId) (axis : Int)
  | attachGrad (a : ArrayId) (request : GradRequest) (storage : Option Storage)
  | backward (a : ArrayId) (seed : Option ArrayId) (retain training : Bool)
  | gradient (a : ArrayId)
  | startRecording
  /-- The section goes back to where the switches stood. -/
  | finishRecording (recording training : Bool)
  | recordedBackward (a : ArrayId) (seed : Option ArrayId) (retain : Bool)
  | dropEngine

namespace Operation

variable {σ : Type} [HalfPrecision]

def perform (e : Engine σ) : Operation → Action (Session σ) Unit
  | version => discard e.version
  | gpuCount => discard e.gpuCount
  | hasAccelerators => discard e.hasAccelerators
  | setRandomSeed seed => e.setRandomSeed seed
  | baseScope d => discard (e.baseScope d)
  | subScope parent d => discard (Session.subScope parent d)
  | parentOf id => discard (Session.parentOf id)
  | owns id a => discard (Session.owns id a)
  | cloneScope id => Session.cloneScope id
  | closeScope id => Session.closeScope id
  | dropScope id => Session.dropScope id
  | adopt target id => Session.adopt target id
  | detach id => Session.detach id
  | closeArray id => Session.closeArray id
  | cloneArray id => Session.cloneArray id
  | dropArray id => Session.dropArray id
  | create id s t => discard (Session.create id s t)
  | createOn id d s t st => discard (Session.createOn id d s t st)
  | filled op id s t => discard (Session.filled op id s t)
  | fromValues id t values s => discard (Session.fromValues id t values s)
  | shape id => discard (Session.shape id)
  | type id => discard (Session.type id)
  | device id => discard (Session.device id)
  | storage id => discard (Session.storage id)
  | description id => discard (Session.description id)
  | setName id name => Session.setName id name
  | isReleased id => discard (Session.isReleased id)
  | markReady id => Session.markReady id
  | waitToRead id => Session.waitToRead id
  | waitToWrite id => Session.waitToWrite id
  | waitAll id => Session.waitAll id
  | set id t values => Session.set id t values
  | setBytes id bytes => Session.setBytes id bytes
  | toBytes id => discard (Session.toBytes id)
  | toValues id t => discard (Session.toValues id t)
  | toDoubles id => discard (Session.toDoubles id)
  | dump id => discard (Session.dump id)
  | invoke id op inputs params => discard (Session.invoke id op inputs params)
  | copyTo source target => Session.copyTo source target
  | toDevice id target copy => discard (Session.toDevice id target copy)
  | toType id target copy => discard (Session.toType id target copy)
  | arithmetic op a b => discard (Session.arithmetic op a b)
  | unary op params a => discard (Session.unary op params a)
  | row a index => discard (Session.row a index)
  | slice a first last => discard (Session.slice a first last)
  | reshape a target => discard (Session.reshape a target)
  | split a axis parts => discard (Session.split a axis parts)
  | splitSqueeze a axis => discard (Session.splitSqueeze a axis)
  | attachGrad a request st => Session.attachGrad a request st
  | backward a seed retain training => Session.backward a seed retain training
  | gradient a => discard (Session.gradient a)
  | startRecording => discard e.startRecording
  | finishRecording recording training =>
    Session.onNative (RecordingSection.finish ⟨e.loaded, recording, training⟩)
  | recordedBackward a seed retain =>
    RecordingSection.backward ⟨e.loaded, false, false⟩ a seed retain
  | dropEngine => e.drop

def step (e : Engine σ) (s : Session σ) (op : Operation) : Session σ := (op.perform e).after s

def run (e : Engine σ) (s : Session σ) (ops : List Operation) : Session σ := ops.foldl (step e) s

end Operation
end ScopedTensor
