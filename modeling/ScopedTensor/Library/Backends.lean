import ScopedTensor.Configuration
import ScopedTensor.Foreign.Script
import ScopedTensor.Library.Restricted
import ScopedTensor.Reference.Library

/-! The engines a process has opened: any number of reference engines, each with a state of its own,
and a scripted foreign engine, whose state is one for the whole process. -/

namespace ScopedTensor

structure Backends where
  references : List Reference.State
  script : Foreign.Script

namespace Backends

def initial : Backends := ⟨[], .empty⟩

variable (b : Backends)

def reference (i : Nat) : Reference.State := b.references.getD i .initial

def halted : Bool := b.references.any Reference.State.halted

def referenceLibrary [HalfPrecision] (i gpus : Nat) : Library Backends :=
  (Reference.library gpus).zoom (fun b => b.reference i)
    fun s b => { b with references := b.references.set i s }

def foreignLibrary : Library Backends :=
  (Foreign.library Foreign.Script.host).zoom Backends.script fun s b => { b with script := s }

def addReference [HalfPrecision] (gpus : Nat) : Action Backends (Nat × Library Backends) := fun b =>
  let i := b.references.length
  .ok (i, referenceLibrary i gpus) { b with references := b.references ++ [.initial] }

def openLibrary [HalfPrecision] (load : Foreign.Loader) (c : Configuration) :
    Action Backends (Library Backends) := do
  match c.library with
  | .reference => return (← addReference c.simulatedGpus).2
  | .dynamic =>
    Action.ofExcept (Foreign.probe load c.resolvedPath)
    return foreignLibrary

end Backends
end ScopedTensor
