import ScopedTensor.Proofs.Action
import ScopedTensor.Library.OperatorTable
import ScopedTensor.Library.Basic

/-! Accounts of handles. An account relates the state of an engine to the handles that its callers
own; an engine keeps it when issuing a handle adds it to what is owned, freeing an owned handle
takes it away, and no other call changes what is owned. -/

namespace ScopedTensor

open ScopedTensor.Action

variable {σ α : Type} {account : σ → List Handle → Prop} {lib : Library σ}

/-- The action changes nothing about what is owned. -/
def Undisturbed (account : σ → List Handle → Prop) (a : Action σ α) : Prop :=
  ∀ owned, Keeps (account · owned) a

/-- The action's result brings handles that were not owned before; a failure brings none. -/
def Issues (account : σ → List Handle → Prop) (a : Action σ α) (issued : α → List Handle) : Prop :=
  ∀ owned, Meets (account · owned) a
    (fun x n => (∀ h ∈ issued x, h.isNull = false) ∧ account n (issued x ++ owned)) (account · owned)

structure Library.Accounted (lib : Library σ) (account : σ → List Handle → Prop) : Prop where
  version : Undisturbed account lib.version
  gpuCount : Undisturbed account lib.gpuCount
  listOps : Undisturbed account lib.listOps
  getOp : ∀ name, Undisturbed account (lib.getOp name)
  create : ∀ d s t st delayed, Issues account (lib.create d s t st delayed) fun h => [h]
  free : ∀ h owned, h.isNull = false →
    Meets (account · (h :: owned)) (lib.free h) (fun _ => (account · owned)) (account · owned)
  shape : ∀ h, Undisturbed account (lib.shape h)
  type : ∀ h, Undisturbed account (lib.type h)
  device : ∀ h, Undisturbed account (lib.device h)
  storage : ∀ h, Undisturbed account (lib.storage h)
  copyIn : ∀ h bytes n, Undisturbed account (lib.copyIn h bytes n)
  copyOut : ∀ h room n, Undisturbed account (lib.copyOut h room n)
  waitToRead : ∀ h, Undisturbed account (lib.waitToRead h)
  waitToWrite : ∀ h, Undisturbed account (lib.waitToWrite h)
  waitAll : Undisturbed account lib.waitAll
  invoke : ∀ op inputs params, Issues account (lib.invoke op inputs none params) id
  invokeInto : ∀ op inputs outputs params,
    Undisturbed account (lib.invoke op inputs (some outputs) params)
  row : ∀ h i, Issues account (lib.row h i) fun v => [v]
  slice : ∀ h first last, Issues account (lib.slice h first last) fun v => [v]
  reshape : ∀ h target reverse, Issues account (lib.reshape h target reverse) fun v => [v]
  markVariables : ∀ vars requests grads, Undisturbed account (lib.markVariables vars requests grads)
  backward : ∀ heads grads retain training,
    Undisturbed account (lib.backward heads grads retain training)
  getGrad : ∀ h, Issues account (lib.getGrad h) Option.toList
  setRecording : ∀ on, Undisturbed account (lib.setRecording on)
  setTraining : ∀ on, Undisturbed account (lib.setTraining on)
  randomSeed : ∀ seed, Undisturbed account (lib.randomSeed seed)

/-- An engine never answers a call with the handle that stands for none. -/
def Library.NeverNull (lib : Library σ) : Prop :=
  lib.Accounted fun _ _ => True

namespace Library.Accounted

theorem load (h : lib.Accounted account) : Undisturbed account (OperatorTable.load lib) := by
  intro owned
  refine (h.listOps owned).bind fun names => ?_
  exact Keeps.foldlM (fun t name => (h.getOp name owned).bind fun _ => .pure fun _ hs => hs) _ _

theorem runInto (h : lib.Accounted account) (t : OperatorTable) (name : String)
    (inputs outputs : List Handle) (params : Params) :
    Undisturbed account (t.invoke lib name inputs (some outputs) params) := by
  intro owned
  refine Meets.bind (Q := fun _ => (account · owned)) (keeps_ofExcept _)
    fun op => ?_
  exact h.invokeInto op inputs outputs params owned

theorem run (h : lib.Accounted account) (t : OperatorTable) (name : String) (inputs : List Handle)
    (params : Params) : Issues account (t.invoke lib name inputs none params) id := by
  intro owned
  refine Meets.bind (Q := fun _ => (account · owned)) (keeps_ofExcept _)
    fun op => ?_
  exact h.invoke op inputs params owned

theorem release (h : lib.Accounted account) (r : OwnedHandle) (owned : List Handle) :
    Meets (account · (if r.isReleased then owned else r.handle :: owned)) (r.release lib)
      (fun x n => x.2 = ⟨⟨0⟩⟩ ∧ account n owned) fun _ => False := by
  unfold OwnedHandle.release
  refine .ite (fun hr => .pure fun n hn => ⟨?_, by simpa [hr] using hn⟩) fun hr => ?_
  · obtain ⟨⟨i⟩⟩ := r
    simpa [OwnedHandle.isReleased, Handle.isNull] using hr
  · have hnull : r.handle.isNull = false := by simpa [OwnedHandle.isReleased] using hr
    have hfree : Meets (account · (r.handle :: owned)) (lib.free r.handle).quietly
        (fun _ => (account · owned)) (fun _ => False) := by
      intro n hn
      have := h.free r.handle owned hnull n hn
      unfold Action.quietly
      cases hf : lib.free r.handle n with
      | ok x n' => rw [hf] at this; exact this
      | error e n' => rw [hf] at this; exact this
    exact (hfree.of_imp fun n hn => by simpa [hr] using hn).bind fun _ => .pure fun n hn => ⟨rfl, hn⟩

theorem wait (r : Readiness) {call : Action σ Unit} (h : Undisturbed account call) :
    Undisturbed account (r.wait call) := by
  intro owned
  refine .ite (fun _ => .pure fun _ hn => hn) fun _ => ?_
  exact (h owned).bind fun _ => .pure fun _ hn => hn

end Library.Accounted
end ScopedTensor
