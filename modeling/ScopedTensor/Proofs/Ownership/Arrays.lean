import ScopedTensor.Proofs.Ownership.Steps
import ScopedTensor.Session.Dump
import ScopedTensor.Session.Gradient
import ScopedTensor.Session.Transfer

/-! Arrays under operations: what is asked about them, and the arrays that operators, views and
gradients bring into a session. -/

namespace ScopedTensor.Session

open ScopedTensor.Action

variable {half : HalfPrecision}
variable {σ α : Type} {account : σ → List Handle → Prop} {I : Session σ → Prop}
variable [lasting : Lasting account I]

include lasting

theorem keeps_remembered {known : Tensor σ → Option α} {remember : α → Tensor σ → Tensor σ}
    {load : Library σ → Handle → Action σ α} (hnote : ∀ x, Note (remember x))
    (hload : ∀ lib : Library σ, lib.Accounted account → ∀ h, Undisturbed account (load lib h))
    (id : ArrayId) : Keeps I (remembered known remember load id) := by
  unfold remembered
  refine keeps_of_accounted (fun a _ => ?_) id
  cases known a with
  | some x => exact .pure fun _ hs => hs
  | none =>
    refine (keeps_handle id).bind fun h => (keeps_callFor (fun lib hlib => hload lib hlib h) id).bind
      fun x => ?_
    exact (keeps_note (hnote x) id).bind fun _ => .pure fun _ hs => hs

theorem keeps_shape (id : ArrayId) : Keeps I (shape id) := by
  refine keeps_remembered (fun x => ?_) (fun _ hlib => hlib.shape) id
  exact ⟨fun _ => rfl, fun _ => rfl, fun _ => rfl, fun _ => rfl⟩

theorem keeps_type (id : ArrayId) : Keeps I (type id) := by
  refine keeps_remembered (fun x => ?_) (fun _ hlib => hlib.type) id
  exact ⟨fun _ => rfl, fun _ => rfl, fun _ => rfl, fun _ => rfl⟩

theorem keeps_device (id : ArrayId) : Keeps I (device id) := by
  refine keeps_remembered (fun x => ?_) (fun _ hlib => hlib.device) id
  exact ⟨fun _ => rfl, fun _ => rfl, fun _ => rfl, fun _ => rfl⟩

theorem keeps_storage (id : ArrayId) : Keeps I (storage id) := by
  refine keeps_remembered (fun x => ?_) (fun _ hlib => hlib.storage) id
  exact ⟨fun _ => rfl, fun _ => rfl, fun _ => rfl, fun _ => rfl⟩

theorem keeps_size (id : ArrayId) : Keeps I (size id) :=
  (keeps_shape id).bind fun _ => .pure fun _ hs => hs

theorem keeps_setName (id : ArrayId) (name : String) : Keeps I (setName id name) := by
  refine keeps_note ?_ id
  exact ⟨fun _ => rfl, fun _ => rfl, fun _ => rfl, fun _ => rfl⟩

theorem keeps_description (id : ArrayId) : Keeps I (description id) :=
  (keeps_shape id).bind fun _ => (keeps_type id).bind fun _ => (keeps_device id).bind fun _ =>
    (keeps_storage id).bind fun _ => keeps_of_accounted (fun _ _ => .pure fun _ hs => hs) id

theorem keeps_waitBy {wait : Readiness → Library σ → Action σ Readiness}
    (hwait : ∀ r, ∀ lib : Library σ, lib.Accounted account → Undisturbed account (wait r lib))
    (id : ArrayId) : Keeps I (waitBy wait id) := by
  refine keeps_of_accounted (fun a _ => (keeps_callFor (hwait a.readiness) id).bind fun _ => ?_) id
  refine keeps_note ?_ id
  exact ⟨fun _ => rfl, fun _ => rfl, fun _ => rfl, fun _ => rfl⟩

theorem keeps_waitToRead (id : ArrayId) : Keeps I (waitToRead id) :=
  (keeps_handle id).bind fun h =>
    keeps_waitBy (fun r _ hlib => Library.Accounted.wait r (hlib.waitToRead h)) id

theorem keeps_waitToWrite (id : ArrayId) : Keeps I (waitToWrite id) :=
  (keeps_handle id).bind fun h =>
    keeps_waitBy (fun r _ hlib => Library.Accounted.wait r (hlib.waitToWrite h)) id

theorem keeps_waitAll (id : ArrayId) : Keeps I (waitAll id) :=
  (keeps_handle id).bind fun _ =>
    keeps_waitBy (fun _ _ hlib owned => (hlib.waitAll owned).bind fun _ => .pure fun _ hs => hs) id

theorem keeps_markReady (id : ArrayId) : Keeps I (markReady id) := by
  refine keeps_note ?_ id
  exact ⟨fun _ => rfl, fun _ => rfl, fun _ => rfl, fun _ => rfl⟩

theorem keeps_sameEngine (a b : ArrayId) : Keeps I (sameEngine a b) :=
  keeps_of_accounted (fun _ _ => keeps_of_accounted (fun _ _ => .pure fun _ hs => hs) b) a

theorem keeps_requireSameEngine (refusal : Refusal) (a b : ArrayId) :
    Keeps I (requireSameEngine refusal a b) :=
  (keeps_sameEngine a b).bind fun _ => .ite (fun _ => .throw fun _ hs => hs) fun _ =>
    .pure fun _ hs => hs

theorem keeps_setBytes (id : ArrayId) (bytes : Bytes) : Keeps I (setBytes id bytes) := by
  refine (keeps_size id).bind fun n => (keeps_type id).bind fun t => ?_
  refine .guard (fun _ hs => hs) fun _ => (keeps_handle id).bind fun h => ?_
  exact (keeps_callFor (fun _ hlib => hlib.copyIn h bytes n) id).bind fun _ => keeps_markReady id

theorem keeps_toBytes (id : ArrayId) : Keeps I (toBytes id) := by
  refine (keeps_size id).bind fun n => (keeps_type id).bind fun t => ?_
  refine (keeps_handle id).bind fun h => ?_
  refine (keeps_callFor (fun _ hlib => hlib.copyOut h (t.storageBytes n) n) id).bind fun _ => ?_
  exact (keeps_markReady id).bind fun _ => .pure fun _ hs => hs

theorem keeps_set (id : ArrayId) (t : HostType) (values : List (HostValue t)) :
    Keeps I (set id t values) :=
  (keeps_type id).bind fun _ => .guard (fun _ hs => hs) fun _ => keeps_setBytes id _

theorem keeps_toValues (id : ArrayId) (t : HostType) : Keeps I (toValues id t) :=
  (keeps_type id).bind fun _ => .guard (fun _ hs => hs) fun _ =>
    (keeps_toBytes id).bind fun _ => .pure fun _ hs => hs

theorem keeps_toDoubles (id : ArrayId) : Keeps I (toDoubles id) :=
  (keeps_type id).bind fun _ => (keeps_toBytes id).bind fun _ => .pure fun _ hs => hs

end ScopedTensor.Session
