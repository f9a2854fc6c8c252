import Mathlib.Data.List.ReduceOption
import Mathlib.Data.List.Sublists
import ScopedTensor.Library.Call
import ScopedTensor.Proofs.Ownership.Soundness
import ScopedTensor.Session.Dump
import ScopedTensor.Session.Engine

/-! Which handles go into an engine and which come out of it. Every handle is kept together with the
library it came from, and an account of what is kept says what a library may be given. -/

namespace ScopedTensor

open ScopedTensor.Action

variable {half : HalfPrecision}

namespace Library.Call

/-- The handles that a call gives to the engine. -/
def passes : Call → List Handle
  | .free h | .shape h | .type h | .device h | .storage h | .copyIn h _ _ | .copyOut h _ _
  | .waitToRead h | .waitToWrite h | .row h _ | .slice h _ _ | .reshape h _ _ | .getGrad h => [h]
  | .invoke _ inputs outputs _ => inputs ++ outputs.getD []
  | .markVariables vars _ gradients => vars ++ gradients
  | .backward heads headGradients _ _ => heads ++ headGradients.reduceOption
  | _ => []

/-- The handles that an answer brings. Outputs that were given come back as they went. -/
def brings : Call → Answer → List Handle
  | .invoke _ _ (some _) _, _ => []
  | _, .handle h => [h]
  | _, .handles hs => hs
  | _, .gradient g => g.toList
  | _, _ => []

def frees : Call → Bool
  | .free _ => true
  | _ => false

end Library.Call

def OwnedHandle.claim {σ : Type} (lib : Library σ) (r : OwnedHandle) : List (Library σ × Handle) :=
  if r.isReleased then [] else [(lib, r.handle)]

/-- What holds of the engines' state, of the libraries that were opened, and of the handles kept
from them, each with the library it came from. A call that is given handles kept from the library it
is made of adds what it brings. -/
structure Custody (σ : Type) where
  account : σ → List (Library σ) → List (Library σ × Handle) → Prop
  fewer : ∀ {n libs libs' kept kept'}, libs' ⊆ libs → kept'.Subperm kept → account n libs kept →
    account n libs' kept'
  call : ∀ {libs lib}, lib ∈ libs → ∀ c : Library.Call, c.frees = false → ∀ kept,
    (∀ h ∈ c.passes, (lib, h) ∈ kept) → Meets (account · libs kept) (c.perform lib)
      (fun a n => account n libs ((c.brings a).map (lib, ·) ++ kept)) (account · libs kept)
  free : ∀ {libs lib}, lib ∈ libs → ∀ h kept, Meets (account · libs ((lib, h) :: kept))
    (lib.free h) (fun _ => (account · libs kept)) (account · libs kept)

namespace Custody

variable {σ α β : Type} {C : Custody σ} {lib : Library σ} {libs : List (Library σ)}
variable {passed : List Handle} {a : Action σ α} {brought : α → List Handle}
variable {kept kept' : List (Library σ × Handle)}

/-- The action gives the library no handles but those of `passed`, and brings what it says. -/
def Serves (C : Custody σ) (libs : List (Library σ)) (lib : Library σ) (passed : List Handle)
    (a : Action σ α) (brought : α → List Handle) : Prop :=
  ∀ kept, (∀ h ∈ passed, (lib, h) ∈ kept) → Meets (C.account · libs kept) a
    (fun x n => C.account n libs ((brought x).map (lib, ·) ++ kept)) (C.account · libs kept)

abbrev Uses (C : Custody σ) (libs : List (Library σ)) (lib : Library σ) (passed : List Handle)
    (a : Action σ α) : Prop :=
  C.Serves libs lib passed a fun _ => []

theorem settle (h : kept'.Subperm kept) {n : σ} (hn : C.account n libs kept) :
    C.account n libs kept' := C.fewer (List.Subset.refl _) h hn

theorem serves (C : Custody σ) (hlib : lib ∈ libs) (c : Library.Call) (hc : c.frees = false)
    {g : α → Library.Answer} (ha : c.perform lib = g <$> a) :
    C.Serves libs lib c.passes a fun x => c.brings (g x) := by
  intro kept hkept
  have hcall := C.call hlib c hc kept hkept
  rw [ha] at hcall
  exact hcall.of_map

theorem uses_pure (x : α) : C.Uses libs lib passed (pure x) := fun _ _ => .pure fun _ hn => hn

theorem uses_throw (e : Error) : C.Serves libs lib passed (throw e : Action σ α) brought :=
  fun _ _ => .throw fun _ hn => hn

theorem uses_ofExcept (r : Except Error α) : C.Uses libs lib passed (Action.ofExcept r) :=
  fun _ _ => keeps_ofExcept _

theorem Serves.bind {f : α → Action σ β} {later : β → List Handle}
    (h : C.Uses libs lib passed a) (hf : ∀ x, C.Serves libs lib passed (f x) later) :
    C.Serves libs lib passed (a >>= f) later :=
  fun kept hkept => (h kept hkept).bind fun x => hf x kept hkept

theorem Uses.quietly (h : C.Uses libs lib passed a) : C.Uses libs lib passed a.quietly :=
  fun kept hkept => Keeps.quietly (h kept hkept)

theorem Uses.outcome (h : C.Uses libs lib passed a) : C.Uses libs lib passed a.outcome :=
  fun kept hkept => ((h kept hkept).outcome (F := (C.account · libs kept))).to_imp fun r _ hn => by
    cases r <;> exact hn

theorem uses_mapM {ι : Type} {f : ι → Action σ α} (h : ∀ i, C.Uses libs lib passed (f i))
    (is : List ι) : C.Uses libs lib passed (is.mapM f) := fun kept hkept =>
  Keeps.mapM (fun i => h i kept hkept) is

theorem uses_foldlM {ι : Type} {f : α → ι → Action σ α}
    (h : ∀ x i, C.Uses libs lib passed (f x i)) (is : List ι) (x : α) :
    C.Uses libs lib passed (is.foldlM f x) := fun kept hkept =>
  Keeps.foldlM (fun x i => h x i kept hkept) is x

theorem uses_load (hlib : lib ∈ libs) : C.Uses libs lib [] (OperatorTable.load lib) :=
  Serves.bind (C.serves hlib .listOps rfl (g := .names) rfl) fun names => uses_foldlM
    (fun _ name => Serves.bind (C.serves hlib (.getOp name) rfl (g := .operator) rfl) fun _ =>
      uses_pure _) names _

theorem serves_invoke (hlib : lib ∈ libs) (t : OperatorTable) (name : String)
    (inputs : List Handle) (outputs : Option (List Handle)) (params : Params) :
    C.Serves libs lib (inputs ++ outputs.getD []) (t.invoke lib name inputs outputs params)
      fun hs => if outputs.isNone then hs else [] := by
  refine Serves.bind (uses_ofExcept _) fun op => ?_
  have hinvoke := C.serves hlib (.invoke op inputs outputs params) rfl (g := .handles) rfl
  cases outputs <;> exact hinvoke

theorem meets_release (hlib : lib ∈ libs) (r : OwnedHandle) (kept : List (Library σ × Handle)) :
    Meets (C.account · libs (r.claim lib ++ kept)) (r.release lib)
      (fun x n => x.2 = ⟨⟨0⟩⟩ ∧ C.account n libs kept) fun _ => False := by
  unfold OwnedHandle.release OwnedHandle.claim
  refine .ite (fun hr => .pure fun n hn => ⟨?_, by simpa [hr] using hn⟩) fun hr => ?_
  · obtain ⟨⟨i⟩⟩ := r
    simpa [OwnedHandle.isReleased, Handle.isNull] using hr
  · have hfree : Meets (C.account · libs ((lib, r.handle) :: kept)) (lib.free r.handle).quietly
        (fun _ => (C.account · libs kept)) (fun _ => False) := by
      intro n hn
      have hcall := C.free hlib r.handle kept n hn
      unfold Action.quietly
      cases hr : lib.free r.handle n with
      | ok x n' | error e n' =>
        rw [hr] at hcall
        exact hcall
    rw [if_neg hr]
    exact hfree.bind fun _ => .pure fun n hn => ⟨rfl, hn⟩

theorem claim_subperm (h : Handle) :
    ((OwnedHandle.mk h).claim lib ++ kept).Subperm ((lib, h) :: kept) := by
  unfold OwnedHandle.claim
  split
  · exact (List.sublist_cons_self _ _).subperm
  · exact List.Subperm.refl _

theorem uses_wait (r : Readiness) {call : Action σ Unit} (h : C.Uses libs lib passed call) :
    C.Uses libs lib passed (r.wait call) := fun kept hkept =>
  .ite (fun _ => .pure fun _ hn => hn) fun _ => (h kept hkept).bind fun _ => .pure fun _ hn => hn

theorem uses_throughRow (hlib : lib ∈ libs) (h : Handle) (i : Nat)
    {render : Handle → Action σ String} (hrender : ∀ v, C.Uses libs lib [v] (render v)) :
    C.Uses libs lib [h] (Dump.throughRow lib h i render) := by
  intro kept hkept
  refine (C.serves hlib (.row h i) rfl (g := .handle) rfl kept hkept).bind fun v => ?_
  have hrow : C.Uses libs lib [v] (do render (← Action.ofExcept (OwnedHandle.mk v).get)) := by
    refine fun kept' hkept' => Meets.bind (Q := fun w n => w = v ∧ C.account n libs kept')
      (.ofExcept (fun w hw n hn => ⟨?_, hn⟩) fun _ hn => hn) fun w n hn => ?_
    · unfold OwnedHandle.get at hw
      split at hw
      · exact absurd hw nofun
      · exact (Except.ok.inj hw).symm
    · obtain ⟨rfl, hn⟩ := hn
      exact hrender w kept' hkept' n hn
  have hv : ∀ x ∈ [v], (lib, x) ∈ (lib, v) :: kept := fun x hx => by
    rw [List.mem_singleton.1 hx]
    exact List.mem_cons_self
  refine Meets.bind (Q := fun _ n => C.account n libs ((lib, v) :: kept))
    (((hrow _ hv).outcome (F := (C.account · libs kept))).to_imp fun r _ hn => by
      cases r <;> exact hn)
    fun text => ?_
  exact ((meets_release hlib ⟨v⟩ kept).imp (fun _ hn => C.settle (claim_subperm v) hn)
    (fun _ _ hn => hn.2) fun _ hn => hn.elim).bind fun _ => keeps_ofExcept _

theorem uses_leaf (hlib : lib ∈ libs) (t : ElementType) (h : Handle) (n : Nat) :
    C.Uses libs lib [h] (Dump.leaf lib t h n) :=
  Serves.bind (C.serves hlib (.copyOut h _ n) rfl (g := .bytes) rfl) fun _ => uses_pure _

theorem uses_level (hlib : lib ∈ libs) (t : ElementType) (dims : List Nat) (depth : Nat)
    (h : Handle) : C.Uses libs lib [h] (Dump.level lib t dims depth h) := by
  induction dims generalizing depth h with
  | nil => exact (uses_leaf hlib t h 1).bind fun _ => uses_pure _
  | cons n dims ih =>
    cases dims with
    | nil => exact (uses_leaf hlib t h n).bind fun _ => uses_pure _
    | cons m dims =>
      exact Serves.bind (uses_mapM (fun i => uses_throughRow hlib h i (ih (depth + 1))) _)
        fun _ => uses_pure _

theorem uses_start {engine : LoadedEngine σ} (hlib : engine.library ∈ libs) :
    C.Uses libs engine.library [] (RecordingSection.start engine) := by
  refine Serves.bind (C.serves hlib (.setRecording true) rfl (g := .switch) rfl) fun recording => ?_
  have htraining : C.Uses libs engine.library [] (engine.library.setTraining true) :=
    C.serves hlib (.setTraining true) rfl (g := .switch) rfl
  refine htraining.outcome.bind fun training => ?_
  cases training with
  | ok training => exact uses_pure _
  | error e =>
    have hback : C.Uses libs engine.library [] (engine.library.setRecording recording) :=
      C.serves hlib (.setRecording recording) rfl (g := .switch) rfl
    exact hback.quietly.bind fun _ => uses_throw e

theorem uses_finish {engine : LoadedEngine σ} (hlib : engine.library ∈ libs)
    (recording training : Bool) :
    C.Uses libs engine.library [] (RecordingSection.finish ⟨engine, recording, training⟩) := by
  have hrecording : C.Uses libs engine.library [] (engine.library.setRecording recording) :=
    C.serves hlib (.setRecording recording) rfl (g := .switch) rfl
  have htraining : C.Uses libs engine.library [] (engine.library.setTraining training) :=
    C.serves hlib (.setTraining training) rfl (g := .switch) rfl
  exact hrecording.quietly.bind fun _ => htraining.quietly

end Custody
end ScopedTensor
