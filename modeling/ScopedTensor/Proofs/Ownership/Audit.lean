import ScopedTensor.Proofs.Ownership.Ledger

/-! An engine that keeps a record of the handles it was asked to free, and whether it took them. -/

namespace ScopedTensor

open ScopedTensor.Action

variable {half : HalfPrecision}
variable {σ α : Type} {acc : List Handle → σ → List Handle → Prop} {lib : Library σ}

structure Audited (σ : Type) where
  native : σ
  /-- Calls of `free`, the latest first. -/
  frees : List (Handle × Bool)

namespace Audited

def withNative (n : σ) (t : Audited σ) : Audited σ := { t with native := n }

def freed (t : Audited σ) : List Handle := t.frees.map Prod.fst

end Audited

def Library.audited (lib : Library σ) : Library (Audited σ) :=
  { lib.zoom Audited.native Audited.withNative with
    free := fun h t =>
      match lib.free h t.native with
      | .ok () n => .ok () ⟨n, (h, true) :: t.frees⟩
      | .error e n => .error e ⟨n, (h, false) :: t.frees⟩ }

/-- Every call of `free` was taken, none came twice, and the freed handles are accounted for. -/
structure Audit (acc : List Handle → σ → List Handle → Prop) (t : Audited σ) (owned : List Handle) :
    Prop where
  taken : ∀ f ∈ t.frees, f.2 = true
  once : t.freed.Nodup
  account : acc t.freed t.native owned

theorem Undisturbed.audited {a : Action σ α} (h : ∀ spent, Undisturbed (acc spent) a) :
    Undisturbed (Audit acc) (a.zoom Audited.native Audited.withNative) := by
  intro owned
  refine .zoom fun t ht => ?_
  have := h t.freed owned t.native ht.account
  cases hr : a t.native with
  | ok x n => rw [hr] at this; exact ⟨ht.taken, ht.once, this⟩
  | error e n => rw [hr] at this; exact ⟨ht.taken, ht.once, this⟩

theorem Issues.audited {a : Action σ α} {issued : α → List Handle}
    (h : ∀ spent, Issues (acc spent) a issued) :
    Issues (Audit acc) (a.zoom Audited.native Audited.withNative) issued := by
  intro owned
  refine .zoom fun t ht => ?_
  have := h t.freed owned t.native ht.account
  cases hr : a t.native with
  | ok x n => rw [hr] at this; exact ⟨this.1, ht.taken, ht.once, this.2⟩
  | error e n => rw [hr] at this; exact ⟨ht.taken, ht.once, this⟩

theorem Library.Accounted.audited (h : ∀ spent, lib.Accounted (acc spent))
    (hfree : ∀ spent owned h n, acc spent n (h :: owned) →
      ∃ n', lib.free h n = .ok () n' ∧ h ∉ spent ∧ acc (h :: spent) n' owned) :
    lib.audited.Accounted (Audit acc) where
  version := .audited fun spent => (h spent).version
  gpuCount := .audited fun spent => (h spent).gpuCount
  listOps := .audited fun spent => (h spent).listOps
  getOp name := .audited fun spent => (h spent).getOp name
  create d s t st delayed := .audited fun spent => (h spent).create d s t st delayed
  free h owned _ t ht := by
    obtain ⟨n, hn, hnew, hacc⟩ := hfree t.freed owned h t.native ht.account
    have haudited : lib.audited.free h t = .ok () ⟨n, (h, true) :: t.frees⟩ := by
      simp only [Library.audited, hn]
    rw [haudited]
    refine ⟨fun f hf => ?_, List.nodup_cons.2 ⟨hnew, ht.once⟩, hacc⟩
    rcases List.mem_cons.1 hf with rfl | hf
    · rfl
    · exact ht.taken f hf
  shape x := .audited fun spent => (h spent).shape x
  type x := .audited fun spent => (h spent).type x
  device x := .audited fun spent => (h spent).device x
  storage x := .audited fun spent => (h spent).storage x
  copyIn x bytes n := .audited fun spent => (h spent).copyIn x bytes n
  copyOut x room n := .audited fun spent => (h spent).copyOut x room n
  waitToRead x := .audited fun spent => (h spent).waitToRead x
  waitToWrite x := .audited fun spent => (h spent).waitToWrite x
  waitAll := .audited fun spent => (h spent).waitAll
  invoke op inputs params := .audited fun spent => (h spent).invoke op inputs params
  invokeInto op inputs outputs params :=
    .audited fun spent => (h spent).invokeInto op inputs outputs params
  row x i := .audited fun spent => (h spent).row x i
  slice x first last := .audited fun spent => (h spent).slice x first last
  reshape x target reverse := .audited fun spent => (h spent).reshape x target reverse
  markVariables vars requests grads :=
    .audited fun spent => (h spent).markVariables vars requests grads
  backward heads grads retain training :=
    .audited fun spent => (h spent).backward heads grads retain training
  getGrad x := .audited fun spent => (h spent).getGrad x
  setRecording on := .audited fun spent => (h spent).setRecording on
  setTraining on := .audited fun spent => (h spent).setTraining on
  randomSeed seed := .audited fun spent => (h spent).randomSeed seed

theorem Audit.perm {acc : List Handle → σ → List Handle → Prop}
    (hacc : ∀ {spent n owned owned'}, owned.Perm owned' → acc spent n owned → acc spent n owned')
    {t : Audited σ} {owned owned' : List Handle} (hperm : owned.Perm owned') (h : Audit acc t owned) :
    Audit acc t owned' := ⟨h.taken, h.once, hacc hperm h.account⟩

namespace Reference

theorem audited_accounted [HalfPrecision] (gpus : Nat) :
    (library gpus).audited.Accounted (Audit Ledger) :=
  .audited (fun _ => accounted gpus) fun spent owned h n hn => by
    obtain ⟨n', hfree, hledger⟩ := hn.free
    have hlive := (hn.live_iff h).2 List.mem_cons_self
    exact ⟨n', hfree, fun hspent => (hn.spent h hspent).1 hlive, hledger⟩

end Reference
end ScopedTensor
