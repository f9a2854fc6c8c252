import ScopedTensor.Proofs.Knowledge.Fidelity
import ScopedTensor.Proofs.Store.Narrowing

/-! What the engines are like in any history. Whatever is called, their queues can be run, handles
are numbered up to the last number, and the views in use stay in their buffers, whose elements are
narrowed. -/

namespace ScopedTensor

open ScopedTensor.Action Session Relation Library

variable {half : HalfPrecision}

namespace Reference

variable {s t : State}

structure State.Kept [HalfPrecision] (s : State) : Prop where
  orderly : s.Orderly
  numbered : s.Numbered
  bounded : s.Bounded
  narrowed : s.Narrowed

theorem kept_initial : State.Kept .initial where
  orderly := orderly_initial
  numbered := fun _ _ he => absurd he nofun
  bounded := bounded_run 0 []
  narrowed := narrowed_run 0 []

theorem State.Kept.changes (hs : s.Kept) (h : ReflTransGen State.Change s t) :
    t.Bounded ∧ t.Narrowed := by
  induction h with
  | refl => exact ⟨hs.bounded, hs.narrowed⟩
  | tail _ hchange ih => exact ⟨ih.1.change hchange, ih.2.change ih.1 hchange⟩

theorem State.Kept.step (hs : s.Kept) (gpus : Nat) (c : Call) :
    (c.step (library gpus) s).Kept := by
  obtain ⟨hbounded, hnarrowed⟩ := hs.changes (changes_step gpus hs.numbered c)
  exact
    { orderly := orderly_step hs.orderly c
      numbered := (numbers_step gpus s c).numbered hs.numbered
      bounded := hbounded
      narrowed := hnarrowed }

end Reference

namespace Backends

open Reference

variable {b b' c : Backends} {lib : Library Backends} {K : LoadedEngine Backends → Prop}

def Kept [HalfPrecision] (b : Backends) : Prop := ∀ i, (b.reference i).Kept

theorem Kept.step (hb : b.Kept) (hlib : b'.Fronts lib) (c : Call) : (c.step lib b).Kept := by
  obtain ⟨i, gpus, -, rfl⟩ := hlib
  intro j
  by_cases hj : j < b.references.length
  · rw [step_referenceLibrary]
    by_cases hji : j = i
    · subst hji
      rw [reference_set_self hj]
      exact (hb j).step gpus c
    · rw [reference_set_of_ne hji]
      exact hb j
  · have hnone : (c.step (referenceLibrary i gpus) b).reference j = .initial := by
      rw [step_referenceLibrary]
      unfold Backends.reference
      rw [List.getD_eq_default _ _ (by simpa using hj)]
    exact hnone ▸ kept_initial

theorem Kept.opened (hb : b.Kept) : b.opened.Kept := fun i => reference_opened b i ▸ hb i

theorem Stems.kept (h : b.Stems b') (hb : b.Kept) : b'.Kept := by
  cases h with
  | same => exact hb
  | opened => exact hb.opened
  | called hlib c => exact hb.step hlib c

theorem kept_of_reach (hlib : b.Fronts lib) (h : (b.mandate K).Reach lib b' c) (hb : b'.Kept) :
    c.Kept := by
  induction h with
  | refl => exact hb
  | tail _ hstep ih =>
    obtain ⟨call, -, rfl⟩ := hstep
    exact ih.step hlib call

end Backends

theorem Session.Move.kept {b : Backends} {K : LoadedEngine Backends → Prop}
    {s t : Session Backends} (h : Move (b.mandate K) s t) (hs : s.native.Kept) : t.native.Kept := by
  cases h with
  | tidied h => exact h.native ▸ hs
  | called he h => exact Backends.kept_of_reach he.1 h hs
  | learned ha he hopen ht hx => exact after_ok hx ▸ hs.step he.1 _
  | wrapped => exact hs

namespace History

variable {load : Foreign.Loader} {g g' : History} {s u : Session Backends}
variable {described described' : List ArrayId}

theorem Stirred.kept (h : Stirred s described u described') (hs : s.native.Kept) :
    u.native.Kept := by
  cases h with
  | native hn => exact hn.kept hs
  | wrapped => exact hs

theorem Next.kept (hnext : Next load g g') (hg : g.Employs) (hs : g.session.native.Kept) :
    g'.session.native.Kept := by
  obtain ⟨s, hstirred, hleads⟩ := hnext.leads hg
  have hmoves : ∀ u, ReflTransGen (Move (s.native.mandate fun _ => True)) s u → u.native.Kept := by
    intro u hu
    induction hu with
    | refl => exact hstirred.kept hs
    | tail _ hmove ih => exact hmove.kept ih
  exact hmoves _ hleads.work.moves

end History
end ScopedTensor
