import ScopedTensor.Element.Interchange
import ScopedTensor.Proofs.Knowledge.Conditions
import ScopedTensor.Proofs.Rendering.Dumps

/-! Arrays of reference engines shown as they are, in any history, and what showing them leaves
behind, also where it fails part-way. -/

namespace ScopedTensor

open ScopedTensor.Action Binary Library Reference Relation Session Backends

section

variable {half : HalfPrecision}
variable {gpus i : Nat} {b : Backends} {h : Handle} {e : Entry} {id : ArrayId}

namespace Reference

variable {s t : State}

def State.element [HalfPrecision] (s : State) (v : View) (is : List Nat) : Binary64 :=
  (s.contents v).getD (v.shape.place is) .zero

end Reference

/-- In every history an array that has its handle is of a live entry, and what is remembered of it
is what the entry says, unless the program described the array. -/
theorem History.exists_entry {load : Foreign.Loader} {g : History}
    (hg : ReflTransGen (History.Next load) .start g) {a : Tensor Backends}
    (ha : g.session.arrays.get? id = some a) (hopen : a.owned.isReleased = false) :
    ∃ i gpus e, a.engine.library = referenceLibrary i gpus ∧
      i < g.session.native.references.length ∧
      (g.session.native.reference i).entries.get? a.owned.handle.id = some e ∧
      (id ∉ g.described → ∀ (k : Trait) x, k.known a = some x → e.answer k = x) := by
  obtain ⟨⟨W, -, hs⟩, hfaithful⟩ := History.employs_faithful_reached hg
  obtain ⟨i, gpus, e, hi, hlib, he⟩ :=
    Backends.exists_entry hs ha (OwnedHandle.get_eq_ok.2 ⟨hopen, rfl⟩)
  refine ⟨i, gpus, e, hlib, hi, he, fun hid k x hx => ?_⟩
  obtain ⟨j, gpus', hj, hlib', hv⟩ := hfaithful id a ha hid hopen k x hx
  obtain rfl := place_inj hi (hlib.symm.trans hlib')
  exact hv.told e he

end

open Interchange

end ScopedTensor
