import ScopedTensor.Proofs.Delivery.Deliveries
import ScopedTensor.Proofs.Kernels.Evaluations

/-! Tasks do what was announced when they were accepted. Whatever an operator's inputs are found to
be, it computes what was inferred of them, or is a sorting that gives up; so a task that waits does
not fail, and if it comes to its end it leaves no element of an output unwritten. -/

namespace ScopedTensor.Reference

open ScopedTensor.Action State Library

variable {half : HalfPrecision}

/-- The inputs were found fit, and each output has room for just what was announced. -/
def Task.Announced (t : Task) : Prop :=
  ∃ sigs, t.op.infer (t.inputs.map View.signature) t.params = .ok sigs ∧
    List.Forall₂ (fun (v : View) (sig : Signature) => v.size = sig.shape.size) t.outputs sigs

variable {s : State} {t : Task} {m : Memory} {n : Node}

def State.Awaits (s : State) : Prop := ∀ t ∈ s.queue, t.Announced

theorem State.Admits.announced (h : s.Admits n) : n.task.Announced := by
  obtain ⟨sigs, hinfer, hsizes⟩ := h.inferred
  refine ⟨sigs, ?_, List.forall₂_map_left_iff.2 hsizes⟩
  rw [← hinfer]
  exact congrArg (n.op.infer · n.params) List.map_map

theorem State.Awaits.change {t : State} (h : s.Awaits) (ht : s.Change t) : t.Awaits := by
  cases ht with
  | drain => exact nofun
  | enlist hn =>
    intro k hk
    rcases List.mem_append.1 hk with hk | hk
    · exact h k hk
    · exact List.mem_singleton.1 hk ▸ hn.announced
  | count | allocate | derive | reveal | erase | write | deliver | switch | mark => exact h

end ScopedTensor.Reference
