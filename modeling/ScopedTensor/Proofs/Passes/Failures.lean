import ScopedTensor.Element.Interchange
import ScopedTensor.Proofs.Passes.Routes
import ScopedTensor.Proofs.Store.Aliasing

/-! Backward passes of the engine that fail. With heads and head gradients that are fit, a pass
fails exactly if a route leads from a head to a recorded sort, and then it has written nothing. -/

namespace ScopedTensor

open Binary Gradients

namespace Reference

open ScopedTensor.Action State Library

section

variable {half : HalfPrecision}
variable {gpus : Nat} {s : State} {heads : List Handle} {headGradients : List (Option Handle)}
variable {seeds : List (Nat × Values)}

/-- Heads and head gradients that are there, each head gradient with as many elements as its
head. -/
def State.Seedable (s : State) (heads : List Handle) (headGradients : List (Option Handle)) :
    Prop :=
  ∀ (i : Nat) (head : Handle), heads[i]? = some head → ∃ e, s.entry head = .ok e ∧
    ∀ g, headGradients[i]? = some (some g) → ∃ k, s.entry g = .ok k ∧ k.view.size = e.view.size

theorem State.Seedable.exists_seeds (h : s.Seedable heads headGradients) (hs : s.Bounded) :
    ∃ seeds, seedsOf s.drained heads headGradients = .ok seeds := by
  refine exists_mapM_eq_ok fun ⟨head, i⟩ hmem => ?_
  obtain ⟨e, he, hgradient⟩ := h i head (List.mem_zipIdx_iff_getElem?.1 hmem)
  simp only
  cases hg : headGradients[i]?.join with
  | none => exact ⟨_, bind_eq_ok.2 ⟨e, he, rfl⟩⟩
  | some g =>
    obtain ⟨k, hk, hsize⟩ := hgradient g (Option.join_eq_some_iff.1 hg)
    have hlength : (s.drained.memory.read k.view).length = e.view.size :=
      (hs.length_contents (.entry (entry_eq_ok.1 hk))).trans hsize
    exact ⟨_, bind_eq_ok.2 ⟨e, he, bind_eq_ok.2 ⟨k, hk, if_neg (not_not.2 hlength)⟩⟩⟩

/-- A pass whose heads are fit runs what waits, takes the tape, and changes the memory if it comes
to its end. -/
theorem backward_eq (hs : s.Orderly) (hseeds : seedsOf s.drained heads headGradients = .ok seeds)
    (retain : Bool) :
    backward .asMarked heads headGradients retain s =
      match Tape.backward s.drained.memory s.tape.nodes s.tape.marks seeds with
      | .ok memory => .ok () { s.drained with tape := s.tape.afterPass retain, memory }
      | .error e => .error e { s.drained with tape := s.tape.afterPass retain } := by
  have htape : s.drained.tape = s.tape := rfl
  unfold backward
  rw [hs.drain_bind, ← htape]
  generalize s.drained = u at hseeds
  have hquery : query (fun s => seedsOf s heads headGradients) u = .ok seeds u :=
    query_ok.2 ⟨hseeds, rfl⟩
  have hget : (get : Action State State) u = .ok u u := rfl
  have htake : (modify fun t => { t with tape := t.tape.afterPass retain } : Action State PUnit) u =
      .ok ⟨⟩ { u with tape := u.tape.afterPass retain } := rfl
  refine (bind_of_ok hquery).trans ((bind_of_ok hget).trans ((bind_of_ok htake).trans ?_))
  unfold transition
  simp only [Tape.marks_afterPass, MarkOrder.arrange_asMarked]
  cases Tape.backward u.memory u.tape.nodes u.tape.marks seeds with
  | ok memory => rfl
  | error e => rfl

theorem backward_answers (gpus : Nat) (hs : s.Orderly)
    (hseeds : seedsOf s.drained heads headGradients = .ok seeds) (retain training : Bool) :
    let c : Call := .backward heads headGradients retain training
    match Tape.backward s.drained.memory s.tape.nodes s.tape.marks seeds with
    | .ok memory => c.reply (library gpus) s = .ok .done ∧
        c.step (library gpus) s = { s.drained with tape := s.tape.afterPass retain, memory }
    | .error e => c.reply (library gpus) s = .error e ∧
        c.step (library gpus) s = { s.drained with tape := s.tape.afterPass retain } := by
  intro c
  have hcall : c.perform (library gpus) =
      (fun _ => Answer.done) <$> backward .asMarked heads headGradients retain := rfl
  have hstep := Call.step_of_map hcall s
  have hrun := backward_eq hs hseeds retain
  cases hpass : Tape.backward s.drained.memory s.tape.nodes s.tape.marks seeds with
  | ok memory =>
    rw [hpass] at hrun
    exact ⟨Call.reply_of_ok hcall hrun, hstep.trans (after_ok hrun)⟩
  | error e =>
    rw [hpass] at hrun
    exact ⟨Call.reply_of_error hcall hrun, hstep.trans (after_error hrun)⟩

end

open Interchange

end Reference
end ScopedTensor
