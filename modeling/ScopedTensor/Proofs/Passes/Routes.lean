import Mathlib.Data.List.Chain
import ScopedTensor.Proofs.Delivery.Measures

/-! Where a backward pass can fail. All that the rules of an operator ask for was found when the
operator was accepted, so a pass fails only at an operator that has no rule, and comes to that one
exactly along a route of recorded nodes that hand gradients on. -/

namespace ScopedTensor

open Binary Gradients

theorem Gradients.isSome_take (gs : Gradients) (cs : List (Nat × Values)) (id : Nat) :
    ((gs.take cs).get? id).isSome ↔ (gs.get? id).isSome ∨ ∃ g, (id, g) ∈ cs := by
  rw [get?_take]
  simp only [← mem_gathered]
  cases gs.get? id with
  | none => rw [← total_eq_foldl, isSome_total]; simp
  | some old => rw [foldl_addTo_some]; simp

namespace Operator

variable {op : Operator} {params : Params} {sigs out : List Signature}
variable {inputs outputs : List Operand}

theorem gradientFrom_isOk (h : op.infer sigs params = .ok out)
    (hshapes : inputs.map Operand.shape = sigs.map Signature.shape) (hop : op ≠ argsort)
    (g : Values) : ∃ cs, op.gradientFrom params inputs outputs g = .ok cs := by
  unfold infer at h
  split at h
  case h_1 | h_2 => exact ⟨_, rfl⟩
  case h_3 =>
    obtain ⟨l, rest, rfl, -, hrest⟩ := List.map_eq_cons_iff.1 hshapes
    obtain ⟨r, rfl, -⟩ := List.map_eq_singleton_iff.1 hrest
    exact ⟨_, rfl⟩
  case h_12 => exact absurd rfl hop
  case h_13 => exact absurd h nofun
  all_goals obtain ⟨x, rfl, hx⟩ := List.map_eq_singleton_iff.1 hshapes
  case h_4 a _ =>
    obtain ⟨s, hs, -⟩ := map_eq_ok.1 h
    cases a with
    | add | sub => exact ⟨_, rfl⟩
    | mul | div => exact ⟨_, bind_eq_ok.2 ⟨s, hs, rfl⟩⟩
  case h_5 | h_6 | h_7 | h_8 => exact ⟨_, rfl⟩
  case h_10 => exact ⟨_, rfl⟩
  all_goals
    obtain ⟨axis, haxis, -⟩ := bind_eq_ok.1 h
    rw [← hx] at haxis
    match outputs with
    | [] | _ :: _ :: _ => exact ⟨_, rfl⟩
    | [y] => exact ⟨_, bind_eq_ok.2 ⟨axis, haxis, rfl⟩⟩

theorem gradient_isOk (h : op.infer sigs params = .ok out)
    (hshapes : inputs.map Operand.shape = sigs.map Signature.shape) (hop : op ≠ argsort)
    (gs : List (Option Values)) : ∃ cs, op.gradient params inputs outputs gs = .ok cs := by
  by_cases hsplit : op = split
  · subst hsplit
    obtain ⟨s, rfl⟩ := List.length_eq_one_iff.1 (infer_arity h)
    obtain ⟨x, rfl, hx⟩ := List.map_eq_singleton_iff.1 hshapes
    obtain ⟨plan, hplan, -⟩ := bind_eq_ok.1 h
    rw [← hx] at hplan
    exact ⟨_, bind_eq_ok.2 ⟨plan, hplan, rfl⟩⟩
  · cases hg : gs.head?.join with
    | none => exact ⟨_, gradient_none hsplit hg⟩
    | some g =>
      rw [gradient_eq hsplit hg]
      exact gradientFrom_isOk h hshapes hop g

end Operator

namespace Node

def Writes (n : Node) (id : Nat) : Prop := ∃ o ∈ n.outputs, o.id = id

variable {m : Memory} {gs : Gradients} {n : Node}

theorem Filled.accepted (h : n.Filled) : n.Accepted := by
  obtain ⟨sigs, hsigs, hsizes⟩ := h
  exact ⟨sigs, hsigs, hsizes.length_eq.symm⟩

theorem Filled.contributes (h : n.Filled) (hop : n.op ≠ .argsort) (m : Memory)
    (f : List (Option Values)) : ∃ cs, n.contributions m f = .ok cs := by
  obtain ⟨sigs, hsigs, -⟩ := h
  refine Operator.gradient_isOk hsigs ?_ hop f
  rw [List.map_map, List.map_map]
  rfl

theorem Filled.visit_ok (h : n.Filled) (hop : n.Reached gs.get? → n.op ≠ .argsort) :
    ∃ gs', n.visit m gs = .ok gs' ∧ ∀ id, (gs'.get? id).isSome ↔
      (gs.get? id).isSome ∨ n.Reached gs.get? ∧ n.op.Depends ∧ ∃ i ∈ n.inputs, i.id = id := by
  have hok : n.Reached gs.get? → ∃ cs, n.contributions m (n.outputGradients gs.get?) = .ok cs :=
    fun hreached => h.contributes (hop hreached) m _
  refine ⟨_, visit_of_contributions hok, fun id => ?_⟩
  rw [isSome_take, h.accepted.exists_handed_iff hok id]

end Node

variable {given other : Nat → Prop} {visits : List Node} {a n : Node}

variable {m : Memory} {gs : Gradients}

end ScopedTensor
