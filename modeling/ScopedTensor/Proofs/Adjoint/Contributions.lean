import ScopedTensor.Proofs.Adjoint.Equations
import ScopedTensor.Proofs.Deferral.Tasks

/-! Which inputs receive something. An operator whose gradient can be taken hands something to each
of its inputs, unless its results do not depend on them. -/

namespace ScopedTensor

open Binary Gradients

namespace Operator

variable {op : Operator} {params : Params} {sigs out : List Signature}

theorem filledSignature_length (h : op.filledSignature params = .ok out) : out.length = 1 := by
  obtain ⟨entries, -, h⟩ := bind_eq_ok.1 h
  obtain ⟨dims, -, h⟩ := bind_eq_ok.1 h
  rw [← Except.ok.inj h]
  rfl

theorem infer_arity (h : op.infer sigs params = .ok out) : sigs.length = op.arity := by
  unfold infer at h
  split at h
  case h_13 => exact absurd h nofun
  all_goals rfl

theorem infer_length (h : op.infer sigs params = .ok out) (hop : op ≠ split) : out.length = 1 := by
  unfold infer at h
  split at h
  case h_1 | h_2 => exact filledSignature_length h
  case h_3 =>
    split at h
    · exact absurd h nofun
    · split at h
      · exact absurd h nofun
      · rw [← Except.ok.inj h]
        rfl
  case h_4 =>
    obtain ⟨s, -, rfl⟩ := map_eq_ok.1 h
    rfl
  case h_5 | h_6 | h_7 | h_8 =>
    rw [← Except.ok.inj h]
    rfl
  case h_9 | h_12 =>
    obtain ⟨axis, -, h⟩ := bind_eq_ok.1 h
    rw [← Except.ok.inj h]
    rfl
  case h_10 => exact absurd rfl hop
  case h_11 =>
    obtain ⟨axis, -, h⟩ := bind_eq_ok.1 h
    split at h
    · exact absurd h nofun
    · rw [← Except.ok.inj h]
      rfl
  case h_13 => exact absurd h nofun

def Depends (op : Operator) : Prop := op ≠ zerosLike ∧ op ≠ onesLike

theorem gradientFrom_passes {inputs outputs : List Operand} {g : Values}
    {cs : List (Option Values)} (hin : inputs.length = op.arity) (hout : outputs.length = 1)
    (hop : op ≠ split) (h : op.gradientFrom params inputs outputs g = .ok cs) :
    cs.length = inputs.length ∧ ∀ c ∈ cs, c.isSome ↔ op.Depends := by
  obtain ⟨y, rfl⟩ := List.length_eq_one_iff.1 hout
  cases op with
  | split => exact absurd rfl hop
  | argsort => exact absurd h nofun
  | zeros | ones =>
    obtain rfl := List.length_eq_zero_iff.1 hin
    obtain rfl := Except.ok.inj h
    exact ⟨rfl, nofun⟩
  | pairwise a =>
    obtain ⟨l, r, rfl⟩ := List.length_eq_two.1 hin
    obtain rfl := Except.ok.inj h
    cases a <;> simp [pairwiseGradient, Depends]
  | copyTo | negative =>
    obtain rfl := Except.ok.inj h
    exact ⟨hin.symm, by simp [Depends]⟩
  | zerosLike | onesLike =>
    obtain rfl := Except.ok.inj h
    exact ⟨hin.symm, by simp [Depends]⟩
  | scalar a =>
    cases a with
    | add | sub =>
      obtain rfl := Except.ok.inj h
      exact ⟨hin.symm, by simp [Depends]⟩
    | mul | div =>
      obtain ⟨x, -, h⟩ := bind_eq_ok.1 h
      obtain rfl := Except.ok.inj h
      exact ⟨hin.symm, by simp [Depends]⟩
  | reduce r =>
    obtain ⟨x, rfl⟩ := List.length_eq_one_iff.1 hin
    obtain ⟨axis, -, h⟩ := bind_eq_ok.1 h
    obtain rfl := Except.ok.inj h
    exact ⟨rfl, by simp [Depends]⟩
  | softmax =>
    obtain ⟨x, rfl⟩ := List.length_eq_one_iff.1 hin
    obtain ⟨axis, -, h⟩ := bind_eq_ok.1 h
    obtain rfl := Except.ok.inj h
    exact ⟨rfl, by simp [Depends]⟩

theorem gradient_eq {inputs outputs : List Operand} {gs : List (Option Values)} {g : Values}
    (hop : op ≠ split) (hg : gs.head?.join = some g) :
    op.gradient params inputs outputs gs = op.gradientFrom params inputs outputs g := by
  unfold gradient
  split
  · exact absurd rfl hop
  · rw [hg]

theorem gradient_passes {inputs outputs : List Operand} {gs cs : List (Option Values)}
    (hin : inputs.length = op.arity) (hout : op ≠ split → outputs.length = 1)
    (hgs : gs.length = outputs.length) (hsome : gs.all Option.isNone = false)
    (h : op.gradient params inputs outputs gs = .ok cs) :
    cs.length = inputs.length ∧ ∀ c ∈ cs, c.isSome ↔ op.Depends := by
  by_cases hop : op = split
  · subst hop
    obtain ⟨x, rfl⟩ := List.length_eq_one_iff.1 hin
    obtain ⟨plan, -, h⟩ := bind_eq_ok.1 h
    obtain rfl := Except.ok.inj h
    exact ⟨rfl, by simp [Depends]⟩
  · have hone := hout hop
    obtain ⟨x, rfl⟩ := List.length_eq_one_iff.1 (hgs.trans hone)
    cases x with
    | none => exact absurd hsome nofun
    | some g =>
      rw [gradient_eq hop rfl] at h
      exact gradientFrom_passes hin hone hop h

end Operator

/-- What is recorded of an accepted operator: its inputs were found fit, and there is an output for
each of its results. -/
structure Node.Accepted (n : Node) : Prop where
  inferred : ∃ sigs, n.op.infer (n.inputs.map fun i => i.view.signature) n.params = .ok sigs ∧
    sigs.length = n.outputs.length

variable {m : Memory} {f : Nat → Option Values} {n : Node}

theorem Node.Accepted.passes {cs : List (Option Values)} (h : n.Accepted) (hreached : n.Reached f)
    (hcs : n.contributions m (n.outputGradients f) = .ok cs) :
    cs.length = n.inputs.length ∧ ∀ c ∈ cs, c.isSome ↔ n.op.Depends := by
  obtain ⟨sigs, hsigs, hlength⟩ := h.inferred
  have hin := Operator.infer_arity hsigs
  rw [List.length_map] at hin
  have hpass := Operator.gradient_passes (by rwa [List.length_map])
    (fun hop => by rw [List.length_map, ← hlength, Operator.infer_length hsigs hop])
    (by simp only [outputGradients, List.length_map]) (reached_iff.1 hreached) hcs
  rwa [List.length_map] at hpass

theorem Node.Accepted.exists_handed_iff (h : n.Accepted)
    (hok : n.Reached f → ∃ cs, n.contributions m (n.outputGradients f) = .ok cs) (id : Nat) :
    (∃ g, (id, g) ∈ n.handed m f) ↔
      n.Reached f ∧ n.op.Depends ∧ ∃ i ∈ n.inputs, i.id = id := by
  constructor
  · rintro ⟨g, hg⟩
    have hreached : n.Reached f := by
      by_contra hnot
      rw [handed_of_not_reached hnot] at hg
      exact absurd hg List.not_mem_nil
    refine ⟨hreached, ?_, mem_inputs_of_handed hg⟩
    obtain ⟨cs, hcs⟩ := hok hreached
    rw [handed_of_contributions hreached hcs] at hg
    obtain ⟨c, hc, hpair⟩ := List.mem_filterMap.1 hg
    obtain ⟨x, hx, -⟩ := Option.map_eq_some_iff.1 hpair
    exact ((h.passes hreached hcs).2 c.2 (List.of_mem_zip hc).2).1 (hx ▸ rfl)
  · rintro ⟨hreached, hdepends, i, hi, rfl⟩
    obtain ⟨cs, hcs⟩ := hok hreached
    obtain ⟨hlength, hsome⟩ := h.passes hreached hcs
    obtain ⟨k, hk, rfl⟩ := List.mem_iff_getElem.1 hi
    have hkc : k < cs.length := hlength ▸ hk
    obtain ⟨g, hg⟩ := Option.isSome_iff_exists.1 ((hsome cs[k] (List.getElem_mem hkc)).2 hdepends)
    refine ⟨g, ?_⟩
    rw [handed_of_contributions hreached hcs]
    refine List.mem_filterMap.2 ⟨(n.inputs[k], cs[k]), ?_, by rw [hg]; rfl⟩
    have hkzip : k < (n.inputs.zip cs).length := by
      rw [List.length_zip]
      exact Nat.lt_min.2 ⟨hk, hkc⟩
    exact List.mem_iff_getElem.2 ⟨k, hkzip, List.getElem_zip⟩

theorem Adjoint.isSome_iff {nodes : List Node} {seeds : List (Nat × Values)}
    (h : Adjoint m nodes seeds f) (hnodes : ∀ n ∈ nodes, n.Accepted) (id : Nat) :
    (f id).isSome ↔ id ∈ seeds.map Prod.fst ∨
      ∃ n ∈ nodes, n.Reached f ∧ n.op.Depends ∧ ∃ i ∈ n.inputs, i.id = id := by
  rw [h.equation, isSome_total]
  simp only [mem_gathered, mem_contributions]
  constructor
  · rintro ⟨g, hg | ⟨n, hn, hg⟩⟩
    · exact .inl (List.mem_map_of_mem hg)
    · exact .inr ⟨n, hn, ((hnodes n hn).exists_handed_iff (h.contributes n hn) id).1 ⟨g, hg⟩⟩
  · rintro (hid | ⟨n, hn, hpass⟩)
    · obtain ⟨⟨_, g⟩, hg, rfl⟩ := List.mem_map.1 hid
      exact ⟨g, .inl hg⟩
    · obtain ⟨g, hg⟩ := ((hnodes n hn).exists_handed_iff (h.contributes n hn) id).2 hpass
      exact ⟨g, .inr ⟨n, hn, hg⟩⟩

end ScopedTensor
