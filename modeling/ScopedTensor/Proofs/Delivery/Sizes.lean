import ScopedTensor.Proofs.Adjoint.Operands
import ScopedTensor.Proofs.Store.Bounds

/-! How long gradients are. What an operator hands to an input has as many elements as the input, so
every gradient of a pass has as many as the array it is for. -/

namespace ScopedTensor

open Binary Gradients

namespace Extents

variable {dims : List Nat} {axis : Nat}

theorem product_append (xs ys : List Nat) : product (xs ++ ys) = product xs * product ys := by
  induction xs with
  | nil => exact (Nat.one_mul _).symm
  | cons n xs ih =>
    change n * product (xs ++ ys) = n * product xs * product ys
    rw [ih, Nat.mul_assoc]

theorem product_around (before behind ns : List Nat) :
    product (before ++ ns ++ behind) = product before * product ns * product behind := by
  rw [product_append, product_append]

theorem size_around (h : axis < dims.length) : (around dims axis).size = product dims := by
  have hsplit : dims.take axis ++ [dims[axis]] ++ dims.drop (axis + 1) = dims := by
    rw [List.append_assoc, List.singleton_append, List.getElem_cons_drop, List.take_append_drop]
  have hproduct := product_around (dims.take axis) (dims.drop (axis + 1)) [dims[axis]]
  rw [hsplit] at hproduct
  rw [hproduct]
  simp [size, around, product, List.getD_eq_getElem?_getD, h]

theorem product_set (h : axis < dims.length) (n : Nat) :
    product (dims.set axis n) = (around dims axis).outer * n * (around dims axis).inner := by
  have hproduct := product_around (dims.take axis) (dims.drop (axis + 1)) [n]
  rw [List.append_assoc, List.singleton_append] at hproduct
  rw [List.set_eq_take_append_cons_drop, if_pos h, hproduct]
  simp [around, product]

theorem product_eraseIdx :
    product (dims.eraseIdx axis) = (around dims axis).outer * (around dims axis).inner := by
  rw [List.eraseIdx_eq_take_drop_succ, product_append]
  rfl

variable {e : Extents} {parts : List Values}

theorem length_concat (hpos : 0 < parts.length) (hdvd : parts.length ∣ e.length)
    (h : ∀ part ∈ parts, part.length = e.outer * (e.length / parts.length) * e.inner) :
    (e.concat parts).length = e.size := by
  have hmax : Nat.max parts.length 1 = parts.length := Nat.max_eq_left hpos
  have hchunk : e.chunkSize (Nat.max parts.length 1) = e.length / parts.length * e.inner := by
    rw [hmax]
    rfl
  have hblock : ∀ o < e.outer, (parts.flatMap fun part =>
      (part.drop (o * (e.length / parts.length * e.inner))).take
        (e.length / parts.length * e.inner)).length = e.length * e.inner := by
    intro o ho
    have hpart : ∀ part ∈ parts, ((part.drop (o * (e.length / parts.length * e.inner))).take
        (e.length / parts.length * e.inner)).length = e.length / parts.length * e.inner := by
      intro part hpart
      have hle : (o + 1) * (e.length / parts.length * e.inner) ≤ part.length := by
        rw [h part hpart, Nat.mul_assoc]
        exact Nat.mul_le_mul_right _ ho
      rw [Nat.add_one_mul] at hle
      rw [List.length_take, List.length_drop]
      omega
    rw [List.length_flatMap, List.map_congr_left hpart, List.map_const', List.sum_replicate_nat,
      ← Nat.mul_assoc, Nat.mul_div_cancel' hdvd]
  unfold concat
  simp only [hchunk]
  rw [List.length_flatMap, List.map_congr_left fun o ho => hblock o (List.mem_range.1 ho),
    List.map_const', List.sum_replicate_nat, List.length_range, ← Nat.mul_assoc]
  rfl

end Extents

theorem Shape.axis?_lt {s : Shape} {wanted : Int} {axis : Nat} (h : s.axis? wanted = some axis) :
    axis < s.dims.length := by
  obtain ⟨⟨hpos, hlt⟩, haxis⟩ := Option.ite_none_right_eq_some.1 h
  obtain rfl := Option.some.inj haxis
  exact (Int.toNat_lt hpos).2 hlt

namespace Operator

variable {op : Operator} {params : Params} {sigs out : List Signature} {sig : Signature}
variable {inputs outputs : List Operand} {gs cs : List (Option Values)} {g : Values}

theorem axisOf_lt {s : Shape} {wanted : Int} {axis : Nat} (h : op.axisOf s wanted = .ok axis) :
    axis < s.dims.length := by
  unfold axisOf require at h
  split at h
  · rename_i found hfound
    rw [← Except.ok.inj h]
    exact Shape.axis?_lt hfound
  · exact absurd h nofun

theorem length_targets (dims : List Nat) (axis : Option Nat) :
    (Reduction.targets dims axis).length = Extents.product dims := by
  cases axis <;> simp [Reduction.targets]

theorem length_reduction (r : Reduction) {x : Operand} (hx : x.values.length = x.shape.size)
    (axis : Option Nat) (reduced : Values) :
    (r.gradient x.values x.shape.dims axis reduced g).length = x.values.length := by
  unfold Reduction.gradient
  rw [List.length_zipWith, length_targets, hx]
  exact Nat.min_self _

theorem length_softmax {x : Operand} (hx : x.values.length = x.shape.size) {ys : Values} {axis : Nat}
    (haxis : axis < x.shape.dims.length) (t : Binary64) :
    (Softmax.gradient ys g x.shape.dims axis t).length = x.values.length := by
  unfold Softmax.gradient
  rw [Extents.length_assemble, Extents.size_around haxis, hx]
  rfl

def Fitting (inputs : List Operand) (cs : List (Option Values)) : Prop :=
  ∀ p ∈ inputs.zip cs, ∀ g, p.2 = some g → g.length = p.1.values.length

theorem fitting_one {x : Operand} {c : Option Values}
    (h : ∀ g, c = some g → g.length = x.values.length) : Fitting [x] [c] := by
  intro p hp
  obtain rfl := List.mem_singleton.1 hp
  exact h

theorem fitting_nil : Fitting inputs [] := by
  unfold Fitting
  rw [List.zip_nil_right]
  nofun

theorem fitting_none : Fitting inputs (List.replicate inputs.length none) := by
  intro p hp g hg
  have hnone := List.eq_of_mem_replicate (List.of_mem_zip hp).2
  exact absurd (hnone.symm.trans hg) nofun

theorem pairwiseGradient_fitting {x y : Operand} (hx : g.length = x.values.length)
    (hy : g.length = y.values.length) (a : Arithmetic) :
    Fitting [x, y] (pairwiseGradient x.values y.values g a) := by
  have hpair : ∀ c d : Values, c.length = x.values.length → d.length = y.values.length →
      Fitting [x, y] [some c, some d] := by
    intro c d hc hd p hp v hv
    rcases List.mem_cons.1 hp with rfl | hp
    · rw [← Option.some.inj hv, hc]
    · obtain rfl := List.mem_singleton.1 hp
      rw [← Option.some.inj hv, hd]
  cases a with
  | add => exact hpair _ _ hx hy
  | sub => exact hpair _ _ hx ((List.length_map _).trans hy)
  | mul | div => refine hpair _ _ ?_ ?_ <;> simp [← hx, ← hy]

theorem gradientFrom_fitting (hop : op ≠ split) (hinfer : op.infer sigs params = .ok [sig])
    (hshapes : inputs.map Operand.shape = sigs.map Signature.shape)
    (hin : ∀ x ∈ inputs, x.values.length = x.shape.size) (hg : g.length = sig.shape.size)
    (h : op.gradientFrom params inputs outputs g = .ok cs) : Fitting inputs cs := by
  -- The split of `infer` gives the operators with the numbers of inputs they are accepted with.
  unfold infer at hinfer
  split at hinfer
  case h_1 | h_2 =>
    obtain rfl := List.map_eq_nil_iff.1 hshapes
    exact nofun
  case h_3 a l r =>
    obtain ⟨x, rest, rfl, hx, hrest⟩ := List.map_eq_cons_iff.1 hshapes
    obtain ⟨y, rfl, hy⟩ := List.map_eq_singleton_iff.1 hrest
    split at hinfer
    · exact absurd hinfer nofun
    · rename_i hshape
      split at hinfer
      · exact absurd hinfer nofun
      · obtain rfl := (List.cons.inj (Except.ok.inj hinfer)).1
        obtain rfl := Except.ok.inj h
        refine pairwiseGradient_fitting (hg.trans ?_) (hg.trans ?_) a
        · rw [hin x List.mem_cons_self, hx]
        · rw [hin y (List.mem_cons_of_mem _ List.mem_cons_self), hy, not_not.1 hshape]
  case h_10 => exact absurd rfl hop
  case h_13 => exact absurd hinfer nofun
  all_goals
    obtain ⟨x, rfl, hx⟩ := List.map_eq_singleton_iff.1 hshapes
    have hwhole : x.values.length = x.shape.size := hin x List.mem_cons_self
  case h_4 a s =>
    obtain ⟨c, -, hout⟩ := map_eq_ok.1 hinfer
    obtain rfl := (List.cons.inj hout).1
    have hlength : g.length = x.values.length := by rw [hg, hwhole, hx]
    cases a with
    | add | sub =>
      obtain rfl := Except.ok.inj h
      exact fitting_one fun v hv => Option.some.inj hv ▸ hlength
    | mul | div =>
      obtain ⟨c, -, h⟩ := bind_eq_ok.1 h
      obtain rfl := Except.ok.inj h
      refine fitting_one fun v hv => ?_
      rw [← Option.some.inj hv]
      exact (List.length_map _).trans hlength
  case h_5 s | h_8 s =>
    obtain rfl := (List.cons.inj (Except.ok.inj hinfer)).1
    obtain rfl := Except.ok.inj h
    refine fitting_one fun v hv => ?_
    rw [← Option.some.inj hv]
    simp [hg, hwhole, hx]
  case h_6 | h_7 =>
    obtain rfl := Except.ok.inj h
    exact fitting_one nofun
  case h_9 r s =>
    match outputs with
    | [] | _ :: _ :: _ =>
      obtain rfl := Except.ok.inj h
      exact fitting_nil
    | [y] =>
      obtain ⟨axis, -, h⟩ := bind_eq_ok.1 h
      obtain rfl := Except.ok.inj h
      exact fitting_one fun v hv => Option.some.inj hv ▸ length_reduction r hwhole axis y.values
  case h_11 s =>
    match outputs with
    | [] | _ :: _ :: _ =>
      obtain rfl := Except.ok.inj h
      exact fitting_nil
    | [y] =>
      obtain ⟨axis, haxis, h⟩ := bind_eq_ok.1 h
      obtain rfl := Except.ok.inj h
      exact fitting_one fun v hv => Option.some.inj hv ▸ length_softmax hwhole (axisOf_lt haxis) _
  case h_12 s => exact absurd h nofun

/-- A split that can be planned is along an axis, into equal parts, and drops the axis only where
nothing of it is left. -/
structure SplitPlan.Fair (plan : SplitPlan) (s : Shape) : Prop where
  axis : plan.axis < s.dims.length
  parts : 0 < plan.parts
  equal : plan.parts ∣ (Extents.around s.dims plan.axis).length
  squeezed : plan.squeezed = true →
    (Extents.around s.dims plan.axis).length / plan.parts = 1

theorem parts_pos {parts : Int} (h : split.require .partCount
    ((params.int? "num_outputs").filter (0 < ·)) = .ok parts) : 0 < parts := by
  unfold require at h
  split at h
  · rename_i n hn
    obtain ⟨-, hpos⟩ := Option.filter_eq_some_iff.1 hn
    rw [← Except.ok.inj h]
    exact of_decide_eq_true hpos
  · exact absurd h nofun

theorem splitPlan_fair {s : Shape} {plan : SplitPlan} (h : splitPlan params s = .ok plan) :
    plan.Fair s := by
  obtain ⟨axis, haxis, h⟩ := bind_eq_ok.1 h
  obtain ⟨parts, hparts, h⟩ := bind_eq_ok.1 h
  simp only at h
  split at h
  · exact absurd h nofun
  · rename_i hequal
    split at h
    · exact absurd h nofun
    · rename_i hsqueezed
      obtain rfl := Except.ok.inj h
      have hpos : 0 < parts.toNat := Int.lt_toNat.2 (parts_pos hparts)
      refine ⟨axisOf_lt haxis, hpos, Nat.dvd_of_mod_eq_zero (not_not.1 hequal), fun hsq => ?_⟩
      have hsq : (params.bool? "squeeze_axis").getD false = true := hsq
      rw [hsq, Bool.true_and, bne_iff_ne, ne_eq, not_not] at hsqueezed
      exact hsqueezed

theorem SplitPlan.Fair.size {plan : SplitPlan} {s : Shape} (h : plan.Fair s) :
    (if plan.squeezed then s.withoutAxis plan.axis
      else s.withDim plan.axis (s.dims.getD plan.axis 1 / plan.parts)).size =
      (Extents.around s.dims plan.axis).outer *
        ((Extents.around s.dims plan.axis).length / plan.parts) *
        (Extents.around s.dims plan.axis).inner := by
  split
  · rename_i hsqueezed
    rw [h.squeezed hsqueezed, Nat.mul_one]
    exact Extents.product_eraseIdx
  · exact Extents.product_set h.axis _

/-- What is joined for the input of a split: a part for each output, as long as the output. Outputs
that were not reached count as zero. -/
theorem length_parts (hgs : List.Forall₂ (fun (g : Option Values) (y : Operand) =>
      ∀ v, g = some v → v.length = y.values.length) gs outputs) :
    let parts := gs.zipWith (fun g (y : Operand) =>
      g.getD (List.replicate y.values.length .zero)) outputs
    parts.length = outputs.length ∧
      ∀ part ∈ parts, ∃ y ∈ outputs, part.length = y.values.length := by
  intro parts
  refine ⟨by rw [List.length_zipWith, hgs.length_eq, Nat.min_self], fun part hpart => ?_⟩
  unfold parts at hpart
  rw [← List.map_uncurry_zip_eq_zipWith] at hpart
  obtain ⟨q, hq, rfl⟩ := List.mem_map.1 hpart
  refine ⟨q.2, (List.of_mem_zip hq).2, ?_⟩
  have hfit := (List.forall₂_iff_zip.1 hgs).2 hq
  obtain ⟨g, y⟩ := q
  cases g with
  | none => exact List.length_replicate
  | some v => exact hfit v rfl

theorem splitGradient_fitting {x : Operand} {plan : SplitPlan}
    (hplan : splitPlan params x.shape = .ok plan) (hin : x.values.length = x.shape.size)
    (hcount : outputs.length = plan.parts)
    (hout : ∀ y ∈ outputs, y.values.length =
      (Extents.around x.shape.dims plan.axis).outer *
        ((Extents.around x.shape.dims plan.axis).length / plan.parts) *
        (Extents.around x.shape.dims plan.axis).inner)
    (hgs : List.Forall₂ (fun (g : Option Values) (y : Operand) =>
      ∀ v, g = some v → v.length = y.values.length) gs outputs)
    (h : splitGradient params x outputs gs = .ok cs) : Fitting [x] cs := by
  have hfair := splitPlan_fair hplan
  obtain ⟨found, hfound, h⟩ := bind_eq_ok.1 h
  obtain rfl := Except.ok.inj (hplan.symm.trans hfound)
  obtain rfl := Except.ok.inj h
  obtain ⟨hlength, hparts⟩ := length_parts hgs
  have hcount := hlength.trans hcount
  refine fitting_one fun v hv => ?_
  rw [← Option.some.inj hv, hin]
  refine (Extents.length_concat (hcount ▸ hfair.parts) (hcount ▸ hfair.equal)
    fun p hp => ?_).trans (Extents.size_around hfair.axis)
  obtain ⟨y, hy, hlength⟩ := hparts p hp
  rw [hcount]
  exact hlength.trans (hout y hy)

theorem length_of_split {x : Operand} {type : ElementType} {plan : SplitPlan}
    (hplan : splitPlan params x.shape = .ok plan)
    (hout : List.Forall₂ (fun (y : Operand) (sig : Signature) => y.values.length = sig.shape.size)
      outputs (List.replicate plan.parts ⟨if plan.squeezed then x.shape.withoutAxis plan.axis
        else x.shape.withDim plan.axis (x.shape.dims.getD plan.axis 1 / plan.parts), type⟩)) :
    outputs.length = plan.parts ∧ ∀ y ∈ outputs, y.values.length =
      (Extents.around x.shape.dims plan.axis).outer *
        ((Extents.around x.shape.dims plan.axis).length / plan.parts) *
        (Extents.around x.shape.dims plan.axis).inner := by
  refine ⟨by rw [hout.length_eq, List.length_replicate], fun y hy => ?_⟩
  obtain ⟨i, hi, rfl⟩ := List.mem_iff_getElem.1 hy
  have hsize := hout.get hi (hout.length_eq ▸ hi)
  rw [List.get_eq_getElem, List.get_eq_getElem, List.getElem_replicate] at hsize
  exact hsize.trans (splitPlan_fair hplan).size

theorem gradient_fitting (hinfer : op.infer sigs params = .ok out)
    (hshapes : inputs.map Operand.shape = sigs.map Signature.shape)
    (hin : ∀ x ∈ inputs, x.values.length = x.shape.size)
    (hout : List.Forall₂ (fun (y : Operand) (sig : Signature) =>
      y.values.length = sig.shape.size) outputs out)
    (hgs : List.Forall₂ (fun (g : Option Values) (y : Operand) =>
      ∀ v, g = some v → v.length = y.values.length) gs outputs)
    (h : op.gradient params inputs outputs gs = .ok cs) : Fitting inputs cs := by
  by_cases hop : op = split
  · subst hop
    obtain ⟨s, rfl⟩ := List.length_eq_one_iff.1 (infer_arity hinfer)
    obtain ⟨x, rfl, hx⟩ := List.map_eq_singleton_iff.1 hshapes
    obtain ⟨plan, hplan, hinfer⟩ := bind_eq_ok.1 hinfer
    obtain rfl := Except.ok.inj hinfer
    rw [← hx] at hplan hout
    obtain ⟨hcount, hsizes⟩ := length_of_split hplan hout
    exact splitGradient_fitting hplan (hin x List.mem_cons_self) hcount hsizes hgs h
  · obtain ⟨sig, rfl⟩ := List.length_eq_one_iff.1 (infer_length hinfer hop)
    cases hg : gs.head?.join with
    | none =>
      rw [gradient_none hop hg] at h
      rw [← Except.ok.inj h]
      exact fitting_none
    | some g =>
      rw [gradient_eq hop hg] at h
      refine gradientFrom_fitting hop hinfer hshapes hin ?_ h
      obtain ⟨y, rest, hy, hrest, rfl⟩ := List.forall₂_cons_right_iff.1 hout
      obtain ⟨o, gs, ho, -, rfl⟩ := List.forall₂_cons_right_iff.1 hgs
      have hsome : o = some g := hg
      rw [ho g hsome, hy]

end Operator
end ScopedTensor
