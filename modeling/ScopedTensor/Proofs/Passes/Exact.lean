import ScopedTensor.Proofs.Delivery.Sizes
import ScopedTensor.Proofs.Store.Checked

/-! The gradient rules with every length checked. Here lists are paired off only if they are as
long as each other, and a place beyond the end of a list stops the rule with no result, so that
nothing is cut off or made up. For operators that were accepted, and gradients as long as the
outputs they are for, no rule is ever stopped. -/

namespace ScopedTensor

open Binary

theorem mapM_some {α β : Type} {f : α → Option β} {g : α → β} {xs : List α}
    (h : ∀ x ∈ xs, f x = some (g x)) : xs.mapM f = some (xs.map g) := by
  induction xs with
  | nil => rfl
  | cons x xs ih =>
    rw [List.mapM_cons, h x List.mem_cons_self, ih fun y hy => h y (List.mem_cons_of_mem _ hy)]
    rfl

namespace Extents

variable {e : Extents}

theorem index_lt {o k i : Nat} (ho : o < e.outer) (hk : k < e.length) (hi : i < e.inner) :
    e.index o k i < e.size := by
  have hrow : o * e.length + k < e.outer * e.length :=
    calc o * e.length + k < o * e.length + e.length := by omega
      _ = (o + 1) * e.length := (Nat.succ_mul _ _).symm
      _ ≤ e.outer * e.length := Nat.mul_le_mul_right _ ho
  calc (o * e.length + k) * e.inner + i < (o * e.length + k) * e.inner + e.inner := by omega
    _ = (o * e.length + k + 1) * e.inner := (Nat.succ_mul _ _).symm
    _ ≤ e.outer * e.length * e.inner := Nat.mul_le_mul_right _ hrow

theorem laneOf_lt {p : Nat} (hp : p < e.size) : e.laneOf p < e.outer * e.inner := by
  have hpos : 0 < e.inner := Nat.pos_of_ne_zero fun h => by simp [size, h] at hp
  have hblock : p / (e.length * e.inner) < e.outer := by
    refine Nat.div_lt_of_lt_mul ?_
    rw [Nat.mul_comm, ← Nat.mul_assoc]
    exact hp
  have hplace : p % e.inner < e.inner := Nat.mod_lt _ hpos
  calc e.laneOf p < p / (e.length * e.inner) * e.inner + e.inner := Nat.add_lt_add_left hplace _
    _ = (p / (e.length * e.inner) + 1) * e.inner := (Nat.succ_mul _ _).symm
    _ ≤ e.outer * e.inner := Nat.mul_le_mul_right _ hblock

theorem placeOf_lt {p : Nat} (hp : p < e.size) : e.placeOf p < e.length :=
  Nat.mod_lt _ (Nat.pos_of_ne_zero fun h => by simp [size, h] at hp)

end Extents

namespace Operator

variable {op : Operator} {params : Params}

theorem size_reducedShape (s : Shape) (axis : Option Nat) (haxis : ∀ a ∈ axis, a < s.dims.length)
    (keepDims : Bool) : (reducedShape s axis keepDims).size = match axis with
      | some a => (Extents.around s.dims a).outer * (Extents.around s.dims a).inner
      | none => 1 := by
  have hkept : ∀ out : Shape,
      (if out.dims.isEmpty then (⟨[1]⟩ : Shape) else out).size = out.size := by
    rintro ⟨_ | ⟨n, dims⟩⟩ <;> rfl
  unfold reducedShape
  rw [hkept]
  cases axis with
  | none =>
    cases keepDims with
    | false => rfl
    | true => exact s.rank.rec rfl fun _ ih => (Nat.one_mul _).trans ih
  | some a =>
    cases keepDims with
    | false => exact Extents.product_eraseIdx
    | true => exact (Extents.product_set (haxis a rfl) 1).trans (by rw [Nat.mul_one])

theorem axis?_lt {s : Shape} {axis : Option Nat} (h : op.axis? params s = .ok axis) :
    ∀ a ∈ axis, a < s.dims.length := by
  unfold axis? at h
  split at h
  · rw [← Except.ok.inj h]
    nofun
  · obtain ⟨a, ha, rfl⟩ := map_eq_ok.1 h
    intro b hb
    exact Option.some.inj hb ▸ axisOf_lt ha

theorem targets_lt (s : Shape) (axis : Option Nat) (haxis : ∀ a ∈ axis, a < s.dims.length)
    (keepDims : Bool) :
    ∀ j ∈ Reduction.targets s.dims axis, j < (reducedShape s axis keepDims).size := by
  intro j hj
  rw [size_reducedShape s axis haxis]
  cases axis with
  | none =>
    rw [List.eq_of_mem_replicate hj]
    exact Nat.one_pos
  | some a =>
    obtain ⟨p, hp, rfl⟩ := List.mem_map.1 hj
    refine Extents.laneOf_lt ?_
    rw [Extents.size_around (haxis a rfl)]
    exact List.mem_range.1 hp

end Operator

namespace Exact

variable {α β γ : Type}

def zipWith (f : α → β → γ) (xs : List α) (ys : List β) : Option (List γ) :=
  if xs.length = ys.length then some (xs.zipWith f ys) else none

def slice (start count : Nat) (xs : Values) : Option Values :=
  if start + count ≤ xs.length then some ((xs.drop start).take count) else none

def lanes (e : Extents) (xs : Values) : Option (List Values) := do
  let blocks ← (List.range e.outer).mapM fun o => (List.range e.inner).mapM fun i =>
    (List.range e.length).mapM fun k => xs[e.index o k i]?
  return blocks.flatten

def assemble (e : Extents) (rows : List Values) : Option Values :=
  (List.range e.size).mapM fun p => do (← rows[e.laneOf p]?)[e.placeOf p]?

def concat (e : Extents) (parts : List Values) : Option Values := do
  let n := e.chunkSize (Nat.max parts.length 1)
  let blocks ← (List.range e.outer).mapM fun o => parts.mapM (slice (o * n) n)
  return (blocks.map List.flatten).flatten

def reduction (r : Reduction) (xs : Values) (dims : List Nat) (axis : Option Nat)
    (reduced g : Values) : Option Values := do
  let count := Reduction.divisor (match axis with
    | some a => dims.getD a 1
    | none => Extents.product dims)
  let shareOf (j : Nat) (x : Binary64) : Option Binary64 :=
    return r.share count x (← reduced[j]?) (← g[j]?)
  (← zipWith shareOf (Reduction.targets dims axis) xs).mapM id

def softmaxLane (temperature : Binary64) (ys gs : Values) : Option Values := do
  let dot := Binary.sum (← zipWith (· * ·) gs ys)
  zipWith (fun y g => y * (g - dot) / temperature) ys gs

def softmax (ys gs : Values) (dims : List Nat) (axis : Nat) (temperature : Binary64) :
    Option Values := do
  let e := Extents.around dims axis
  let rows ← zipWith (softmaxLane temperature) (← lanes e ys) (← lanes e gs)
  assemble e (← rows.mapM id)

def pairwiseGradient (l r g : Values) : Arithmetic → Option (List (Option Values))
  | .add => some [some g, some g]
  | .sub => some [some g, some (g.map Neg.neg)]
  | .mul => return [some (← zipWith (· * ·) g r), some (← zipWith (· * ·) g l)]
  | .div => return [some (← zipWith (· / ·) g r),
      some (← zipWith (fun g (ab : Binary64 × Binary64) => Operator.divisorGradient g ab.1 ab.2) g
        (← zipWith Prod.mk l r))]

def gradientFrom (op : Operator) (params : Params) (inputs outputs : List Operand) (g : Values) :
    Attempt (List (Option Values)) :=
  match op, inputs, outputs with
  | .pairwise a, [l, r], _ => ExceptT.lift (pairwiseGradient l.values r.values g a)
  | .reduce r, [x], [y] => do
    let axis ← Attempt.ofExcept (op.axis? params x.shape)
    return [some (← ExceptT.lift (reduction r x.values x.shape.dims axis y.values g))]
  | .softmax, [x], [y] => do
    let axis ← Attempt.ofExcept (op.axisOr params x.shape (-1))
    let temperature := Operator.temperature params
    return [some (← ExceptT.lift (softmax y.values g x.shape.dims axis temperature))]
  | .pairwise _, _, _ | .reduce _, _, _ | .softmax, _, _ => ExceptT.lift none
  | _, _, _ => Attempt.ofExcept (op.gradientFrom params inputs outputs g)

def splitGradient (params : Params) (x : Operand) (outputs : List Operand)
    (gs : List (Option Values)) : Attempt (List (Option Values)) := do
  let plan ← Attempt.ofExcept (Operator.splitPlan params x.shape)
  let parts ← ExceptT.lift (zipWith (fun g (o : Operand) =>
    g.getD (List.replicate o.values.length .zero)) gs outputs)
  return [some (← ExceptT.lift (concat (Extents.around x.shape.dims plan.axis) parts))]

def gradient (op : Operator) (params : Params) (inputs outputs : List Operand)
    (gs : List (Option Values)) : Attempt (List (Option Values)) :=
  match op, inputs with
  | .split, [x] => splitGradient params x outputs gs
  | .split, _ => ExceptT.lift none
  | _, _ =>
    match gs.head?.join with
    | none => Attempt.ofExcept (.ok (List.replicate inputs.length none))
    | some g => gradientFrom op params inputs outputs g

theorem zipWith_eq {xs : List α} {ys : List β} (h : xs.length = ys.length) (f : α → β → γ) :
    zipWith f xs ys = some (xs.zipWith f ys) := if_pos h

theorem mapM_zipWith {f : α → β → Option γ} {g : α → β → γ} (xs : List α) (ys : List β)
    (h : ∀ p ∈ xs.zip ys, f p.1 p.2 = some (g p.1 p.2)) :
    (xs.zipWith f ys).mapM id = some (xs.zipWith g ys) := by
  rw [← List.map_uncurry_zip_eq_zipWith, ← List.map_uncurry_zip_eq_zipWith, List.mapM_map]
  exact mapM_some h

variable {e : Extents} {xs ys gs : Values} {dims : List Nat}

theorem getElem?_eq_getD {xs : List α} {k : Nat} (h : k < xs.length) (a : α) :
    xs[k]? = some (xs.getD k a) := by
  rw [List.getD_eq_getElem _ _ h, List.getElem?_eq_getElem h]

theorem lanes_eq (h : xs.length = e.size) : lanes e xs = some (e.lanes xs) := by
  have hlane : ∀ o ∈ List.range e.outer, ((List.range e.inner).mapM fun i =>
      (List.range e.length).mapM fun k => xs[e.index o k i]?) =
        some ((List.range e.inner).map fun i => e.lane xs o i) := fun o ho =>
    mapM_some fun i hi => mapM_some fun k hk => getElem?_eq_getD
      (h ▸ Extents.index_lt (List.mem_range.1 ho) (List.mem_range.1 hk) (List.mem_range.1 hi)) _
  unfold lanes Extents.lanes
  rw [mapM_some hlane, List.flatMap_def]
  rfl

theorem length_of_mem_lanes {row : Values} (h : row ∈ e.lanes xs) : row.length = e.length := by
  obtain ⟨o, -, hrow⟩ := List.mem_flatMap.1 h
  obtain ⟨i, -, rfl⟩ := List.mem_map.1 hrow
  exact e.length_lane xs o i

theorem assemble_eq {rows : List Values} (hcount : rows.length = e.outer * e.inner)
    (hrows : ∀ row ∈ rows, row.length = e.length) : assemble e rows = some (e.assemble rows) := by
  refine mapM_some fun p hp => ?_
  have hp := List.mem_range.1 hp
  have hlane : e.laneOf p < rows.length := hcount ▸ Extents.laneOf_lt hp
  have hplace : e.placeOf p < (rows.getD (e.laneOf p) []).length := by
    rw [List.getD_eq_getElem _ _ hlane, hrows _ (List.getElem_mem hlane)]
    exact Extents.placeOf_lt hp
  rw [getElem?_eq_getD hlane []]
  exact getElem?_eq_getD hplace _

theorem concat_eq {parts : List Values} (hpos : 0 < parts.length)
    (h : ∀ part ∈ parts, part.length = e.outer * (e.length / parts.length) * e.inner) :
    concat e parts = some (e.concat parts) := by
  let n := e.length / parts.length * e.inner
  have hn : e.chunkSize (Nat.max parts.length 1) = n := by
    rw [show Nat.max parts.length 1 = parts.length from Nat.max_eq_left hpos]
    rfl
  have hslice : ∀ o ∈ List.range e.outer, parts.mapM (slice (o * n) n) =
      some (parts.map fun part => (part.drop (o * n)).take n) := by
    intro o ho
    refine mapM_some fun part hpart => if_pos ?_
    rw [h part hpart, ← Nat.succ_mul, Nat.mul_assoc]
    exact Nat.mul_le_mul_right _ (List.mem_range.1 ho)
  unfold concat Extents.concat
  simp only [hn, List.flatMap_def]
  rw [mapM_some hslice]
  simp only [Option.bind_eq_bind, Option.bind_some, List.map_map]
  rfl

theorem reduction_eq {axis : Option Nat} {reduced g : Values} (r : Reduction)
    (hx : xs.length = Extents.product dims)
    (hlt : ∀ j ∈ Reduction.targets dims axis, j < reduced.length ∧ j < g.length) :
    reduction r xs dims axis reduced g = some (r.gradient xs dims axis reduced g) := by
  unfold reduction Reduction.gradient
  simp only
  rw [zipWith_eq ((Operator.length_targets dims axis).trans hx.symm)]
  refine mapM_zipWith _ _ fun p hp => ?_
  obtain ⟨hreduced, hg⟩ := hlt p.1 (List.of_mem_zip hp).1
  rw [getElem?_eq_getD hreduced .zero, getElem?_eq_getD hg .zero]
  rfl

theorem softmaxLane_eq (h : ys.length = gs.length) (t : Binary64) :
    softmaxLane t ys gs = some (Softmax.gradientOfLane t ys gs) := by
  unfold softmaxLane
  rw [zipWith_eq h.symm]
  exact zipWith_eq h _

theorem softmax_eq {axis : Nat} (hy : ys.length = (Extents.around dims axis).size)
    (hg : gs.length = (Extents.around dims axis).size) (t : Binary64) :
    softmax ys gs dims axis t = some (Softmax.gradient ys gs dims axis t) := by
  let e := Extents.around dims axis
  have hcount : (e.lanes ys).length = (e.lanes gs).length := by
    rw [Extents.length_lanes, Extents.length_lanes]
  have hpair : ∀ p ∈ (e.lanes ys).zip (e.lanes gs),
      p.1.length = e.length ∧ p.2.length = e.length := fun p hp =>
    ⟨length_of_mem_lanes (List.of_mem_zip hp).1, length_of_mem_lanes (List.of_mem_zip hp).2⟩
  have hrows : ((e.lanes ys).zipWith (softmaxLane t) (e.lanes gs)).mapM id =
      some ((e.lanes ys).zipWith (Softmax.gradientOfLane t) (e.lanes gs)) :=
    mapM_zipWith _ _ fun p hp => softmaxLane_eq ((hpair p hp).1.trans (hpair p hp).2.symm) t
  unfold softmax Softmax.gradient
  simp only [lanes_eq hy, lanes_eq hg, Option.bind_eq_bind, Option.bind_some]
  rw [zipWith_eq hcount]
  simp only [Option.bind_some]
  rw [hrows]
  refine assemble_eq ?_ fun row hrow => ?_
  · rw [List.length_zipWith, ← hcount, Nat.min_self, Extents.length_lanes]
  · rw [← List.map_uncurry_zip_eq_zipWith] at hrow
    obtain ⟨p, hp, rfl⟩ := List.mem_map.1 hrow
    refine (List.length_zipWith ..).trans ?_
    rw [(hpair p hp).1, (hpair p hp).2, Nat.min_self]

theorem pairwiseGradient_eq {l r g : Values} (hl : g.length = l.length) (hr : g.length = r.length)
    (a : Arithmetic) :
    pairwiseGradient l r g a = some (Operator.pairwiseGradient l r g a) := by
  have hlr : l.length = r.length := hl.symm.trans hr
  have hzip : g.length = (l.zipWith Prod.mk r).length := by
    rw [List.length_zipWith, ← hlr, Nat.min_self, hl]
  cases a with
  | add | sub => rfl
  | mul =>
    unfold pairwiseGradient
    rw [zipWith_eq hr, zipWith_eq hl]
    rfl
  | div =>
    unfold pairwiseGradient
    rw [zipWith_eq hr, zipWith_eq hlr]
    simp only [Option.bind_eq_bind, Option.bind_some]
    rw [zipWith_eq hzip, zipWith_eq hr]
    rfl

open Operator

variable {op : Operator} {params : Params} {sigs out : List Signature} {sig : Signature}
variable {inputs outputs : List Operand}

theorem gradientFrom_eq {g : Values} {y : Operand} (hop : op ≠ split)
    (hinfer : op.infer sigs params = .ok [sig])
    (hshapes : inputs.map Operand.shape = sigs.map Signature.shape)
    (hin : ∀ x ∈ inputs, x.values.length = x.shape.size) (hy : y.values.length = sig.shape.size)
    (hg : g.length = sig.shape.size) :
    gradientFrom op params inputs [y] g = some (op.gradientFrom params inputs [y] g) := by
  unfold infer at hinfer
  split at hinfer
  case h_1 | h_2 => rfl
  case h_3 a l r =>
    obtain ⟨x, rest, rfl, hx, hrest⟩ := List.map_eq_cons_iff.1 hshapes
    obtain ⟨z, rfl, hz⟩ := List.map_eq_singleton_iff.1 hrest
    split at hinfer
    · exact absurd hinfer nofun
    · rename_i hshape
      split at hinfer
      · exact absurd hinfer nofun
      · obtain rfl := (List.cons.inj (Except.ok.inj hinfer)).1
        have hxlen : g.length = x.values.length := by rw [hg, hin x List.mem_cons_self, hx]
        have hzlen : g.length = z.values.length := by
          rw [hg, hin z (List.mem_cons_of_mem _ List.mem_cons_self), hz, not_not.1 hshape]
        have hpair := pairwiseGradient_eq hxlen hzlen a
        unfold gradientFrom
        simp only [hpair]
        rfl
  case h_10 => exact absurd rfl hop
  case h_13 => exact absurd hinfer nofun
  all_goals
    obtain ⟨x, rfl, hx⟩ := List.map_eq_singleton_iff.1 hshapes
    have hwhole : x.values.length = x.shape.size := hin x List.mem_cons_self
  case h_9 r s =>
    obtain ⟨axis, haxis, hout⟩ := bind_eq_ok.1 hinfer
    rw [← hx] at haxis hout
    have haxislt := axis?_lt haxis
    obtain rfl := (List.cons.inj (Except.ok.inj hout)).1
    refine Attempt.some_bind _ _ _ fun found hfound => ?_
    obtain rfl := Except.ok.inj (haxis.symm.trans hfound)
    have hlt := targets_lt x.shape axis haxislt ((params.bool? "keepdims").getD false)
    rw [reduction_eq r hwhole fun j hj => ⟨hy ▸ hlt j hj, hg ▸ hlt j hj⟩]
    rfl
  case h_11 s =>
    obtain ⟨axis, haxis, hout⟩ := bind_eq_ok.1 hinfer
    split at hout
    · exact absurd hout nofun
    · obtain rfl := (List.cons.inj (Except.ok.inj hout)).1
      rw [← hx] at haxis hy hg
      have hsize : x.shape.size = (Extents.around x.shape.dims axis).size :=
        (Extents.size_around (axisOf_lt haxis)).symm
      refine Attempt.some_bind _ _ _ fun found hfound => ?_
      obtain rfl := Except.ok.inj (haxis.symm.trans hfound)
      have hsoftmax := softmax_eq (hy.trans hsize) (hg.trans hsize) (temperature params)
      simp only [hsoftmax]
      rfl
  all_goals rfl

theorem splitGradient_eq {x : Operand} {plan : SplitPlan} {gs : List (Option Values)}
    (hplan : splitPlan params x.shape = .ok plan) (hcount : outputs.length = plan.parts)
    (hout : ∀ y ∈ outputs, y.values.length =
      (Extents.around x.shape.dims plan.axis).outer *
        ((Extents.around x.shape.dims plan.axis).length / plan.parts) *
        (Extents.around x.shape.dims plan.axis).inner)
    (hgs : List.Forall₂ (fun (g : Option Values) (y : Operand) =>
      ∀ v, g = some v → v.length = y.values.length) gs outputs) :
    splitGradient params x outputs gs = some (Operator.splitGradient params x outputs gs) := by
  have hfair := splitPlan_fair hplan
  refine Attempt.some_bind _ _ _ fun found hfound => ?_
  obtain rfl := Except.ok.inj (hplan.symm.trans hfound)
  obtain ⟨hlength, hparts⟩ := length_parts hgs
  have hcount := hlength.trans hcount
  have hconcat := concat_eq (e := Extents.around x.shape.dims plan.axis) (hcount ▸ hfair.parts)
    fun p hp => by
      obtain ⟨y, hy, hlength⟩ := hparts p hp
      rw [hcount]
      exact hlength.trans (hout y hy)
  rw [zipWith_eq hgs.length_eq]
  change (do return [some (← ExceptT.lift (concat _ _))] : Attempt _) = _
  rw [hconcat]
  rfl

theorem gradient_eq {gs : List (Option Values)} (hinfer : op.infer sigs params = .ok out)
    (hshapes : inputs.map Operand.shape = sigs.map Signature.shape)
    (hin : ∀ x ∈ inputs, x.values.length = x.shape.size)
    (hout : List.Forall₂ (fun (y : Operand) (sig : Signature) =>
      y.values.length = sig.shape.size) outputs out)
    (hgs : List.Forall₂ (fun (g : Option Values) (y : Operand) =>
      ∀ v, g = some v → v.length = y.values.length) gs outputs) :
    gradient op params inputs outputs gs = some (op.gradient params inputs outputs gs) := by
  -- Only `split` has several outputs; the other rules start from the gradient of the first.
  by_cases hop : op = split
  · subst hop
    obtain ⟨s, rfl⟩ := List.length_eq_one_iff.1 (infer_arity hinfer)
    obtain ⟨x, rfl, hx⟩ := List.map_eq_singleton_iff.1 hshapes
    obtain ⟨plan, hplan, hinfer⟩ := bind_eq_ok.1 hinfer
    obtain rfl := Except.ok.inj hinfer
    rw [← hx] at hplan hout
    obtain ⟨hcount, hsizes⟩ := length_of_split hplan hout
    exact splitGradient_eq hplan hcount hsizes hgs
  · obtain ⟨sig, rfl⟩ := List.length_eq_one_iff.1 (infer_length hinfer hop)
    obtain ⟨y, rfl⟩ := List.length_eq_one_iff.1 hout.length_eq
    have hy := (List.forall₂_cons.1 hout).1
    cases hg : gs.head?.join with
    | none =>
      rw [Operator.gradient_none hop hg]
      unfold gradient
      split
      · exact absurd rfl hop
      · exact absurd rfl hop
      · rw [hg]
        rfl
    | some g =>
      rw [Operator.gradient_eq hop hg]
      have hlength : g.length = sig.shape.size := by
        obtain ⟨o, rest, ho, -, rfl⟩ := List.forall₂_cons_right_iff.1 hgs
        have hsome : o = some g := hg
        rw [ho g hsome, hy]
      unfold gradient
      split
      · exact absurd rfl hop
      · exact absurd rfl hop
      · rw [hg]
        exact gradientFrom_eq hop hinfer hshapes hin hy hlength

end Exact
end ScopedTensor
