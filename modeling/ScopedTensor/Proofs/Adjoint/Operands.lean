import Mathlib.Data.List.Forall2
import ScopedTensor.Proofs.Adjoint.Contributions

/-! What gradients are made of. Of most operators only the shapes and sizes of the operands matter;
products and quotients look at the inputs, a softmax at its output, an extremum at both. -/

namespace ScopedTensor

open Binary

namespace Operator

def looksAtInputs : Operator → Bool
  | pairwise .mul | pairwise .div | reduce .max | reduce .min => true
  | _ => false

def looksAtOutputs : Operator → Bool
  | reduce .max | reduce .min | softmax => true
  | _ => false

end Operator

/-- Operands of one shape and size, and with the same numbers in them if one looks at these. -/
structure Operand.Alike (looks : Bool) (a b : Operand) : Prop where
  shape : a.shape = b.shape
  length : a.values.length = b.values.length
  values : looks = true → a.values = b.values

theorem Operand.Alike.eq {a b : Operand} (h : Operand.Alike true a b) : a = b := by
  obtain ⟨va, sa⟩ := a
  obtain ⟨vb, sb⟩ := b
  rw [Operand.mk.injEq]
  exact ⟨h.values rfl, h.shape⟩

theorem Reduction.gradient_congr {r : Reduction} (hr : r = .sum ∨ r = .mean) {xs ys : Values}
    (h : xs.length = ys.length) (dims : List Nat) (axis : Option Nat) (reduced reduced' g : Values) :
    r.gradient xs dims axis reduced g = r.gradient ys dims axis reduced' g := by
  unfold gradient
  refine List.ext_getElem (by simp [h]) fun k hk hk' => ?_
  rw [List.getElem_zipWith, List.getElem_zipWith]
  rcases hr with rfl | rfl <;> rfl

namespace Operator

variable {op : Operator} {params : Params} {ins ins' outs outs' : List Operand}

theorem gradientFrom_congr (hin : List.Forall₂ (Operand.Alike op.looksAtInputs) ins ins')
    (hout : List.Forall₂ (Operand.Alike op.looksAtOutputs) outs outs') (g : Values) :
    op.gradientFrom params ins outs g = op.gradientFrom params ins' outs' g := by
  cases op with
  | copyTo | zerosLike | onesLike | negative | argsort | split => rfl
  | zeros | ones => rfl
  | scalar a => cases a <;> rfl
  | pairwise a =>
    match ins, ins', hin with
    | [], [], _ => rfl
    | [_], [_], _ => rfl
    | [l, r], [l', r'], .cons hl (.cons hr .nil) =>
      cases a with
      | add | sub => rfl
      | mul | div =>
        rw [hl.eq, hr.eq]
        rfl
    | _ :: _ :: _ :: _, _ :: _ :: _ :: _, _ => rfl
  | reduce r =>
    match ins, ins', outs, outs', hin, hout with
    | [], [], _, _, _, _ => rfl
    | _ :: _ :: _, _ :: _ :: _, _, _, _, _ => rfl
    | [_], [_], [], [], _, _ => rfl
    | [_], [_], _ :: _ :: _, _ :: _ :: _, _, _ => rfl
    | [x], [x'], [y], [y'], .cons hx .nil, .cons hy .nil =>
      cases r with
      | max | min => rw [hx.eq, hy.eq]
      | sum =>
        have hgradient := Reduction.gradient_congr (.inl rfl) hx.length x'.shape.dims
        unfold gradientFrom
        simp only [hx.shape, hgradient _ y.values y'.values]
      | mean =>
        have hgradient := Reduction.gradient_congr (.inr rfl) hx.length x'.shape.dims
        unfold gradientFrom
        simp only [hx.shape, hgradient _ y.values y'.values]
  | softmax =>
    match ins, ins', outs, outs', hin, hout with
    | [], [], _, _, _, _ => rfl
    | _ :: _ :: _, _ :: _ :: _, _, _, _, _ => rfl
    | [_], [_], [], [], _, _ => rfl
    | [_], [_], _ :: _ :: _, _ :: _ :: _, _, _ => rfl
    | [x], [x'], [y], [y'], .cons hx .nil, .cons hy .nil =>
      unfold gradientFrom
      simp only [hx.shape, hy.eq]

theorem splitGradient_congr {x x' : Operand} (hx : x.shape = x'.shape)
    (hout : List.Forall₂ (Operand.Alike split.looksAtOutputs) outs outs') :
    ∀ gs, splitGradient params x outs gs = splitGradient params x' outs' gs := by
  intro gs
  have hparts : ∀ gs : List (Option Values),
      gs.zipWith (fun g (o : Operand) => g.getD (List.replicate o.values.length .zero)) outs =
        gs.zipWith (fun g (o : Operand) => g.getD (List.replicate o.values.length .zero)) outs' := by
    induction hout with
    | nil => exact fun _ => rfl
    | cons ho _ ih =>
      intro gs
      cases gs with
      | nil => rfl
      | cons g gs => rw [List.zipWith_cons_cons, List.zipWith_cons_cons, ho.length, ih]
  unfold splitGradient
  rw [hx, hparts]

theorem gradient_none {gs : List (Option Values)} (hop : op ≠ split) (hg : gs.head?.join = none) :
    op.gradient params ins outs gs = .ok (List.replicate ins.length none) := by
  unfold gradient
  split
  · exact absurd rfl hop
  · rw [hg]

theorem gradient_congr (hin : List.Forall₂ (Operand.Alike op.looksAtInputs) ins ins')
    (hout : List.Forall₂ (Operand.Alike op.looksAtOutputs) outs outs') (gs : List (Option Values)) :
    op.gradient params ins outs gs = op.gradient params ins' outs' gs := by
  by_cases hop : op = split
  · subst hop
    cases hin with
    | nil => rfl
    | cons hx hrest =>
      cases hrest with
      | nil => exact splitGradient_congr hx.shape hout gs
      | cons _ hrest =>
        unfold gradient
        simp only [List.length_cons, hrest.length_eq]
        split <;> rfl
  · cases hg : gs.head?.join with
    | none => rw [gradient_none hop hg, gradient_none hop hg, hin.length_eq]
    | some g =>
      rw [gradient_eq hop hg, gradient_eq hop hg]
      exact gradientFrom_congr hin hout g

end Operator
end ScopedTensor
