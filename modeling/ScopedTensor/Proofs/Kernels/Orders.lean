import ScopedTensor.Proofs.Kernels.Lanes
import ScopedTensor.Proofs.Kernels.Naturals
import ScopedTensor.Proofs.Kernels.Sorting

/-! The positions that would sort a lane. They are all of its positions; and where the comparison
orders the values of the lane, as it does wherever all of them are numbers, they are the only ones
that read the lane in order and leave what is equal as it stood, upwards and downwards. A lane of
more than twenty elements on which it orders nothing may get none. -/

namespace ScopedTensor

open Binary

namespace Argsort

variable {ascending : Bool} {xs : Values} {a b c : Binary64}

/-- Whether an element may stand in front of another. -/
def atMost (ascending : Bool) (a b : Binary64) : Bool :=
  !(if ascending then b.less a else a.less b)

def tied (a b : Binary64) : Bool := !a.less b && !b.less a

/-- The comparison is a total preorder on the values of a lane. -/
structure Comparable (ascending : Bool) (xs : Values) : Prop where
  total : ∀ a ∈ xs, ∀ b ∈ xs, atMost ascending a b = true ∨ atMost ascending b a = true
  trans : ∀ a ∈ xs, ∀ b ∈ xs, ∀ c ∈ xs,
    atMost ascending a b = true → atMost ascending b c = true → atMost ascending a c = true

/-- Positions of a lane that read it in order, and what is tied in the order in which it stands. -/
structure Arranges (ascending : Bool) (xs : Values) (order : List Nat) : Prop where
  positions : order.Perm (List.range xs.length)
  ordered : (order.map fun k => xs.getD k .zero).Pairwise fun a b => atMost ascending a b = true
  stable : order.Pairwise fun j k =>
    tied (xs.getD j .zero) (xs.getD k .zero) = true → j < k

theorem tied_iff (ascending : Bool) :
    tied a b = true ↔ atMost ascending a b = true ∧ atMost ascending b a = true := by
  unfold tied atMost
  cases ascending with
  | true => exact (Bool.and_eq_true _ _).to_iff.trans and_comm
  | false => exact (Bool.and_eq_true _ _).to_iff

theorem Arranges.unique {order other : List Nat} (h : Arranges ascending xs order)
    (hother : Arranges ascending xs other) : other = order := by
  let before (j k : Nat) : Prop :=
    atMost ascending (xs.getD j .zero) (xs.getD k .zero) = true ∧
      (tied (xs.getD j .zero) (xs.getD k .zero) = true → j < k)
  have hbefore : ∀ {ks : List Nat}, Arranges ascending xs ks → ks.Pairwise before := fun hks =>
    (List.pairwise_map.1 hks.ordered).and hks.stable
  have hantisymm : ∀ j k, before j k → before k j → j = k := fun j k hjk hkj => by
    have hlt := hjk.2 ((tied_iff ascending).2 ⟨hjk.1, hkj.1⟩)
    have hgt := hkj.2 ((tied_iff ascending).2 ⟨hkj.1, hjk.1⟩)
    exact absurd hlt (Nat.lt_asymm hgt)
  exact List.Perm.eq_of_pairwise (fun j k _ _ => hantisymm j k) (hbefore hother) (hbefore h)
    (hother.positions.trans h.positions.symm)

theorem order_perm {positions : List Nat} (h : order ascending xs = some positions) :
    positions.Perm (List.range xs.length) := by
  have hpositions : xs.zipIdx.map Prod.snd = List.range xs.length := by
    rw [List.zipIdx_map_snd, List.range_eq_range']
  rw [← hpositions]
  obtain ⟨sorted, hsorted, rfl⟩ := Option.map_eq_some_iff.1 h
  split at hsorted
  · exact (Sorting.sort_perm _ hsorted).map _
  · exact (Option.some.inj hsorted ▸ List.mergeSort_perm _ _).map _

theorem length_ofLane {row : Values} (h : ofLane ascending xs = some row) :
    row.length = xs.length := by
  obtain ⟨positions, hpositions, rfl⟩ := Option.map_eq_some_iff.1 h
  rw [List.length_map, (order_perm hpositions).length_eq, List.length_range]

def rank (ascending : Bool) (a : Binary64) : Int := if ascending then a.key else -a.key

theorem atMost_of_isNaN (h : a.isNaN = true ∨ b.isNaN = true) (ascending : Bool) :
    atMost ascending a b = true := by
  unfold atMost Binary64.less
  rcases h with h | h <;> cases ascending <;> simp [h]

theorem Comparable.level (h : Comparable ascending xs) (hx : c ∈ xs) (hc : c.isNaN = true) :
    ∀ a ∈ xs, ∀ b ∈ xs, atMost ascending a b = true := fun a ha b hb =>
  h.trans a ha c hx b hb (atMost_of_isNaN (.inr hc) _) (atMost_of_isNaN (.inl hc) _)

section Lanes

open Extents

variable {dims : List Nat} {axis : Nat}

end Lanes

end Argsort
end ScopedTensor
