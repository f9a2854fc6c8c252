import ScopedTensor.Proofs.Kernels.Lanes

/-! Reductions and the way back. Each number of a reduced array is taken of the elements at some
positions, read from the first to the last, and these are the positions to which the gradient of the
number goes back. -/

namespace ScopedTensor

open Binary

namespace Extents

variable {e : Extents} {o i p : Nat}

def positions (e : Extents) (o i : Nat) : List Nat :=
  (List.range e.length).map fun k => e.index o k i

theorem length_positions (e : Extents) (o i : Nat) : (e.positions o i).length = e.length :=
  (List.length_map _).trans List.length_range

theorem lane_eq_map (e : Extents) (xs : Values) (o i : Nat) :
    e.lane xs o i = (e.positions o i).map fun p => xs.getD p .zero := by
  unfold positions
  rw [List.map_map]
  rfl

theorem mem_positions (ho : o < e.outer) (hi : i < e.inner) :
    p ∈ e.positions o i ↔ p < e.size ∧ e.laneOf p = o * e.inner + i := by
  constructor
  · intro hp
    obtain ⟨k, hk, rfl⟩ := List.mem_map.1 hp
    have hk := List.mem_range.1 hk
    exact ⟨index_lt ho hk hi, laneOf_index hk hi⟩
  · rintro ⟨hp, hlane⟩
    have hinner : p % e.inner = i := by
      have hmod := congrArg (· % e.inner) hlane
      unfold laneOf at hmod
      simpa [Nat.mul_add_mod', Nat.mod_eq_of_lt hi] using hmod
    have houter : p / (e.length * e.inner) = o := by
      unfold laneOf at hlane
      rw [hinner] at hlane
      exact Nat.eq_of_mul_eq_mul_right (Nat.zero_lt_of_lt hi) (Nat.add_right_cancel hlane)
    refine List.mem_map.2 ⟨e.placeOf p, List.mem_range.2 (placeOf_lt hp), ?_⟩
    rw [← houter, ← hinner]
    exact e.index_placeOf p

theorem positions_ascending (hi : i < e.inner) : (e.positions o i).Pairwise (· < ·) := by
  refine List.pairwise_map.2 (List.pairwise_lt_range.imp fun {k l} hkl => ?_)
  unfold index
  have hpos := Nat.zero_lt_of_lt hi
  exact Nat.add_lt_add_right (Nat.mul_lt_mul_of_pos_right (Nat.add_lt_add_left hkl _) hpos) _

theorem positions_eq_filter (ho : o < e.outer) (hi : i < e.inner) :
    e.positions o i = (List.range e.size).filter fun p => e.laneOf p == o * e.inner + i := by
  have hascending := positions_ascending (e := e) (o := o) hi
  refine List.Perm.eq_of_pairwise (fun p q _ _ hpq hqp => absurd hpq (Nat.lt_asymm hqp)) hascending
    (List.pairwise_lt_range.filter _) ((List.perm_ext_iff_of_nodup (hascending.imp Nat.ne_of_lt)
      (List.nodup_range.filter _)).2 fun p => ?_)
  rw [mem_positions ho hi, List.mem_filter, List.mem_range, beq_iff_eq]

end Extents

namespace Reduction

variable {dims : List Nat} {axis : Option Nat} {j p : Nat} {ps : List Nat}

def lanesOf (dims : List Nat) (axis : Option Nat) : Extents :=
  extents dims (Extents.product dims) axis

/-- The positions that are read for each number of the reduced array. -/
def sources (dims : List Nat) (axis : Option Nat) : List (List Nat) :=
  (lanesOf dims axis).starts.map fun s => (lanesOf dims axis).positions s.1 s.2

theorem size_lanesOf (haxis : ∀ a ∈ axis, a < dims.length) :
    (lanesOf dims axis).size = Extents.product dims := by
  cases axis with
  | none =>
    show 1 * Extents.product dims * 1 = Extents.product dims
    rw [Nat.one_mul, Nat.mul_one]
  | some a => exact Extents.size_around (haxis a rfl)

theorem length_lanesOf (dims : List Nat) (axis : Option Nat) :
    (lanesOf dims axis).length = match axis with
      | some a => dims.getD a 1
      | none => Extents.product dims := by
  cases axis <;> rfl

theorem targets_eq (dims : List Nat) (axis : Option Nat) :
    targets dims axis = (List.range (Extents.product dims)).map (lanesOf dims axis).laneOf := by
  cases axis with
  | some a => rfl
  | none =>
    have hlane : ∀ p ∈ List.range (Extents.product dims), (lanesOf dims none).laneOf p = 0 := by
      intro p hp
      show p / (Extents.product dims * 1) * 1 + p % 1 = 0
      rw [Nat.mul_one, Nat.mul_one, Nat.mod_one, Nat.div_eq_of_lt (List.mem_range.1 hp)]
    rw [List.map_congr_left hlane, List.map_const', List.length_range]
    rfl

theorem getElem?_targets (hp : p < Extents.product dims) :
    (targets dims axis)[p]? = some ((lanesOf dims axis).laneOf p) := by
  rw [targets_eq, List.getElem?_map, List.getElem?_range hp, Option.map_some]

theorem getElem?_sources (h : (sources dims axis)[j]? = some ps) :
    ∃ o < (lanesOf dims axis).outer, ∃ i < (lanesOf dims axis).inner,
      j = o * (lanesOf dims axis).inner + i ∧ ps = (lanesOf dims axis).positions o i := by
  unfold sources at h
  rw [Extents.starts_eq, List.getElem?_map, List.getElem?_map] at h
  obtain ⟨s, hs, rfl⟩ := Option.map_eq_some_iff.1 h
  obtain ⟨k, hk, rfl⟩ := Option.map_eq_some_iff.1 hs
  have hj : j < (lanesOf dims axis).outer * (lanesOf dims axis).inner := by
    rw [← List.length_range (n := _ * _)]
    exact (List.getElem?_eq_some_iff.1 hk).1
  obtain rfl := Option.some.inj ((List.getElem?_range hj).symm.trans hk)
  have hpos : 0 < (lanesOf dims axis).inner := Nat.pos_of_mul_pos_left (Nat.zero_lt_of_lt hj)
  exact ⟨_, Nat.div_lt_of_lt_mul (Nat.mul_comm _ _ ▸ hj), _, Nat.mod_lt _ hpos,
    (Nat.div_add_mod' _ _).symm, rfl⟩

theorem length_sources (haxis : ∀ a ∈ axis, a < dims.length) (keepDims : Bool) :
    (sources dims axis).length = (Operator.reducedShape ⟨dims⟩ axis keepDims).size := by
  rw [Operator.size_reducedShape ⟨dims⟩ axis haxis]
  unfold sources
  rw [List.length_map, Extents.length_starts]
  cases axis <;> rfl

theorem apply_eq (r : Reduction) {xs : Values} (hx : xs.length = Extents.product dims) :
    r.apply xs dims axis =
      (sources dims axis).map fun ps => r.ofLane (ps.map fun p => xs.getD p .zero) := by
  unfold apply Extents.foldLanes sources
  rw [hx, Extents.lanes_eq_map, List.map_map, List.map_map]
  exact List.map_congr_left fun s _ => congrArg r.ofLane (Extents.lane_eq_map ..)

theorem sources_eq_filter (haxis : ∀ a ∈ axis, a < dims.length)
    (h : (sources dims axis)[j]? = some ps) :
    ps = (List.range (Extents.product dims)).filter fun p => (targets dims axis)[p]? = some j := by
  obtain ⟨o, ho, i, hi, rfl, rfl⟩ := getElem?_sources h
  rw [Extents.positions_eq_filter ho hi, size_lanesOf haxis]
  refine List.filter_congr fun p hp => Bool.eq_iff_iff.2 ?_
  rw [beq_iff_eq, decide_eq_true_eq, getElem?_targets (List.mem_range.1 hp), Option.some_inj]

theorem exists_target (haxis : ∀ a ∈ axis, a < dims.length) (hp : p < Extents.product dims) :
    ∃ j < (sources dims axis).length, (targets dims axis)[p]? = some j ∧
      ∀ k ps, (sources dims axis)[k]? = some ps → (p ∈ ps ↔ k = j) := by
  have hlane := Extents.laneOf_lt ((size_lanesOf haxis).symm ▸ hp)
  refine ⟨_, ?_, getElem?_targets hp, fun k ps hps => ?_⟩
  · unfold sources
    rwa [List.length_map, Extents.length_starts]
  · rw [sources_eq_filter haxis hps, List.mem_filter, List.mem_range, getElem?_targets hp,
      decide_eq_true_eq, Option.some_inj]
    exact ⟨fun h => h.2.symm, fun h => ⟨hp, h.symm⟩⟩

/-- The gradient of a number goes to the elements that are read for it, as many as it divides by. -/
theorem getElem?_gradient (r : Reduction) {xs reduced g : Values}
    (haxis : ∀ a ∈ axis, a < dims.length) (hx : xs.length = Extents.product dims)
    (h : (sources dims axis)[j]? = some ps) (hp : p ∈ ps) :
    (r.gradient xs dims axis reduced g)[p]? = some (r.share (divisor ps.length) (xs.getD p .zero)
      (reduced.getD j .zero) (g.getD j .zero)) := by
  have hcount := length_lanesOf dims axis
  have hlane : ps.length = (lanesOf dims axis).length := by
    obtain ⟨o, -, i, -, -, rfl⟩ := getElem?_sources h
    exact Extents.length_positions _ o i
  rw [← hlane] at hcount
  rw [sources_eq_filter haxis h] at hp
  obtain ⟨hp, hj⟩ := List.mem_filter.1 hp
  have hp : p < xs.length := hx ▸ List.mem_range.1 hp
  unfold gradient
  rw [List.getElem?_zipWith, of_decide_eq_true hj, Exact.getElem?_eq_getD hp .zero]
  exact congrArg (fun n => some (r.share (divisor n) _ _ _)) hcount.symm

theorem length_gradient (r : Reduction) {xs reduced g : Values}
    (hx : xs.length = Extents.product dims) :
    (r.gradient xs dims axis reduced g).length = xs.length := by
  unfold gradient
  rw [List.length_zipWith, Operator.length_targets, hx, Nat.min_self]

end Reduction

open Reduction

/-- A reduction and its gradient go by the same lanes. Each element is read for one number, the one
that its target names; each number is taken of the elements whose target it is, from the first to
the last; and what they get of its gradient depends on the number, and is divided by the count that
a mean of them is divided by. There are as many numbers as the reduced shape has elements, whether
or not axes are kept. -/
theorem gradient_follows_lanes {dims : List Nat} {axis : Option Nat}
    (haxis : ∀ a ∈ axis, a < dims.length) :
    (targets dims axis).length = Extents.product dims ∧
    (∀ keepDims, (sources dims axis).length =
      (Operator.reducedShape ⟨dims⟩ axis keepDims).size) ∧
    (∀ p < Extents.product dims, ∃ j < (sources dims axis).length,
      (targets dims axis)[p]? = some j ∧
        ∀ k ps, (sources dims axis)[k]? = some ps → (p ∈ ps ↔ k = j)) ∧
    (∀ j ps, (sources dims axis)[j]? = some ps →
      ps = (List.range (Extents.product dims)).filter fun p => (targets dims axis)[p]? = some j) ∧
    ∀ xs : Values, xs.length = Extents.product dims →
      (∀ r : Reduction,
        (∀ keepDims, (r.apply xs dims axis).length =
          (Operator.reducedShape ⟨dims⟩ axis keepDims).size) ∧
        r.apply xs dims axis =
          (sources dims axis).map fun ps => r.ofLane (ps.map fun p => xs.getD p .zero)) ∧
      ∀ reduced g : Values,
        (∀ r : Reduction, (r.gradient xs dims axis reduced g).length = xs.length ∧
          ∀ j ps, (sources dims axis)[j]? = some ps → ∀ p ∈ ps,
            (r.gradient xs dims axis reduced g)[p]? = some (r.share (divisor ps.length)
              (xs.getD p .zero) (reduced.getD j .zero) (g.getD j .zero))) ∧
        ∀ j ps, (sources dims axis)[j]? = some ps →
          (mean.apply xs dims axis)[j]? =
            some (Binary.sum (ps.map fun p => xs.getD p .zero) / divisor ps.length) ∧
          ∀ p ∈ ps, (mean.gradient xs dims axis reduced g)[p]? =
            some (g.getD j .zero / divisor ps.length) := by
  have hlength := length_sources haxis
  refine ⟨Operator.length_targets dims axis, hlength, fun p hp => exists_target haxis hp,
    fun j ps h => sources_eq_filter haxis h, fun xs hx => ⟨fun r => ?_, fun reduced g => ⟨?_, ?_⟩⟩⟩
  · refine ⟨fun keepDims => ?_, apply_eq r hx⟩
    rw [apply_eq r hx, List.length_map, hlength]
  · exact fun r => ⟨length_gradient r hx, fun j ps h p hp => getElem?_gradient r haxis hx h hp⟩
  · refine fun j ps h => ⟨?_, fun p hp => getElem?_gradient mean haxis hx h hp⟩
    have hcount : (ps.map fun p => xs.getD p .zero).length = ps.length := List.length_map _
    rw [apply_eq mean hx, List.getElem?_map, h, Option.map_some, ← hcount]
    rfl

/-- The columns of a matrix, and the one number that nothing is summed up to. -/
theorem gradient_follows_lanes_columns :
    (∀ a ∈ some 0, a < [2, 3].length) ∧ sources [2, 3] (some 0) = [[0, 3], [1, 4], [2, 5]] ∧
      targets [2, 3] (some 0) = [0, 1, 2, 0, 1, 2] ∧
      [1, 4] = (List.range 6).filter (fun p => (targets [2, 3] (some 0))[p]? = some 1) ∧
      sources [0, 2] none = [[]] ∧ (targets [0, 2] none).length = 0 := by
  have haxis : ∀ a ∈ some 0, a < [2, 3].length := by
    intro a ha
    obtain rfl := Option.some.inj ha
    decide
  obtain ⟨-, -, -, hsources, -⟩ := gradient_follows_lanes haxis
  obtain ⟨hnone, -⟩ := @gradient_follows_lanes [0, 2] none nofun
  exact ⟨haxis, by decide, by decide, hsources 1 _ (by decide), by decide, hnone⟩

end ScopedTensor
