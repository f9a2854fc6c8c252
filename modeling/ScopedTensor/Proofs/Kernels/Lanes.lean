import ScopedTensor.Proofs.Passes.Exact

/-! Lanes and the elements on them. Every element of an array lies on one lane, at one place along it,
so arrays with the same lanes are the same, and what is put together of rows has these as its
lanes. -/

namespace ScopedTensor

open Binary

namespace Extents

variable {e : Extents} {o k i p : Nat}

theorem offset_lt (hk : k < e.length) (hi : i < e.inner) :
    k * e.inner + i < e.length * e.inner :=
  calc k * e.inner + i < k * e.inner + e.inner := Nat.add_lt_add_left hi _
    _ = (k + 1) * e.inner := (Nat.add_one_mul _ _).symm
    _ ≤ e.length * e.inner := Nat.mul_le_mul_right _ hk

theorem block_index (hk : k < e.length) (hi : i < e.inner) :
    e.index o k i / (e.length * e.inner) = o := by
  have hoffset := offset_lt hk hi
  have hindex : e.index o k i = e.length * e.inner * o + (k * e.inner + i) := by
    unfold index
    rw [Nat.add_mul, Nat.add_assoc, Nat.mul_assoc, Nat.mul_comm o]
  rw [hindex, Nat.mul_add_div (Nat.zero_lt_of_lt hoffset), Nat.div_eq_of_lt hoffset, Nat.add_zero]

theorem inner_index (hi : i < e.inner) : e.index o k i % e.inner = i := by
  unfold index
  rw [Nat.mul_add_mod', Nat.mod_eq_of_lt hi]

theorem laneOf_index (hk : k < e.length) (hi : i < e.inner) :
    e.laneOf (e.index o k i) = o * e.inner + i := by
  unfold laneOf
  rw [block_index hk hi, inner_index hi]

theorem placeOf_index (hk : k < e.length) (hi : i < e.inner) :
    e.placeOf (e.index o k i) = k := by
  unfold placeOf index
  rw [Nat.mul_comm _ e.inner, Nat.mul_add_div (Nat.zero_lt_of_lt hi), Nat.div_eq_of_lt hi,
    Nat.add_zero, Nat.mul_add_mod', Nat.mod_eq_of_lt hk]

theorem index_placeOf (e : Extents) (p : Nat) :
    e.index (p / (e.length * e.inner)) (e.placeOf p) (p % e.inner) = p := by
  unfold index placeOf
  rw [Nat.mul_comm e.length, ← Nat.div_div_eq_div_mul, Nat.div_add_mod', Nat.div_add_mod']

theorem inner_pos (hp : p < e.size) : 0 < e.inner :=
  Nat.pos_of_ne_zero fun h => by simp [size, h] at hp

theorem block_lt (hp : p < e.size) : p / (e.length * e.inner) < e.outer := by
  refine Nat.div_lt_of_lt_mul ?_
  rw [Nat.mul_comm, ← Nat.mul_assoc]
  exact hp

theorem mod_lt (hp : p < e.size) : p % e.inner < e.inner := Nat.mod_lt _ (inner_pos hp)

theorem flatMap_range {α : Type} (f : Nat → Nat → α) (a b : Nat) :
    ((List.range a).flatMap fun o => (List.range b).map (f o)) =
      (List.range (a * b)).map fun j => f (j / b) (j % b) := by
  induction a with
  | zero => rw [Nat.zero_mul]; rfl
  | succ a ih =>
    rw [List.range_succ, List.flatMap_append, ih, Nat.add_one_mul, List.range_add, List.map_append,
      List.flatMap_singleton, List.map_map]
    refine congrArg _ (List.map_congr_left fun j hj => ?_)
    have hj := List.mem_range.1 hj
    have hpos := Nat.zero_lt_of_lt hj
    simp only [Function.comp_apply]
    rw [Nat.mul_comm a, Nat.mul_add_div hpos, Nat.div_eq_of_lt hj, Nat.mul_add_mod,
      Nat.mod_eq_of_lt hj, Nat.add_zero]

def starts (e : Extents) : List (Nat × Nat) :=
  (List.range e.outer).flatMap fun o => (List.range e.inner).map fun i => (o, i)

theorem starts_eq (e : Extents) :
    e.starts = (List.range (e.outer * e.inner)).map fun j => (j / e.inner, j % e.inner) :=
  flatMap_range Prod.mk _ _

theorem length_starts (e : Extents) : e.starts.length = e.outer * e.inner := by
  rw [starts_eq, List.length_map, List.length_range]

theorem mem_starts {s : Nat × Nat} : s ∈ e.starts ↔ s.1 < e.outer ∧ s.2 < e.inner := by
  unfold starts
  simp only [List.mem_flatMap, List.mem_map, List.mem_range]
  constructor
  · rintro ⟨o, ho, i, hi, rfl⟩
    exact ⟨ho, hi⟩
  · rintro ⟨ho, hi⟩
    exact ⟨s.1, ho, s.2, hi, rfl⟩

theorem getElem?_starts (ho : o < e.outer) (hi : i < e.inner) :
    e.starts[o * e.inner + i]? = some (o, i) := by
  have hlt : o * e.inner + i < e.outer * e.inner := by
    have hle : (o + 1) * e.inner ≤ e.outer * e.inner := Nat.mul_le_mul_right _ ho
    rw [Nat.add_one_mul] at hle
    omega
  rw [starts_eq, List.getElem?_map, List.getElem?_range hlt, Option.map_some, Nat.mul_comm o,
    Nat.mul_add_div (Nat.zero_lt_of_lt hi), Nat.div_eq_of_lt hi, Nat.mul_add_mod,
    Nat.mod_eq_of_lt hi, Nat.add_zero]

theorem lanes_eq_map (e : Extents) (xs : Values) :
    e.lanes xs = e.starts.map fun s => e.lane xs s.1 s.2 := by
  unfold lanes starts
  rw [List.map_flatMap]
  exact List.flatMap_congr fun o _ => by rw [List.map_map]; rfl

variable {xs ys : Values} {rows : List Values}

theorem getElem?_lane (xs : Values) (hk : k < e.length) :
    (e.lane xs o i)[k]? = some (xs.getD (e.index o k i) .zero) := by
  unfold lane
  rw [List.getElem?_map, List.getElem?_range hk, Option.map_some]

theorem getElem?_of_lane (hx : xs.length = e.size) (hp : p < e.size) :
    xs[p]? = (e.lane xs (p / (e.length * e.inner)) (p % e.inner))[e.placeOf p]? := by
  rw [getElem?_lane xs (placeOf_lt hp), index_placeOf]
  exact Exact.getElem?_eq_getD (hx ▸ hp) .zero

theorem ext_lanes (hx : xs.length = e.size) (hy : ys.length = e.size)
    (h : ∀ o < e.outer, ∀ i < e.inner, e.lane xs o i = e.lane ys o i) : xs = ys := by
  refine List.ext_getElem? fun p => ?_
  by_cases hp : p < e.size
  · rw [getElem?_of_lane hx hp, getElem?_of_lane hy hp, h _ (block_lt hp) _ (mod_lt hp)]
  · rw [List.getElem?_eq_none (by omega), List.getElem?_eq_none (by omega)]

theorem lane_congr (h : ∀ k < e.length, xs[e.index o k i]? = ys[e.index o k i]?) :
    e.lane xs o i = e.lane ys o i := by
  refine List.map_congr_left fun k hk => ?_
  rw [List.getD_eq_getElem?_getD, List.getD_eq_getElem?_getD, h k (List.mem_range.1 hk)]

theorem getD_assemble (rows : List Values) (hp : p < e.size) :
    (e.assemble rows).getD p .zero = (rows.getD (e.laneOf p) []).getD (e.placeOf p) .zero := by
  unfold assemble
  rw [List.getD_eq_getElem?_getD, List.getElem?_map, List.getElem?_range hp, Option.map_some,
    Option.getD_some]

theorem lane_assemble (ho : o < e.outer) (hi : i < e.inner) {row : Values}
    (hrow : rows[o * e.inner + i]? = some row) (hlength : row.length = e.length) :
    e.lane (e.assemble rows) o i = row := by
  have hfound : rows.getD (o * e.inner + i) [] = row := by
    rw [List.getD_eq_getElem?_getD, hrow, Option.getD_some]
  refine List.ext_getElem? fun k => ?_
  by_cases hk : k < e.length
  · rw [getElem?_lane _ hk, getD_assemble _ (index_lt ho hk hi), laneOf_index hk hi,
      placeOf_index hk hi, hfound]
    exact (Exact.getElem?_eq_getD (hlength ▸ hk) .zero).symm
  · rw [List.getElem?_eq_none (by rw [length_lane]; omega), List.getElem?_eq_none (by omega)]

theorem mapLanes?_some (f : Values → Values) (xs : Values) :
    e.mapLanes? (fun row => some (f row)) xs = some (e.mapLanes f xs) := by
  unfold mapLanes? mapLanes
  rw [mapM_some fun row _ => rfl]
  rfl

theorem lane_whole {n : Nat} (h : xs.length = n) : (whole n).lane xs 0 0 = xs := by
  refine List.ext_getElem? fun k => ?_
  by_cases hk : k < n
  · have hindex : (whole n).index 0 k 0 = k := by simp [index, whole]
    rw [getElem?_lane xs (e := whole n) hk, hindex]
    exact (Exact.getElem?_eq_getD (h ▸ hk) .zero).symm
  · have hlength : ((whole n).lane xs 0 0).length = n := length_lane _ _ _ _
    rw [List.getElem?_eq_none (by omega), List.getElem?_eq_none (by omega)]

theorem lanes_whole {n : Nat} (h : xs.length = n) : (whole n).lanes xs = [xs] :=
  congrArg (fun l => [l]) (lane_whole h)

theorem assemble_whole {n : Nat} (h : xs.length = n) : (whole n).assemble [xs] = xs := by
  have hsize : (whole n).size = n := by simp [size, whole]
  refine ext_lanes (e := whole n) (length_assemble _ _) (h.trans hsize.symm) fun o ho i hi => ?_
  have ho : o < 1 := ho
  have hi : i < 1 := hi
  obtain rfl : o = 0 := by omega
  obtain rfl : i = 0 := by omega
  rw [lane_whole h]
  exact lane_assemble (e := whole n) Nat.one_pos Nat.one_pos rfl h

end Extents
end ScopedTensor
