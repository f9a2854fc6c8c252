import Mathlib.Data.Set.Function
import ScopedTensor.Proofs.Kernels.Orders

/-! Kernels along an axis work lane by lane. Each is what comes of cutting its arrays into lanes,
applying to each lane the same kernel in one dimension, and writing the rows to where the lanes
stood; every place is written once, and no lane bears on another. -/

namespace ScopedTensor

open Binary

namespace Extents

variable {e : Extents} {rows : List Values}

def withLength (e : Extents) (n : Nat) : Extents := ⟨e.outer, n, e.inner⟩

/-- The lanes with the places on them: outer position, place on the lane, inner position. -/
def places (e : Extents) : Set (Nat × Nat × Nat) :=
  {s | s.1 < e.outer ∧ s.2.1 < e.length ∧ s.2.2 < e.inner}

/-- The places that are written when rows are put back lane after lane, with what is written. -/
def writes (e : Extents) (rows : List Values) : List (Nat × Binary64) :=
  (e.starts.zip rows).flatMap fun (s, row) =>
    row.zipIdx.map fun (x, k) => (e.index s.1 k s.2, x)

def putBack (e : Extents) (rows : List Values) : Values :=
  (e.writes rows).foldl (fun xs w => xs.set w.1 w.2) (List.replicate e.size .zero)

/-- A row for each lane, as long as the lane. -/
structure Fitted (e : Extents) (rows : List Values) : Prop where
  count : rows.length = e.outer * e.inner
  lengths : ∀ row ∈ rows, row.length = e.length

theorem index_bijOn (e : Extents) :
    Set.BijOn (fun s : Nat × Nat × Nat => e.index s.1 s.2.1 s.2.2) e.places {p | p < e.size} := by
  refine ⟨fun s hs => index_lt hs.1 hs.2.1 hs.2.2, fun s hs t ht hst => ?_, fun p hp => ?_⟩
  · have hst : e.index s.1 s.2.1 s.2.2 = e.index t.1 t.2.1 t.2.2 := hst
    have houter : s.1 = t.1 := by
      rw [← block_index (o := s.1) hs.2.1 hs.2.2, hst, block_index ht.2.1 ht.2.2]
    have hplace : s.2.1 = t.2.1 := by
      rw [← placeOf_index (o := s.1) hs.2.1 hs.2.2, hst, placeOf_index ht.2.1 ht.2.2]
    have hinner : s.2.2 = t.2.2 := by
      rw [← inner_index (o := s.1) (k := s.2.1) hs.2.2, hst, inner_index ht.2.2]
    exact Prod.ext houter (Prod.ext hplace hinner)
  · exact ⟨(p / (e.length * e.inner), e.placeOf p, p % e.inner),
      ⟨block_lt hp, placeOf_lt hp, mod_lt hp⟩, e.index_placeOf p⟩

theorem map_fst_writes (h : e.Fitted rows) :
    (e.writes rows).map Prod.fst =
      e.starts.flatMap fun s => (List.range e.length).map fun k => e.index s.1 k s.2 := by
  have hrow : ∀ p ∈ e.starts.zip rows,
      (p.2.zipIdx.map fun q => (e.index p.1.1 q.2 p.1.2, q.1)).map Prod.fst =
        (List.range e.length).map fun k => e.index p.1.1 k p.1.2 := by
    intro p hp
    rw [← h.lengths p.2 (List.of_mem_zip hp).2, List.range_eq_range', ← List.zipIdx_map_snd 0 p.2,
      List.map_map, List.map_map]
    rfl
  have hcount : e.starts.length ≤ rows.length := Nat.le_of_eq (e.length_starts.trans h.count.symm)
  calc (e.writes rows).map Prod.fst
      = (e.starts.zip rows).flatMap fun p =>
          (List.range e.length).map fun k => e.index p.1.1 k p.1.2 := by
        unfold writes
        rw [List.map_flatMap]
        exact List.flatMap_congr hrow
    _ = ((e.starts.zip rows).map Prod.fst).flatMap fun s =>
          (List.range e.length).map fun k => e.index s.1 k s.2 := by rw [List.flatMap_map]
    _ = _ := by rw [List.map_fst_zip hcount]

theorem writes_perm (h : e.Fitted rows) :
    ((e.writes rows).map Prod.fst).Perm (List.range e.size) := by
  have hcount : ((e.writes rows).map Prod.fst).length = e.size := by
    rw [map_fst_writes h, List.length_flatMap]
    simp only [List.length_map, List.length_range, List.map_const', List.sum_replicate_nat,
      length_starts, size]
    rw [Nat.mul_right_comm]
  have hall : List.range e.size ⊆ (e.writes rows).map Prod.fst := by
    intro p hp
    have hp := List.mem_range.1 hp
    rw [map_fst_writes h]
    refine List.mem_flatMap.2 ⟨(p / (e.length * e.inner), p % e.inner),
      mem_starts.2 ⟨block_lt hp, mod_lt hp⟩, List.mem_map.2 ⟨e.placeOf p, ?_, e.index_placeOf p⟩⟩
    exact List.mem_range.2 (placeOf_lt hp)
  refine ((List.subperm_of_subset List.nodup_range hall).perm_of_length_le ?_).symm
  rw [hcount, List.length_range]

end Extents

section Writes

variable {ws : List (Nat × Binary64)} {xs : Values} {p : Nat} {x : Binary64}

theorem length_foldl_set (ws : List (Nat × Binary64)) (xs : Values) :
    (ws.foldl (fun xs w => xs.set w.1 w.2) xs).length = xs.length := by
  induction ws generalizing xs with
  | nil => rfl
  | cons w ws ih => exact (ih _).trans (List.length_set ..)

theorem getElem?_foldl_set_of_not_mem (h : p ∉ ws.map Prod.fst) :
    (ws.foldl (fun xs w => xs.set w.1 w.2) xs)[p]? = xs[p]? := by
  induction ws generalizing xs with
  | nil => rfl
  | cons w ws ih =>
    rw [List.map_cons, List.mem_cons, not_or] at h
    exact (ih h.2).trans (List.getElem?_set_ne (Ne.symm h.1))

theorem getElem?_foldl_set (h : (ws.map Prod.fst).Nodup) (hmem : (p, x) ∈ ws)
    (hp : p < xs.length) : (ws.foldl (fun xs w => xs.set w.1 w.2) xs)[p]? = some x := by
  induction ws generalizing xs with
  | nil => exact absurd hmem List.not_mem_nil
  | cons w ws ih =>
    obtain ⟨hnotMem, h⟩ := List.nodup_cons.1 h
    rcases List.mem_cons.1 hmem with rfl | hmem
    · exact (getElem?_foldl_set_of_not_mem hnotMem).trans (List.getElem?_set_self hp)
    · exact ih h hmem (by rw [List.length_set]; exact hp)

end Writes

namespace Extents

variable {e : Extents} {rows : List Values}

theorem putBack_eq_assemble (h : e.Fitted rows) : e.putBack rows = e.assemble rows := by
  refine List.ext_getElem? fun p => ?_
  by_cases hp : p < e.size
  · have hlane : e.laneOf p < rows.length := h.count ▸ laneOf_lt hp
    have hrow := Exact.getElem?_eq_getD hlane []
    have hlength := h.lengths _ (List.mem_of_getElem? hrow)
    have hstart : ((p / (e.length * e.inner), p % e.inner), rows.getD (e.laneOf p) []) ∈
        e.starts.zip rows :=
      List.mem_of_getElem? (List.getElem?_zip_eq_some.2
        ⟨getElem?_starts (block_lt hp) (mod_lt hp), hrow⟩)
    have hplace := Exact.getElem?_eq_getD (hlength ▸ placeOf_lt hp) Binary64.zero
    have hwrite : (p, (rows.getD (e.laneOf p) []).getD (e.placeOf p) .zero) ∈ e.writes rows := by
      refine List.mem_flatMap.2 ⟨_, hstart, List.mem_map.2
        ⟨(_, e.placeOf p), List.mem_zipIdx_iff_getElem?.2 hplace, ?_⟩⟩
      exact Prod.ext (e.index_placeOf p) rfl
    have hput : (e.putBack rows)[p]? = _ :=
      getElem?_foldl_set ((writes_perm h).nodup_iff.2 List.nodup_range) hwrite
        (by rw [List.length_replicate]; exact hp)
    have hassemble := Exact.getElem?_eq_getD ((e.length_assemble rows).symm ▸ hp) Binary64.zero
    rw [hput, hassemble, getD_assemble rows hp]
  · have hlength : (e.putBack rows).length = e.size :=
      (length_foldl_set _ _).trans List.length_replicate
    rw [List.getElem?_eq_none (by omega),
      List.getElem?_eq_none (by rw [length_assemble]; omega)]

end Extents

def Extents.Matches {a : Nat} (e : Extents) (v : Fin a → Values) : Prop :=
  ∀ j, (v j).length = e.size

/-- What a kernel makes of each lane, in the order of the lanes, if it makes something of all of
them. -/
def Extents.rows {a : Nat} (e : Extents) (single : (Fin a → Values) → Option Values)
    (v : Fin a → Values) : Option (List Values) :=
  e.starts.mapM fun s => single fun j => e.lane (v j) s.1 s.2

/-- A kernel applies another one to the lanes of its arrays and writes the rows, `n` elements each,
to where the lanes stood. It has no result where the other has none for some lane. -/
structure Lanewise {a : Nat} (e : Extents) (n : Nat)
    (kernel single : (Fin a → Values) → Option Values) : Prop where
  putsBack : ∀ v, e.Matches v → kernel v = (e.rows single v).map (e.withLength n).putBack
  once : ∀ v r, e.Matches v → kernel v = some r → ∃ rows, e.rows single v = some rows ∧
    (((e.withLength n).writes rows).map Prod.fst).Perm (List.range r.length)
  onLane : ∀ v r, e.Matches v → kernel v = some r → ∀ o < e.outer, ∀ i < e.inner,
    (single fun j => e.lane (v j) o i) = some ((e.withLength n).lane r o i)
  offLane : ∀ v w r u, e.Matches v → e.Matches w → kernel v = some r → kernel w = some u →
    ∀ lane, (∀ j p, e.laneOf p ≠ lane → (v j)[p]? = (w j)[p]?) →
      ∀ p, (e.withLength n).laneOf p ≠ lane → r[p]? = u[p]?

namespace Lanewise

variable {a n : Nat} {e : Extents} {kernel single : (Fin a → Values) → Option Values}

theorem fitted (h : ∀ (lanes : Fin a → Values) (row : Values), (∀ j, (lanes j).length = e.length) →
    single lanes = some row → row.length = n) {v : Fin a → Values} {rows : List Values}
    (hrows : e.rows single v = some rows) : (e.withLength n).Fitted rows := by
  have hall := mapM_eq_some.1 hrows
  refine ⟨hall.length_eq.symm.trans e.length_starts, fun row hrow => ?_⟩
  obtain ⟨s, -, hs⟩ := exists_of_mapM_eq_some hrows hrow
  exact h _ row (fun j => e.length_lane _ _ _) hs

theorem of_assemble
    (hlength : ∀ (lanes : Fin a → Values) (row : Values), (∀ j, (lanes j).length = e.length) →
      single lanes = some row → row.length = n)
    (hkernel : ∀ v, e.Matches v →
      kernel v = (e.rows single v).map (e.withLength n).assemble) :
    Lanewise e n kernel single := by
  have hrows : ∀ v r, e.Matches v → kernel v = some r → ∃ rows, e.rows single v = some rows ∧
      (e.withLength n).Fitted rows ∧ (e.withLength n).assemble rows = r := by
    intro v r hv hr
    obtain ⟨rows, hrows, rfl⟩ := Option.map_eq_some_iff.1 ((hkernel v hv).symm.trans hr)
    exact ⟨rows, hrows, fitted hlength hrows, rfl⟩
  have hlane : ∀ v r, e.Matches v → kernel v = some r → ∀ o < e.outer, ∀ i < e.inner,
      (single fun j => e.lane (v j) o i) = some ((e.withLength n).lane r o i) := by
    intro v r hv hr o ho i hi
    obtain ⟨rows, hfound, hfitted, rfl⟩ := hrows v r hv hr
    obtain ⟨row, hrow, hsingle⟩ :=
      getElem?_of_mapM_eq_some hfound (Extents.getElem?_starts ho hi)
    rw [Extents.lane_assemble (e := e.withLength n) ho hi hrow
      (hfitted.lengths row (List.mem_of_getElem? hrow))]
    exact hsingle
  refine ⟨fun v hv => ?_, fun v r hv hr => ?_, hlane, fun v w r u hv hw hr hu lane hvw p hp => ?_⟩
  · rw [hkernel v hv]
    refine Option.map_congr fun rows hfound => ?_
    exact (Extents.putBack_eq_assemble (fitted hlength hfound)).symm
  · obtain ⟨rows, hfound, hfitted, rfl⟩ := hrows v r hv hr
    refine ⟨rows, hfound, ?_⟩
    rw [Extents.length_assemble]
    exact Extents.writes_perm hfitted
  · have hlengths : ∀ v r, e.Matches v → kernel v = some r →
        r.length = (e.withLength n).size := fun v r hv hr => by
      obtain ⟨rows, -, -, rfl⟩ := hrows v r hv hr
      exact Extents.length_assemble _ _
    have hr' := hlengths v r hv hr
    have hu' := hlengths w u hw hu
    by_cases hsize : p < (e.withLength n).size
    · have hblock := Extents.block_lt hsize
      have hmod := Extents.mod_lt hsize
      have hsame : (fun j => e.lane (v j) (p / ((e.withLength n).length * (e.withLength n).inner))
          (p % (e.withLength n).inner)) = fun j => e.lane (w j)
          (p / ((e.withLength n).length * (e.withLength n).inner)) (p % (e.withLength n).inner) :=
        funext fun j => Extents.lane_congr fun k hk => hvw j _ (by
          rw [Extents.laneOf_index hk hmod]
          exact hp)
      have hfirst := hlane v r hv hr _ hblock _ hmod
      rw [hsame, hlane w u hw hu _ hblock _ hmod] at hfirst
      rw [Extents.getElem?_of_lane hr' hsize, Extents.getElem?_of_lane hu' hsize,
        Option.some.inj hfirst]
    · rw [List.getElem?_eq_none (by omega), List.getElem?_eq_none (by omega)]

theorem of_mapLanes? {f : Values → Option Values}
    (hf : ∀ row out, f row = some out → out.length = row.length) (e : Extents) :
    Lanewise e e.length (fun v : Fin 1 → Values => e.mapLanes? f (v 0))
      fun v => (Extents.whole e.length).mapLanes? f (v 0) := by
  have hwhole : ∀ row : Values, row.length = e.length →
      (Extents.whole e.length).mapLanes? f row = f row := by
    intro row hrow
    unfold Extents.mapLanes?
    rw [Extents.lanes_whole hrow, List.mapM_cons, List.mapM_nil]
    cases hout : f row with
    | none => rfl
    | some out => exact congrArg some (Extents.assemble_whole ((hf row out hout).trans hrow))
  refine of_assemble (fun lanes row hlanes hrow => ?_) fun v hv => ?_
  · exact (hf _ _ (hwhole _ (hlanes 0) ▸ hrow)).trans (hlanes 0)
  · refine congrArg (Option.map e.assemble) ?_
    unfold Extents.rows
    rw [Extents.lanes_eq_map, List.mapM_map]
    exact congrArg (List.mapM · e.starts) (funext fun s => (hwhole _ (e.length_lane ..)).symm)

theorem of_mapLanes {f : Values → Values} (hf : ∀ row, (f row).length = row.length)
    (e : Extents) :
    Lanewise e e.length (fun v : Fin 1 → Values => some (e.mapLanes f (v 0)))
      fun v => some ((Extents.whole e.length).mapLanes f (v 0)) := by
  simp only [← Extents.mapLanes?_some]
  exact of_mapLanes? (fun row out hout => Option.some.inj hout ▸ hf row) e

theorem rows_some (e : Extents) (single : (Fin a → Values) → Values) (v : Fin a → Values) :
    e.rows (fun u => some (single u)) v =
      some (e.starts.map fun s => single fun j => e.lane (v j) s.1 s.2) :=
  mapM_some fun _ _ => rfl

theorem of_foldLanes (f : Values → Binary64) (e : Extents) :
    Lanewise e 1 (fun v : Fin 1 → Values => some (e.foldLanes f (v 0)))
      fun v => some ((Extents.whole e.length).foldLanes f (v 0)) := by
  have hwhole : ∀ row : Values, row.length = e.length →
      (Extents.whole e.length).foldLanes f row = [f row] := fun row hrow => by
    unfold Extents.foldLanes
    rw [Extents.lanes_whole hrow]
    rfl
  refine of_assemble (fun lanes row hlanes hrow => ?_) fun v hv => ?_
  · rw [← Option.some.inj hrow, hwhole _ (hlanes 0)]
    rfl
  rw [rows_some]
  refine congrArg some ?_
  have hfold : e.foldLanes f (v 0) = e.starts.map fun s => f (e.lane (v 0) s.1 s.2) := by
    unfold Extents.foldLanes
    rw [Extents.lanes_eq_map, List.map_map]
    rfl
  have hsize : (e.foldLanes f (v 0)).length = (e.withLength 1).size := by
    rw [hfold, List.length_map, Extents.length_starts]
    exact congrArg (· * e.inner) (Nat.mul_one e.outer).symm
  refine Extents.ext_lanes hsize (Extents.length_assemble _ _) fun o ho i hi => ?_
  have hstart := Extents.getElem?_starts (e := e) ho hi
  have hrow : (e.starts.map fun s => (Extents.whole e.length).foldLanes f
      (e.lane (v 0) s.1 s.2))[o * e.inner + i]? = some [f (e.lane (v 0) o i)] := by
    rw [List.getElem?_map, hstart]
    exact congrArg some (hwhole _ (e.length_lane ..))
  have hindex : (e.withLength 1).index o 0 i = o * e.inner + i :=
    congrArg (fun b => b * e.inner + i) (Nat.mul_one o)
  rw [Extents.lane_assemble (e := e.withLength 1) ho hi hrow rfl]
  change [(e.foldLanes f (v 0)).getD ((e.withLength 1).index o 0 i) .zero] = _
  rw [hindex, hfold, List.getD_eq_getElem?_getD, List.getElem?_map, hstart]
  rfl

theorem of_zipWith {f : Values → Values → Values}
    (hf : ∀ l r, l.length = r.length → (f l r).length = l.length) (e : Extents) :
    Lanewise e e.length
      (fun v : Fin 2 → Values => some (e.assemble ((e.lanes (v 0)).zipWith f (e.lanes (v 1)))))
      fun v => some ((Extents.whole e.length).assemble
        (((Extents.whole e.length).lanes (v 0)).zipWith f
          ((Extents.whole e.length).lanes (v 1)))) := by
  have hwhole : ∀ l r : Values, l.length = e.length → r.length = e.length →
      (Extents.whole e.length).assemble (((Extents.whole e.length).lanes l).zipWith f
        ((Extents.whole e.length).lanes r)) = f l r := by
    intro l r hl hr
    rw [Extents.lanes_whole hl, Extents.lanes_whole hr]
    exact Extents.assemble_whole ((hf l r (hl.trans hr.symm)).trans hl)
  refine of_assemble (fun lanes row hlanes hrow => ?_) fun v hv => ?_
  · rw [← Option.some.inj hrow, hwhole _ _ (hlanes 0) (hlanes 1),
      hf _ _ ((hlanes 0).trans (hlanes 1).symm), hlanes 0]
  · rw [rows_some]
    refine congrArg (fun rows => some (e.assemble rows)) ?_
    rw [Extents.lanes_eq_map, Extents.lanes_eq_map, List.zipWith_map, List.zipWith_self]
    exact List.map_congr_left fun s hs => (hwhole _ _ (e.length_lane ..) (e.length_lane ..)).symm

end Lanewise

theorem Softmax.length_ofLane (t : Binary64) (xs : Values) :
    (Softmax.ofLane t xs).length = xs.length := by
  unfold Softmax.ofLane
  simp only [List.length_map]

theorem Softmax.length_gradientOfLane (t : Binary64) (ys gs : Values) (h : ys.length = gs.length) :
    (Softmax.gradientOfLane t ys gs).length = ys.length := by
  unfold Softmax.gradientOfLane
  rw [List.length_zipWith, h, Nat.min_self]

/-- Reductions, softmax with its gradient, and the sorting positions all work lane by lane, each by
itself in one dimension. -/
theorem kernels_lanewise {dims : List Nat} {axis : Nat} (haxis : axis < dims.length) :
    (Extents.around dims axis).size = Extents.product dims ∧
      Set.BijOn (fun s : Nat × Nat × Nat => (Extents.around dims axis).index s.1 s.2.1 s.2.2)
        (Extents.around dims axis).places {p | p < Extents.product dims} ∧
      (∀ r : Reduction, Lanewise (Extents.around dims axis) 1
        (fun v : Fin 1 → Values => some (r.apply (v 0) dims (some axis)))
        fun v => some (r.apply (v 0) [(Extents.around dims axis).length] (some 0))) ∧
      (∀ t, Lanewise (Extents.around dims axis) (Extents.around dims axis).length
        (fun v : Fin 1 → Values => some (Softmax.apply (v 0) dims axis t))
        fun v => some (Softmax.apply (v 0) [(Extents.around dims axis).length] 0 t)) ∧
      (∀ t, Lanewise (Extents.around dims axis) (Extents.around dims axis).length
        (fun v : Fin 2 → Values => some (Softmax.gradient (v 0) (v 1) dims axis t))
        fun v => some (Softmax.gradient (v 0) (v 1) [(Extents.around dims axis).length] 0 t)) ∧
      ∀ ascending, Lanewise (Extents.around dims axis) (Extents.around dims axis).length
        (fun v : Fin 1 → Values => Argsort.apply (v 0) dims axis ascending)
        fun v => Argsort.apply (v 0) [(Extents.around dims axis).length] 0 ascending := by
  let e := Extents.around dims axis
  have hsize : e.size = Extents.product dims := Extents.size_around haxis
  exact ⟨hsize, hsize ▸ e.index_bijOn, fun r => .of_foldLanes r.ofLane e,
    fun t => .of_mapLanes (Softmax.length_ofLane t) e,
    fun t => .of_zipWith (Softmax.length_gradientOfLane t) e,
    fun ascending => .of_mapLanes? (fun _ _ => Argsort.length_ofLane) e⟩

/-- The columns of a matrix, each reduced to its largest element and put back as a row. -/
theorem kernels_lanewise_columns :
    let xs : Values := [.one, .zero, .negativeZero, .zero, .zero, .one]
    0 < [2, 3].length ∧
      Reduction.max.apply xs [2, 3] (some 0) = ((Extents.around [2, 3] 0).withLength 1).putBack
        [Reduction.max.apply [.one, .zero] [2] (some 0),
          Reduction.max.apply [.zero, .zero] [2] (some 0),
          Reduction.max.apply [.negativeZero, .one] [2] (some 0)] ∧
      Reduction.max.apply xs [2, 3] (some 0) = [.one, .zero, .one] := by
  intro xs
  have haxis : 0 < [2, 3].length := by decide
  obtain ⟨-, -, hreduce, -⟩ := kernels_lanewise haxis
  have hback := Option.some.inj ((hreduce .max).putsBack (fun _ => xs) fun _ => rfl)
  exact ⟨haxis, hback, hback.trans (by decide)⟩

end ScopedTensor
