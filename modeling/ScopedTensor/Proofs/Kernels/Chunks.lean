import ScopedTensor.Proofs.Kernels.Evaluations

/-! Arrays cut into equal chunks along an axis, and chunks joined again. Every element of a chunk was
copied from one place of the array, every place from one chunk; joining writes it back to where it
came from, so cutting and joining undo each other, and so does the gradient of a split. -/

namespace ScopedTensor

open Binary

section Blocks

variable {α β : Type} {xs : List α} {n q start : Nat}

theorem getElem?_flatMap_blocks {f : α → List β} (h : ∀ x ∈ xs, (f x).length = n) (hq : q < n)
    (j : Nat) : (xs.flatMap f)[j * n + q]? = xs[j]?.bind fun x => (f x)[q]? := by
  induction xs generalizing j with
  | nil => rfl
  | cons x xs ih =>
    have hx := h x List.mem_cons_self
    rw [List.flatMap_cons]
    cases j with
    | zero =>
      rw [Nat.zero_mul, Nat.zero_add, List.getElem?_append_left (by omega)]
      rfl
    | succ j =>
      have hstart : (j + 1) * n + q = n + (j * n + q) := by rw [Nat.add_one_mul]; omega
      rw [hstart, List.getElem?_append_right (by omega), hx, Nat.add_sub_cancel_left]
      exact ih (fun y hy => h y (List.mem_cons_of_mem _ hy)) j

theorem length_slice (h : start + n ≤ xs.length) : ((xs.drop start).take n).length = n := by
  rw [List.length_take, List.length_drop]
  omega

theorem getElem?_slice (hq : q < n) : ((xs.drop start).take n)[q]? = xs[start + q]? := by
  rw [List.getElem?_take, if_pos hq, List.getElem?_drop]

end Blocks

namespace Extents

variable {e : Extents} {n o k i j q : Nat} {xs ys : Values} {parts : List Values}

def chunk (e : Extents) (n : Nat) : Extents := e.withLength (e.length / n)

/-- Where in the array the element at `q` in chunk `j` stands. -/
def source (e : Extents) (n j q : Nat) : Nat :=
  let c := e.chunk n
  e.index (q / (c.length * c.inner)) (j * c.length + c.placeOf q) (q % c.inner)

theorem index_eq_offset (e : Extents) (o k i : Nat) :
    e.index o k i = o * (e.length * e.inner) + (k * e.inner + i) := by
  unfold index
  rw [Nat.add_mul, Nat.mul_assoc, Nat.add_assoc]

theorem index_eq_chunk (e : Extents) (n o j k i : Nat) :
    e.index o (j * (e.chunk n).length + k) i =
      o * (e.length * e.inner) + (j * e.chunkSize n + (k * e.inner + i)) := by
  rw [index_eq_offset, Nat.add_mul, Nat.mul_assoc, Nat.add_assoc]
  rfl

theorem mul_chunkSize (hdvd : n ∣ e.length) : n * e.chunkSize n = e.length * e.inner := by
  unfold chunkSize
  rw [← Nat.mul_assoc, Nat.mul_div_cancel' hdvd]

theorem mul_length_chunk (hdvd : n ∣ e.length) : n * (e.chunk n).length = e.length :=
  Nat.mul_div_cancel' hdvd

theorem place_lt (hdvd : n ∣ e.length) (hj : j < n) (hk : k < (e.chunk n).length) :
    j * (e.chunk n).length + k < e.length :=
  calc j * (e.chunk n).length + k < j * (e.chunk n).length + (e.chunk n).length :=
        Nat.add_lt_add_left hk _
    _ = (j + 1) * (e.chunk n).length := (Nat.add_one_mul _ _).symm
    _ ≤ n * (e.chunk n).length := Nat.mul_le_mul_right _ hj
    _ = e.length := mul_length_chunk hdvd

theorem length_chunk_pos (hdvd : n ∣ e.length) (hk : k < e.length) : 0 < (e.chunk n).length := by
  rw [← mul_length_chunk hdvd] at hk
  exact Nat.pos_of_ne_zero fun h => by simp [h] at hk

theorem chunk_of_place_lt (hdvd : n ∣ e.length) (hk : k < e.length) :
    k / (e.chunk n).length < n := by
  rw [← mul_length_chunk hdvd, Nat.mul_comm] at hk
  exact Nat.div_lt_of_lt_mul hk

theorem ext_index (hx : xs.length = e.size) (hy : ys.length = e.size)
    (h : ∀ o < e.outer, ∀ k < e.length, ∀ i < e.inner, xs[e.index o k i]? = ys[e.index o k i]?) :
    xs = ys :=
  ext_lanes hx hy fun o ho i hi => lane_congr fun k hk => h o ho k hk i hi

theorem source_index (hk : k < (e.chunk n).length) (hi : i < e.inner) :
    e.source n j ((e.chunk n).index o k i) = e.index o (j * (e.chunk n).length + k) i := by
  have hi : i < (e.chunk n).inner := hi
  unfold source
  simp only
  rw [block_index hk hi, placeOf_index hk hi, inner_index hi]

theorem source_mem_places (hdvd : n ∣ e.length) (hj : j < n) (hq : q < (e.chunk n).size) :
    (q / ((e.chunk n).length * (e.chunk n).inner),
      j * (e.chunk n).length + (e.chunk n).placeOf q, q % (e.chunk n).inner) ∈ e.places :=
  ⟨block_lt hq, place_lt hdvd hj (placeOf_lt hq), mod_lt hq⟩

theorem source_bijOn (hdvd : n ∣ e.length) :
    Set.BijOn (fun s : Nat × Nat => e.source n s.1 s.2)
      {s | s.1 < n ∧ s.2 < (e.chunk n).size} {p | p < e.size} := by
  refine ⟨fun s hs => e.index_bijOn.mapsTo (source_mem_places hdvd hs.1 hs.2),
    fun s hs t ht hst => ?_, fun p hp => ?_⟩
  -- The place on the lane determines the chunk and the place in the chunk, being their row-major
  -- number.
  · have hplaces := e.index_bijOn.injOn (source_mem_places hdvd hs.1 hs.2)
      (source_mem_places hdvd ht.1 ht.2) hst
    obtain ⟨hblock, hrest⟩ := Prod.mk.inj hplaces
    obtain ⟨hplace, hinner⟩ := Prod.mk.inj hrest
    have hs' := placeOf_lt hs.2
    have ht' := placeOf_lt ht.2
    have hchunk : s.1 = t.1 := by
      have hdiv := congrArg (· / (e.chunk n).length) hplace
      simpa only [Nat.mul_comm _ (e.chunk n).length, Nat.mul_add_div (Nat.zero_lt_of_lt hs'),
        Nat.div_eq_of_lt hs', Nat.div_eq_of_lt ht', Nat.add_zero] using hdiv
    have hwithin : (e.chunk n).placeOf s.2 = (e.chunk n).placeOf t.2 := by
      rw [hchunk] at hplace
      exact Nat.add_left_cancel hplace
    refine Prod.ext hchunk ?_
    rw [← (e.chunk n).index_placeOf s.2, ← (e.chunk n).index_placeOf t.2, hblock, hwithin, hinner]
  · have hplace := placeOf_lt hp
    have hpos := length_chunk_pos hdvd hplace
    have hwithin := Nat.mod_lt (e.placeOf p) hpos
    refine ⟨(e.placeOf p / (e.chunk n).length, (e.chunk n).index (p / (e.length * e.inner))
      (e.placeOf p % (e.chunk n).length) (p % e.inner)), ⟨chunk_of_place_lt hdvd hplace,
        index_lt (e := e.chunk n) (block_lt hp) hwithin (mod_lt hp)⟩, ?_⟩
    simp only
    rw [source_index hwithin (mod_lt hp), Nat.div_add_mod', index_placeOf]

theorem length_split (e : Extents) (n : Nat) (xs : Values) : (e.split n xs).length = n := by
  unfold split
  rw [List.length_map, List.length_range]

theorem getElem?_split (hdvd : n ∣ e.length) (hxs : xs.length = e.size) (hj : j < n)
    (ho : o < e.outer) (hk : k < (e.chunk n).length) (hi : i < e.inner) :
    (e.split n xs)[j]?.bind (·[(e.chunk n).index o k i]?) =
      xs[e.index o (j * (e.chunk n).length + k) i]? := by
  have hoffset : k * e.inner + i < e.chunkSize n := offset_lt (e := e.chunk n) hk hi
  have hblock : ∀ o ∈ List.range e.outer, ((xs.drop (o * e.length * e.inner +
      j * e.chunkSize n)).take (e.chunkSize n)).length = e.chunkSize n := fun o ho =>
    length_slice (hxs ▸ Exact.chunk_le hdvd (List.mem_range.1 ho) hj)
  have hplace : (e.chunk n).index o k i = o * e.chunkSize n + (k * e.inner + i) :=
    index_eq_offset _ _ _ _
  unfold split
  rw [List.getElem?_map, List.getElem?_range hj, Option.map_some, Option.bind_some, hplace,
    getElem?_flatMap_blocks hblock hoffset, List.getElem?_range ho, Option.bind_some,
    getElem?_slice hoffset, index_eq_chunk, Nat.mul_assoc, Nat.add_assoc]

theorem getElem?_split_source (hdvd : n ∣ e.length) (hxs : xs.length = e.size) (hj : j < n)
    (hq : q < (e.chunk n).size) :
    (e.split n xs)[j]?.bind (·[q]?) = xs[e.source n j q]? := by
  have helement := getElem?_split hdvd hxs hj (block_lt (e := e.chunk n) hq) (placeOf_lt hq)
    (mod_lt (e := e.chunk n) hq)
  rwa [index_placeOf] at helement

theorem getElem?_concat (hcount : parts.length = n) (hdvd : n ∣ e.length)
    (hparts : ∀ part ∈ parts, part.length = (e.chunk n).size) (hj : j < n) (ho : o < e.outer)
    (hk : k < (e.chunk n).length) (hi : i < e.inner) :
    (e.concat parts)[e.index o (j * (e.chunk n).length + k) i]? =
      parts[j]?.bind (·[(e.chunk n).index o k i]?) := by
  subst hcount
  let size := e.chunkSize parts.length
  have hsize : e.chunkSize (Nat.max parts.length 1) = size := by
    rw [show Nat.max parts.length 1 = parts.length from Nat.max_eq_left (Nat.zero_lt_of_lt hj)]
  have hoffset : k * e.inner + i < size := offset_lt (e := e.chunk parts.length) hk hi
  have hslice : ∀ o < e.outer, ∀ part ∈ parts,
      ((part.drop (o * size)).take size).length = size := by
    intro o ho part hpart
    refine length_slice ?_
    rw [hparts part hpart, ← Nat.add_one_mul]
    exact (Nat.mul_le_mul_right _ ho).trans (Nat.le_of_eq (Nat.mul_assoc _ _ _).symm)
  have hblock : ∀ o ∈ List.range e.outer,
      (parts.flatMap fun part => (part.drop (o * size)).take size).length =
        e.length * e.inner := by
    intro o ho
    rw [List.length_flatMap, List.map_congr_left (hslice o (List.mem_range.1 ho)),
      List.map_const', List.sum_replicate_nat]
    exact mul_chunkSize hdvd
  have hwithin : j * size + (k * e.inner + i) < e.length * e.inner := by
    have hplace := offset_lt (place_lt hdvd hj hk) hi
    rwa [Nat.add_mul, Nat.mul_assoc, Nat.add_assoc] at hplace
  have hindex : (e.chunk parts.length).index o k i = o * size + (k * e.inner + i) :=
    index_eq_offset _ _ _ _
  unfold concat
  simp only [hsize]
  rw [index_eq_chunk, getElem?_flatMap_blocks hblock hwithin, List.getElem?_range ho,
    Option.bind_some, getElem?_flatMap_blocks (hslice o ho) hoffset, hindex]
  exact congrArg _ (funext fun part => getElem?_slice hoffset)

theorem getElem?_concat_source (hdvd : parts.length ∣ e.length)
    (hparts : ∀ part ∈ parts, part.length = (e.chunk parts.length).size) (hj : j < parts.length)
    (hq : q < (e.chunk parts.length).size) :
    (e.concat parts)[e.source parts.length j q]? = parts[j]?.bind (·[q]?) := by
  have helement := getElem?_concat rfl hdvd hparts hj (block_lt (e := e.chunk parts.length) hq)
    (placeOf_lt hq) (mod_lt (e := e.chunk parts.length) hq)
  rwa [index_placeOf] at helement

theorem concat_split (hn : 0 < n) (hdvd : n ∣ e.length) (hxs : xs.length = e.size) :
    e.concat (e.split n xs) = xs := by
  have hcount := e.length_split n xs
  have hlengths : ∀ part ∈ e.split n xs, part.length = (e.chunk n).size := fun part hpart =>
    Exact.length_of_mem_split hdvd hxs hpart
  have hjoined : (e.concat (e.split n xs)).length = e.size := by
    refine length_concat ?_ ?_ ?_ <;> rw [hcount]
    · exact hn
    · exact hdvd
    · exact hlengths
  refine ext_index hjoined hxs fun o ho k hk i hi => ?_
  have hj := chunk_of_place_lt hdvd hk
  have hplace := Nat.mod_lt k (length_chunk_pos hdvd hk)
  have hjoin := getElem?_concat hcount hdvd hlengths hj ho hplace hi
  rw [Nat.div_add_mod'] at hjoin
  rw [hjoin, getElem?_split hdvd hxs hj ho hplace hi, Nat.div_add_mod']

theorem split_concat (hn : 0 < parts.length) (hdvd : parts.length ∣ e.length)
    (hparts : ∀ part ∈ parts, part.length = (e.chunk parts.length).size) :
    e.split parts.length (e.concat parts) = parts := by
  have hjoined : (e.concat parts).length = e.size := length_concat hn hdvd hparts
  have hcount := e.length_split parts.length (e.concat parts)
  refine List.ext_getElem hcount fun j hj hj' => ?_
  refine ext_index (e := e.chunk parts.length)
    (Exact.length_of_mem_split hdvd hjoined (List.getElem_mem hj))
    (hparts _ (List.getElem_mem hj')) fun o ho k hk i hi => ?_
  have hsplit := getElem?_split hdvd hjoined hj' ho hk hi
  rw [getElem?_concat rfl hdvd hparts hj' ho hk hi, List.getElem?_eq_getElem hj,
    List.getElem?_eq_getElem hj'] at hsplit
  exact hsplit

/-- What a split of `xs` into `chunks` hands back for gradients `gs` of the chunks: the gradient of
each element of a chunk comes to the place that the element was copied from, and zero where nothing
reached the chunk. -/
structure Routed (e : Extents) (n : Nat) (xs : Values) (chunks : List Values)
    (gs : List (Option Values)) (g : Values) : Prop where
  count : gs.length = n
  length : g.length = xs.length
  copied : ∀ j < n, ∀ q < (e.chunk n).size,
    chunks[j]?.bind (·[q]?) = xs[e.source n j q]?
  reached : ∀ j v, gs[j]? = some (some v) → ∀ q < (e.chunk n).size,
    g[e.source n j q]? = v[q]?
  unreached : ∀ j, gs[j]? = some none → ∀ q < (e.chunk n).size,
    g[e.source n j q]? = some .zero

end Extents

namespace Operator

variable {params : Params} {x : Operand} {plan : SplitPlan} {outputs : List Operand}
variable {gs : List (Option Values)}

theorem split_routed (hplan : splitPlan params x.shape = .ok plan)
    (hx : x.values.length = x.shape.size) (hcount : outputs.length = plan.parts)
    (hout : ∀ y ∈ outputs, y.values.length =
      ((Extents.around x.shape.dims plan.axis).chunk plan.parts).size)
    (hgs : List.Forall₂ (fun (g : Option Values) (y : Operand) =>
      ∀ v, g = some v → v.length = y.values.length) gs outputs) :
    ∃ g, splitGradient params x outputs gs = .ok [some g] ∧
      (Extents.around x.shape.dims plan.axis).Routed plan.parts x.values
        ((Extents.around x.shape.dims plan.axis).split plan.parts x.values) gs g := by
  let e := Extents.around x.shape.dims plan.axis
  let parts := gs.zipWith (fun g (y : Operand) =>
    g.getD (List.replicate y.values.length .zero)) outputs
  have hfair := splitPlan_fair hplan
  have hsize : e.size = x.shape.size := Extents.size_around hfair.axis
  obtain ⟨hlength, hfound⟩ := length_parts hgs
  have hpartsCount : parts.length = plan.parts := hlength.trans hcount
  have hparts : ∀ part ∈ parts, part.length = (e.chunk plan.parts).size := by
    intro part hpart
    obtain ⟨y, hy, hpart⟩ := hfound part hpart
    exact hpart.trans (hout y hy)
  have hgradient : splitGradient params x outputs gs = .ok [some (e.concat parts)] := by
    unfold splitGradient
    rw [hplan]
    rfl
  have hpart : ∀ j < plan.parts, ∃ y, outputs[j]? = some y ∧
      parts[j]? = gs[j]?.map fun g => g.getD (List.replicate y.values.length .zero) := by
    intro j hj
    have hy := List.getElem?_eq_getElem (l := outputs) (hcount ▸ hj)
    refine ⟨_, hy, ?_⟩
    rw [List.getElem?_zipWith, hy]
    cases gs[j]? <;> rfl
  have hbound : ∀ j v, gs[j]? = some v → j < plan.parts := fun j v hv => by
    rw [← hcount, ← hgs.length_eq]
    exact (List.getElem?_eq_some_iff.1 hv).1
  have hroute : ∀ j < plan.parts, ∀ q < (e.chunk plan.parts).size,
      (e.concat parts)[e.source plan.parts j q]? = parts[j]?.bind (·[q]?) := by
    rw [← hpartsCount] at hparts ⊢
    exact fun j hj q hq =>
      Extents.getElem?_concat_source (hpartsCount ▸ hfair.equal) hparts hj hq
  refine ⟨_, hgradient, hgs.length_eq.trans hcount, ?_, fun j hj q hq => ?_,
    fun j v hv q hq => ?_, fun j hv q hq => ?_⟩
  · rw [hx, ← hsize]
    refine Extents.length_concat (hpartsCount ▸ hfair.parts) (hpartsCount ▸ hfair.equal) ?_
    rw [hpartsCount]
    exact hparts
  · exact Extents.getElem?_split_source hfair.equal (hx.trans hsize.symm) hj hq
  · obtain ⟨y, -, hpart⟩ := hpart j (hbound j _ hv)
    rw [hroute j (hbound j _ hv) q hq, hpart, hv]
    rfl
  · obtain ⟨y, hy, hpart⟩ := hpart j (hbound j _ hv)
    rw [hroute j (hbound j _ hv) q hq, hpart, hv]
    simp [hout y (List.mem_of_getElem? hy), hq]

end Operator

/-- Cutting an array into equal chunks and joining chunks undo each other. Each element of the array
is found in one chunk, at its outer and inner position; so the gradient of a split brings what each
element of an output received to the element that it was copied from, whether or not the axis is
dropped from the outputs' shapes. -/
theorem split_concat_inverse {dims : List Nat} {axis n : Nat} (haxis : axis < dims.length)
    (hn : 0 < n) (hdvd : n ∣ dims[axis]) :
    let e : Extents := .around dims axis
    let c := e.chunk n
    (∀ xs : Values, xs.length = Extents.product dims →
      (e.split n xs).length = n ∧
      (∀ part ∈ e.split n xs, part.length = Extents.product (dims.set axis (dims[axis] / n))) ∧
      (∀ o < e.outer, ∀ k < e.length, ∀ i < e.inner, ∃ part x,
        (e.split n xs)[k / c.length]? = some part ∧ part[c.index o (k % c.length) i]? = some x ∧
          xs[e.index o k i]? = some x) ∧
      e.concat (e.split n xs) = xs) ∧
    (∀ parts : List Values, parts.length = n →
      (∀ part ∈ parts, part.length = Extents.product (dims.set axis (dims[axis] / n))) →
        (e.concat parts).length = Extents.product dims ∧ e.split n (e.concat parts) = parts) ∧
    Set.BijOn (fun s : Nat × Nat => e.source n s.1 s.2) {s | s.1 < n ∧ s.2 < c.size}
      {p | p < Extents.product dims} ∧
    ∀ (params : Params) (squeezed : Bool) (type : ElementType),
      Operator.splitPlan params ⟨dims⟩ = .ok ⟨axis, n, squeezed⟩ →
        ∃ sigs, Operator.split.infer [⟨⟨dims⟩, type⟩] params = .ok sigs ∧
          ∀ (xs : Values) (outputs : List Operand) (gs : List (Option Values)),
            xs.length = Extents.product dims →
            List.Forall₂ (fun (y : Operand) (sig : Signature) =>
              y.values.length = sig.shape.size) outputs sigs →
            List.Forall₂ (fun (g : Option Values) (y : Operand) =>
              ∀ v, g = some v → v.length = y.values.length) gs outputs →
              Operator.split.evaluate [⟨xs, ⟨dims⟩⟩] params = some (.ok (e.split n xs)) ∧
              ∃ g, Operator.split.gradient params [⟨xs, ⟨dims⟩⟩] outputs gs = .ok [some g] ∧
                e.Routed n xs (e.split n xs) gs g := by
  intro e c
  have hlength : e.length = dims[axis] := List.getD_eq_getElem _ _ haxis
  have hdvd : n ∣ e.length := hlength ▸ hdvd
  have hsize : e.size = Extents.product dims := Extents.size_around haxis
  have hchunk : c.size = Extents.product (dims.set axis (dims[axis] / n)) := by
    rw [Extents.product_set haxis, ← hlength]
    rfl
  rw [← hsize, ← hchunk]
  refine ⟨fun xs hxs => ⟨e.length_split n xs, fun part hpart =>
    Exact.length_of_mem_split hdvd hxs hpart, fun o ho k hk i hi => ?_,
    Extents.concat_split hn hdvd hxs⟩, fun parts hcount hparts => ?_,
    Extents.source_bijOn hdvd, fun params squeezed type hplan => ?_⟩
  · have hx := List.getElem?_eq_getElem (l := xs) (hxs ▸ Extents.index_lt ho hk hi)
    have hfound := Extents.getElem?_split hdvd hxs (Extents.chunk_of_place_lt hdvd hk) ho
      (Nat.mod_lt k (Extents.length_chunk_pos hdvd hk)) hi
    rw [Nat.div_add_mod', hx] at hfound
    obtain ⟨part, hpart, helement⟩ := Option.bind_eq_some_iff.1 hfound
    exact ⟨part, _, hpart, helement, hx⟩
  · obtain rfl := hcount
    exact ⟨Extents.length_concat hn hdvd hparts, Extents.split_concat hn hdvd hparts⟩
  · have hinfer : Operator.split.infer [⟨⟨dims⟩, type⟩] params = .ok (List.replicate n
        ⟨if squeezed then (Shape.mk dims).withoutAxis axis
          else (Shape.mk dims).withDim axis (dims.getD axis 1 / n), type⟩) := by
      change (Operator.splitPlan params ⟨dims⟩ >>= _) = _
      rw [hplan]
      rfl
    refine ⟨_, hinfer, fun xs outputs gs hxs hout hgs => ⟨?_, ?_⟩⟩
    · exact congrArg some (bind_eq_ok.2 ⟨_, hplan, rfl⟩)
    · obtain ⟨hcount, hsizes⟩ := Operator.length_of_split (x := ⟨xs, ⟨dims⟩⟩) hplan hout
      exact Operator.split_routed (x := ⟨xs, ⟨dims⟩⟩) hplan (hxs.trans hsize) hcount hsizes hgs

/-- A square cut into its columns, with the axis dropped, of which only the second was reached. -/
theorem split_concat_inverse_columns :
    let e := Extents.around [2, 2] 1
    let xs : Values := [.one, .infinity, .negativeZero, .zero]
    let columns : List Values := [[.one, .negativeZero], [.infinity, .zero]]
    let params : Params := ⟨[("num_outputs", .int 2), ("squeeze_axis", .bool true)]⟩
    let outputs : List Operand := columns.map fun column => ⟨column, ⟨[2]⟩⟩
    let gs : List (Option Values) := [none, some [.one, .infinity]]
    1 < [2, 2].length ∧ 2 ∣ [2, 2][1] ∧
      Operator.splitPlan params ⟨[2, 2]⟩ = .ok ⟨1, 2, true⟩ ∧
      e.split 2 xs = columns ∧ e.concat columns = xs ∧
      Operator.split.gradient params [⟨xs, ⟨[2, 2]⟩⟩] outputs gs =
        .ok [some [.zero, .one, .zero, .infinity]] ∧
      e.Routed 2 xs columns gs [.zero, .one, .zero, .infinity] := by
  intro e xs columns params outputs gs
  have hdvd : 2 ∣ [2, 2][1] := by decide
  have haxis : 1 < [2, 2].length := by decide
  have hplan : Operator.splitPlan params ⟨[2, 2]⟩ = .ok ⟨1, 2, true⟩ := by
    obtain ⟨⟨axis, parts, squeezed⟩, hplan, hfields⟩ := exists_ok_of_any (by decide +kernel :
      (Operator.splitPlan params ⟨[2, 2]⟩).toOption.any
        (fun p => p.axis == 1 && p.parts == 2 && p.squeezed) = true)
    simp only [Bool.and_eq_true, beq_iff_eq] at hfields
    obtain ⟨⟨rfl, rfl⟩, rfl⟩ := hfields
    exact hplan
  have hcut : e.split 2 xs = columns := by decide +kernel
  have hback : Operator.split.gradient params [⟨xs, ⟨[2, 2]⟩⟩] outputs gs =
      .ok [some [.zero, .one, .zero, .infinity]] := by
    have hjoined : e.concat [[.zero, .zero], [.one, .infinity]] =
      [.zero, .one, .zero, .infinity] := by decide +kernel
    change (Operator.splitPlan params ⟨[2, 2]⟩ >>= _) = _
    rw [hplan]
    exact congrArg (fun g => Except.ok [some g]) hjoined
  obtain ⟨hsplits, -, -, hroutes⟩ := split_concat_inverse haxis (by decide : 0 < 2) hdvd
  have hjoin := (hsplits xs rfl).2.2.2
  obtain ⟨sigs, hinfer, hroute⟩ := hroutes params true .f64 hplan
  change (Operator.splitPlan params ⟨[2, 2]⟩ >>= _) = _ at hinfer
  rw [hplan] at hinfer
  obtain rfl : [⟨⟨[2]⟩, .f64⟩, ⟨⟨[2]⟩, .f64⟩] = sigs := Except.ok.inj hinfer
  have hout : List.Forall₂ (fun (y : Operand) (sig : Signature) =>
      y.values.length = sig.shape.size) outputs [⟨⟨[2]⟩, .f64⟩, ⟨⟨[2]⟩, .f64⟩] :=
    .cons rfl (.cons rfl .nil)
  obtain ⟨-, g, hg, hrouted⟩ := hroute xs outputs gs rfl hout
    (.cons nofun (.cons (fun v hv => Option.some.inj hv ▸ rfl) .nil))
  obtain rfl := Option.some.inj (List.cons.inj (Except.ok.inj (hback.symm.trans hg))).1
  rw [hcut] at hjoin hrouted
  exact ⟨haxis, hdvd, hplan, hcut, hjoin, hback, hrouted⟩

end ScopedTensor
