import ScopedTensor.Proofs.Store.Bounds

/-! What marked variables receive at the end of a backward pass. Where their gradients go to different
buffers, each buffer is filled as its own mark says and no other cell changes. Where no cell is shared
it makes no difference which mark is served first, and deliveries that only write can be repeated. -/

namespace ScopedTensor

open Binary

variable {half : HalfPrecision}

namespace Memory

variable {m : Memory} {v w : View}

theorem ext_cells {m' : Memory} (hlength : m.buffers.length = m'.buffers.length)
    (h : ∀ b k : Nat, (m.cells b)[k]? = (m'.cells b)[k]?) : m = m' := by
  refine congrArg Memory.mk (List.ext_getElem? fun b => ?_)
  have hcells : m.cells b = m'.cells b := List.ext_getElem? (h b)
  unfold cells at hcells
  rw [List.getD_eq_getElem?_getD, List.getD_eq_getElem?_getD] at hcells
  by_cases hb : b < m.buffers.length
  · have hb' : b < m'.buffers.length := hlength ▸ hb
    rw [List.getElem?_eq_getElem hb, List.getElem?_eq_getElem hb'] at hcells ⊢
    exact congrArg some hcells
  · rw [List.getElem?_eq_none (by omega), List.getElem?_eq_none (by omega)]

theorem update_comm (h : v.Disjoint w) (f g : Binary64 → Binary64 → Binary64)
    (xs ys : Values) : (m.update v f xs).update w g ys = (m.update w g ys).update v f xs := by
  refine ext_cells (by simp only [length_update]) fun b k => ?_
  simp only [getElem?_update, Option.map_map]
  congr 1
  funext old
  by_cases hv : v.Covers b k
  · have hw : ¬ w.Covers b k := h b k hv
    simp only [Function.comp_apply, if_neg hw]
  · simp only [Function.comp_apply, if_neg hv]

theorem write_write (m : Memory) (v : View) (xs : Values) :
    (m.write v xs).write v xs = m.write v xs := by
  refine ext_cells (by simp only [write, length_update]) fun b k => ?_
  unfold write
  rw [getElem?_update, getElem?_update, Option.map_map]
  congr 1
  funext old
  rw [Function.comp_apply]
  split
  · cases xs[k - v.offset]? <;> rfl
  · rfl

theorem read_update (m : Memory) (v : View) (f : Binary64 → Binary64 → Binary64) {xs : Values}
    (hxs : xs.length = v.size) : (m.update v f xs).read v = (m.read v).zipWith f xs := by
  refine List.ext_getElem? fun i => ?_
  rw [List.getElem?_zipWith, getElem?_read, getElem?_read]
  split
  · rename_i hi
    have hcovers : v.Covers v.buffer (v.offset + i) := ⟨rfl, by omega, by omega⟩
    rw [getElem?_update, List.getElem?_eq_getElem (l := xs) (by omega)]
    simp only [if_pos hcovers, Nat.add_sub_cancel_left,
      List.getElem?_eq_getElem (l := xs) (i := i) (by omega), Option.elim_some]
    cases (m.cells v.buffer)[v.offset + i]? <;> rfl
  · rfl

theorem Fits.read_write [HalfPrecision] (h : m.Fits v) {xs : Values} (hxs : xs.length = v.size) :
    (m.write v xs).read v = xs.map v.type.cast := by
  refine (m.read_update v _ hxs).trans (List.ext_getElem? fun i => ?_)
  rw [List.getElem?_zipWith, List.getElem?_map]
  by_cases hi : i < v.size
  · rw [List.getElem?_eq_getElem (l := m.read _) (by rwa [h.length_read])]
    cases xs[i]? <;> rfl
  · rw [List.getElem?_eq_none (l := xs) (by omega)]
    cases (m.read v)[i]? <;> rfl

theorem cells_of_le {b : Nat} (h : m.buffers.length ≤ b) : m.cells b = [] :=
  List.getD_eq_default _ _ h

theorem cell_eq_of_read {m' : Memory} {b i : Nat} (h : m'.read v = m.read v) (hi : v.Covers b i) :
    (m'.cells b)[i]? = (m.cells b)[i]? := by
  obtain ⟨rfl, hle, hlt⟩ := hi
  have hcell : (m'.read v)[i - v.offset]? = (m.read v)[i - v.offset]? := by rw [h]
  rw [getElem?_read, getElem?_read, if_pos (by omega), if_pos (by omega)] at hcell
  rwa [Nat.add_sub_cancel' hle] at hcell

end Memory

namespace Mark

variable {k k' : Mark} {gs : Gradients} {id id' : Nat} {m : Memory}

/-- What the buffer of a marked variable holds after a pass, from what it held before. -/
def received [HalfPrecision] (k : Mark) (gs : Gradients) (id : Nat) (old : Values) : Values :=
  match gs.get? id with
  | none => old
  | some g =>
    match k.request with
    | .skip => old
    | .write => g.map k.gradient.type.cast
    | .add => old.zipWith (fun x y => k.gradient.type.cast (x + y)) g

theorem read_deliver (hfits : m.Fits k.gradient)
    (hsize : ∀ g, gs.get? id = some g → g.length = k.gradient.size) :
    (k.deliver gs m id).read k.gradient = k.received gs id (m.read k.gradient) := by
  unfold deliver received
  cases hg : gs.get? id with
  | none => rfl
  | some g =>
    have hlength : g.length = k.gradient.size := hsize g hg
    cases k.request with
    | skip => rfl
    | write => exact hfits.read_write hlength
    | add => exact m.read_update _ _ hlength

theorem deliver_comm (h : k.gradient.Disjoint k'.gradient) :
    k'.deliver gs (k.deliver gs m id) id' = k.deliver gs (k'.deliver gs m id') id := by
  unfold deliver
  cases gs.get? id with
  | none => rfl
  | some g =>
    cases gs.get? id' with
    | none => rfl
    | some g' =>
      cases k.request with
      | skip => rfl
      | write | add =>
        cases k'.request with
        | skip => rfl
        | write | add => exact Memory.update_comm h _ _ _ _

theorem deliver_deliver (h : k.request ≠ .add) :
    k.deliver gs (k.deliver gs m id) id = k.deliver gs m id := by
  unfold deliver
  cases gs.get? id with
  | none => rfl
  | some g =>
    cases hrequest : k.request with
    | skip => rfl
    | write => exact Memory.write_write m _ _
    | add => exact absurd hrequest h

end Mark

theorem Mark.length_deliver (k : Mark) (gs : Gradients) (m : Memory) (id : Nat) :
    (k.deliver gs m id).buffers.length = m.buffers.length := by
  unfold deliver
  cases gs.get? id with
  | none => rfl
  | some g =>
    cases k.request with
    | skip => rfl
    | write | add => exact Memory.length_update _ _ _ _

theorem length_foldl_deliver (gs : Gradients) (es : List (Nat × Mark)) : ∀ m : Memory,
    (es.foldl (fun m e => e.2.deliver gs m e.1) m).buffers.length = m.buffers.length := by
  induction es with
  | nil => exact fun m => rfl
  | cons e es ih => exact fun m => (ih _).trans (e.2.length_deliver gs m e.1)

/-- No cell is part of the gradients of two variables. -/
def Unshared (marks : Table Mark) : Prop := ∀ id id' k k', marks.get? id = some k →
  marks.get? id' = some k' → id ≠ id' → k.gradient.Disjoint k'.gradient

/-- Gradients go to different buffers. -/
def Separate (marks : Table Mark) : Prop := ∀ id id' k k', marks.get? id = some k →
  marks.get? id' = some k' → id ≠ id' → k.gradient.buffer ≠ k'.gradient.buffer

/-- From `m` to `m'` the marked variables received the gradients that reached them: those of which
this was asked are written over, or added to, in every element, and no other cell has changed. -/
structure Delivered [HalfPrecision] (marks : Table Mark) (gs : Gradients) (m m' : Memory) :
    Prop where
  buffers : m'.buffers.length = m.buffers.length
  size : ∀ id k, marks.get? id = some k → (m.read k.gradient).length = k.gradient.size ∧
    ∀ g, gs.get? id = some g → g.length = k.gradient.size
  written : ∀ id k g, marks.get? id = some k → gs.get? id = some g → k.request = .write →
    m'.read k.gradient = g.map k.gradient.type.cast
  added : ∀ id k g, marks.get? id = some k → gs.get? id = some g → k.request = .add →
    m'.read k.gradient =
      (m.read k.gradient).zipWith (fun old x => k.gradient.type.cast (old + x)) g
  kept : ∀ id k, marks.get? id = some k → gs.get? id = none ∨ k.request = .skip →
    m'.read k.gradient = m.read k.gradient
  elsewhere : ∀ b i, (∀ id k g, marks.get? id = some k → gs.get? id = some g →
    k.request ≠ .skip → ¬ k.gradient.Covers b i) → (m'.cells b)[i]? = (m.cells b)[i]?

section Deliveries

variable {marks : Table Mark} {gs : Gradients} {m : Memory}

theorem Separate.ne_of_mem (h : Separate marks) (hkeys : marks.keys.Nodup) {e e' : Nat × Mark}
    (he : e ∈ marks.entries) (he' : e' ∈ marks.entries) (hne : e.1 ≠ e'.1) :
    e.2.gradient.buffer ≠ e'.2.gradient.buffer :=
  h _ _ _ _ (Table.get?_eq_some_of_mem hkeys he) (Table.get?_eq_some_of_mem hkeys he') hne

theorem read_foldl_deliver {es : List (Nat × Mark)} {v : View} (hv : v.buffer < m.buffers.length)
    (h : ∀ e ∈ es, e.2.gradient.buffer ≠ v.buffer) :
    (es.foldl (fun m e => e.2.deliver gs m e.1) m).read v = m.read v := by
  refine (writes_deliver gs es m).read_eq hv fun w hw => ?_
  obtain ⟨e, he, -, rfl⟩ := mem_of_target hw
  exact .inl (Ne.symm (h e he))

theorem Separate.read_deliver (h : Separate marks) (hkeys : marks.keys.Nodup)
    (hfits : ∀ e ∈ marks.entries, m.Fits e.2.gradient) {id : Nat} {k : Mark}
    (hk : marks.get? id = some k)
    (hsize : ∀ g, gs.get? id = some g → g.length = k.gradient.size) :
    (marks.entries.foldl (fun m e => e.2.deliver gs m e.1) m).read k.gradient =
      k.received gs id (m.read k.gradient) := by
  have hfitsk : m.Fits k.gradient := hfits _ (Table.mem_of_get?_eq_some hk)
  obtain ⟨before, behind, ht, -⟩ := Table.exists_split hkeys hk
  obtain ⟨hbefore, hbehind⟩ := Table.ne_of_split hkeys ht
  have hmem : (id, k) ∈ marks.entries := Table.mem_of_get?_eq_some hk
  have hother : ∀ e ∈ marks.entries, e.1 ≠ id → e.2.gradient.buffer ≠ k.gradient.buffer :=
    fun e he hne => h.ne_of_mem hkeys he hmem hne
  have hfirst : ∀ e ∈ before, e.2.gradient.buffer ≠ k.gradient.buffer := fun e he =>
    hother e (ht ▸ List.mem_append_left _ he) (hbefore e he)
  have hrest : ∀ e ∈ behind, e.2.gradient.buffer ≠ k.gradient.buffer := fun e he =>
    hother e (ht ▸ List.mem_append_right _ (List.mem_cons_of_mem _ he)) (hbehind e he)
  let m₁ := before.foldl (fun m e => e.2.deliver gs m e.1) m
  have hfits₁ : m₁.Fits k.gradient := (writes_deliver gs before m).fits hfitsk
  have hfits₂ : (k.deliver gs m₁ id).Fits k.gradient := (k.writes_deliver gs m₁ id).fits hfits₁
  calc (marks.entries.foldl (fun m e => e.2.deliver gs m e.1) m).read k.gradient
      = (behind.foldl (fun m e => e.2.deliver gs m e.1) (k.deliver gs m₁ id)).read k.gradient := by
        rw [ht, List.foldl_append, List.foldl_cons]
    _ = (k.deliver gs m₁ id).read k.gradient := read_foldl_deliver hfits₂.buffer hrest
    _ = k.received gs id (m₁.read k.gradient) := Mark.read_deliver hfits₁ hsize
    _ = k.received gs id (m.read k.gradient) := by
      rw [read_foldl_deliver hfitsk.buffer hfirst]

section Whole

variable (h : Separate marks) (hkeys : marks.keys.Nodup)
  (hfits : ∀ e ∈ marks.entries, m.Fits e.2.gradient)
  (hsize : ∀ id k g, marks.get? id = some k → gs.get? id = some g → g.length = k.gradient.size)
include h hkeys hfits hsize

theorem Separate.read_kept {id : Nat} {k : Mark} (hk : marks.get? id = some k)
    (hnone : gs.get? id = none ∨ k.request = .skip) :
    (marks.entries.foldl (fun m e => e.2.deliver gs m e.1) m).read k.gradient =
      m.read k.gradient := by
  rw [h.read_deliver hkeys hfits hk fun g hg => hsize id k g hk hg]
  unfold Mark.received
  rcases hnone with hnone | hskip
  · rw [hnone]
  · rw [hskip]
    cases gs.get? id <;> rfl

theorem Separate.cell_kept {b i : Nat} (hother : ∀ id k g, marks.get? id = some k →
      gs.get? id = some g → k.request ≠ .skip → ¬ k.gradient.Covers b i) :
    ((marks.entries.foldl (fun m e => e.2.deliver gs m e.1) m).cells b)[i]? =
      (m.cells b)[i]? := by
  by_cases hb : b < m.buffers.length
  · by_cases hcovered : ∃ e ∈ marks.entries, e.2.request ≠ .skip ∧ e.2.gradient.Covers b i
    · obtain ⟨e, he, hrequest, hcovers⟩ := hcovered
      have hk := Table.get?_eq_some_of_mem hkeys he
      cases hg : gs.get? e.1 with
      | none => exact Memory.cell_eq_of_read (h.read_kept hkeys hfits hsize hk (.inl hg)) hcovers
      | some g => exact absurd hcovers (hother _ _ g hk hg hrequest)
    · refine (writes_deliver gs marks.entries m).cells b hb i fun w hw hcovers => hcovered ?_
      obtain ⟨e, he, hrequest, rfl⟩ := mem_of_target hw
      exact ⟨e, he, hrequest, hcovers⟩
  · have hle : m.buffers.length ≤ b := Nat.le_of_not_lt hb
    rw [Memory.cells_of_le hle,
      Memory.cells_of_le (Nat.le_trans (Nat.le_of_eq (length_foldl_deliver gs _ m)) hle)]

theorem Separate.delivered :
    Delivered marks gs m (marks.entries.foldl (fun m e => e.2.deliver gs m e.1) m) := by
  have hread : ∀ id k, marks.get? id = some k →
      (marks.entries.foldl (fun m e => e.2.deliver gs m e.1) m).read k.gradient =
        k.received gs id (m.read k.gradient) := fun id k hk =>
    h.read_deliver hkeys hfits hk fun g hg => hsize id k g hk hg
  constructor
  case buffers => exact length_foldl_deliver gs marks.entries m
  case size =>
    exact fun id k hk => ⟨(hfits _ (Table.mem_of_get?_eq_some hk)).length_read, fun g =>
      hsize id k g hk⟩
  case written =>
    intro id k g hk hg hrequest
    rw [hread id k hk]
    unfold Mark.received
    rw [hg, hrequest]
  case added =>
    intro id k g hk hg hrequest
    rw [hread id k hk]
    unfold Mark.received
    rw [hg, hrequest]
  case kept => exact fun id k hk hnone => h.read_kept hkeys hfits hsize hk hnone
  case elsewhere => exact fun b i hother => h.cell_kept hkeys hfits hsize hother

end Whole

theorem Separate.unshared (h : Separate marks) : Unshared marks :=
  fun id id' k k' hk hk' hne => View.Apart.disjoint (.inl (h id id' k k' hk hk' hne))

theorem Unshared.deliver_perm (h : Unshared marks) (hkeys : marks.keys.Nodup)
    {es : List (Nat × Mark)} (hes : es.Perm marks.entries) (m : Memory) :
    es.foldl (fun m e => e.2.deliver gs m e.1) m =
      marks.entries.foldl (fun m e => e.2.deliver gs m e.1) m := by
  refine hes.foldl_eq' (fun e he e' he' z => ?_) m
  have hk := Table.get?_eq_some_of_mem hkeys (hes.mem_iff.1 he)
  have hk' := Table.get?_eq_some_of_mem hkeys (hes.mem_iff.1 he')
  by_cases hid : e.1 = e'.1
  · rw [hid, hk'] at hk
    obtain rfl : e' = e := Prod.ext hid.symm (Option.some.inj hk)
    rfl
  · exact Mark.deliver_comm (h _ _ _ _ hk hk' hid)

theorem foldl_deliver_of_kept {es : List (Nat × Mark)}
    (h : ∀ e ∈ es, e.2.deliver gs m e.1 = m) :
    es.foldl (fun m e => e.2.deliver gs m e.1) m = m := by
  induction es with
  | nil => rfl
  | cons e es ih =>
    rw [List.foldl_cons, h e List.mem_cons_self]
    exact ih fun e he => h e (List.mem_cons_of_mem _ he)

theorem Unshared.deliver_again (h : Unshared marks) (hkeys : marks.keys.Nodup)
    (hrequest : ∀ e ∈ marks.entries, e.2.request ≠ .add) (m : Memory) :
    let m' := marks.entries.foldl (fun m e => e.2.deliver gs m e.1) m
    marks.entries.foldl (fun m e => e.2.deliver gs m e.1) m' = m' := by
  intro m'
  -- each mark may be served last, and served once more it changes nothing
  have hserved : ∀ e ∈ marks.entries, e.2.deliver gs m' e.1 = m' := by
    intro e he
    obtain ⟨before, behind, hsplit⟩ := List.append_of_mem he
    have hlast : (before ++ behind ++ [e]).Perm marks.entries := by
      rw [hsplit]
      exact (List.perm_append_singleton e _).trans List.perm_middle.symm
    have hm' : e.2.deliver gs
        ((before ++ behind).foldl (fun m e => e.2.deliver gs m e.1) m) e.1 = m' := by
      refine Eq.trans ?_ (h.deliver_perm hkeys hlast m)
      exact Eq.symm List.foldl_append
    rw [← hm', Mark.deliver_deliver (hrequest e he)]
  exact foldl_deliver_of_kept hserved

end Deliveries
end ScopedTensor
