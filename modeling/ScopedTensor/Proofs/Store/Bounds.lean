import ScopedTensor.Proofs.Adjoint.Frames
import ScopedTensor.Proofs.Store.Changes

/-! Views stay inside their buffers. A buffer never changes its length, and a view is never made but
of a whole new buffer or as a part of one that is held already. -/

namespace ScopedTensor

open Reference

variable {half : HalfPrecision}

/-- All cells of the view are there. -/
structure Memory.Fits (m : Memory) (v : View) : Prop where
  buffer : v.buffer < m.buffers.length
  cells : v.offset + v.size ≤ (m.cells v.buffer).length

/-- Every cell of `w` is one of `v`, with elements of the same type. -/
structure View.Part (w v : View) : Prop where
  type : w.type = v.type
  buffer : w.buffer = v.buffer
  first : v.offset ≤ w.offset
  last : w.offset + w.size ≤ v.offset + v.size

theorem View.Part.fits {m : Memory} {v w : View} (h : w.Part v) (hv : m.Fits v) : m.Fits w where
  buffer := h.buffer ▸ hv.buffer
  cells := h.buffer ▸ Nat.le_trans h.last hv.cells

theorem Memory.Writes.fits {ws : List View} {m m' : Memory} {v : View}
    (h : Memory.Writes ws m m') (hv : m.Fits v) : m'.Fits v where
  buffer := Nat.lt_of_lt_of_le hv.buffer h.length_le
  cells := by
    rw [h.length _ hv.buffer]
    exact hv.cells

theorem Memory.Fits.length_read {m : Memory} {v : View} (h : m.Fits v) :
    (m.read v).length = v.size := by
  have hcells := h.cells
  unfold Memory.read
  rw [List.length_take, List.length_drop]
  omega

theorem Memory.fits_allocate (m : Memory) (shape : Shape) (type : ElementType) :
    (m.allocate shape type).2.Fits (m.allocate shape type).1 := by
  constructor
  · simp [Memory.allocate]
  · simp [Memory.allocate, Memory.cells, View.size]

namespace Shape

theorem size_cons (n : Nat) (ds : List Nat) : (Shape.mk (n :: ds)).size = n * (Shape.mk ds).size :=
  rfl

theorem size_reshape? {s r : Shape} {target : List Int} (h : s.reshape? target = some r) :
    r.size = s.size := by
  have key : ∀ q : Shape, (if q.size = s.size then some q else none) = some r →
      r.size = s.size := by
    intro q hq
    split at hq
    · rename_i hsize
      rw [← Option.some.inj hq]
      exact hsize
    · exact absurd hq nofun
  unfold reshape? at h
  split at h
  · exact absurd h nofun
  · obtain ⟨⟨entries, known⟩, -, h⟩ := Option.bind_eq_some_iff.1 h
    simp only at h
    split at h
    · split at h
      · exact absurd h nofun
      · exact key _ h
    · exact key _ h

end Shape

/-- The shape below the leading axis, as an array shows it: a number is shown as a row of one. -/
def rowShape (rest : List Nat) : Shape := ⟨if rest.isEmpty then [1] else rest⟩

theorem size_rowShape (rest : List Nat) : (rowShape rest).size = (Shape.mk rest).size := by
  cases rest <;> rfl

namespace Reference

theorem rowOf_eq_ok {index : Nat} {v w : View} (h : rowOf index v = .ok w) :
    ∃ n rest, v.shape.dims = n :: rest ∧ index < n ∧
      w = v.window (index * (Shape.mk rest).size) (rowShape rest) := by
  unfold rowOf at h
  split at h
  · exact absurd h nofun
  · rename_i n rest hdims
    split at h
    · exact absurd h nofun
    · rename_i hindex
      have hsize : v.size = n * (Shape.mk rest).size := by
        rw [← Shape.size_cons, ← hdims]
        rfl
      refine ⟨n, rest, hdims, by omega, ?_⟩
      rw [← Except.ok.inj h, hsize, Nat.mul_div_cancel_left _ (by omega)]
      rfl

theorem sliceOf_eq_ok {first last : Nat} {v w : View} (h : sliceOf first last v = .ok w) :
    ∃ n rest, v.shape.dims = n :: rest ∧ first < last ∧ last ≤ n ∧
      w = v.window (first * (Shape.mk rest).size) ⟨(last - first) :: rest⟩ := by
  unfold sliceOf at h
  split at h
  · exact absurd h nofun
  · rename_i n rest hdims
    split at h
    · exact absurd h nofun
    · rename_i hrange
      have hsize : v.size = n * (Shape.mk rest).size := by
        rw [← Shape.size_cons, ← hdims]
        rfl
      refine ⟨n, rest, hdims, by omega, by omega, ?_⟩
      rw [← Except.ok.inj h, hsize, Nat.mul_div_cancel_left _ (by omega)]
      unfold Shape.withDim
      rw [hdims]
      rfl

theorem reshapeOf_eq_ok {target : List Int} {v w : View} (h : reshapeOf target v = .ok w) :
    ∃ r, r.size = v.size ∧ w = v.reshaped r := by
  unfold reshapeOf at h
  split at h
  · exact absurd h nofun
  · rename_i r hr
    exact ⟨r, Shape.size_reshape? hr, (Except.ok.inj h).symm⟩

theorem Derivation.part (d : Derivation) {v w : View} (h : d.view v = .ok w) : w.Part v := by
  cases d with
  | row index =>
    obtain ⟨n, rest, hdims, hindex, rfl⟩ := rowOf_eq_ok h
    refine ⟨rfl, rfl, Nat.le_add_right _ _, ?_⟩
    have hsize : v.size = n * (Shape.mk rest).size := by
      rw [← Shape.size_cons, ← hdims]
      rfl
    have hle : (index + 1) * (Shape.mk rest).size ≤ n * (Shape.mk rest).size :=
      Nat.mul_le_mul_right _ hindex
    simp only [View.window, View.size, size_rowShape] at hsize ⊢
    rw [Nat.add_one_mul] at hle
    omega
  | slice first last =>
    obtain ⟨n, rest, hdims, hlt, hle, rfl⟩ := sliceOf_eq_ok h
    refine ⟨rfl, rfl, Nat.le_add_right _ _, ?_⟩
    have hsize : v.size = n * (Shape.mk rest).size := by
      rw [← Shape.size_cons, ← hdims]
      rfl
    have hlast : first * (Shape.mk rest).size + (last - first) * (Shape.mk rest).size ≤
        n * (Shape.mk rest).size := by
      rw [← Nat.add_mul]
      exact Nat.mul_le_mul_right _ (by omega)
    simp only [View.window, View.size, Shape.size_cons] at hsize ⊢
    omega
  | reshape target reverse =>
    obtain ⟨r, hsize, rfl⟩ := reshapeOf_eq_ok h
    refine ⟨rfl, rfl, Nat.le_refl _, Nat.le_of_eq ?_⟩
    exact congrArg (v.offset + ·) hsize

/-- The views in use: those of live handles, of tasks that wait, of recorded operators, and those
that gradients go to. -/
inductive State.Holds (s : State) : View → Prop
  | entry {id : Nat} {e : Entry} (he : s.entries.get? id = some e) : Holds s e.view
  | task {t : Task} {v : View} (ht : t ∈ s.queue) (hv : v ∈ t.inputs ++ t.outputs) : Holds s v
  | node {n : Node} {i : Tracked} (hn : n ∈ s.tape.nodes) (hi : i ∈ n.inputs ++ n.outputs) :
    Holds s i.view
  | mark {m : Nat × Mark} (hm : m ∈ s.tape.marks.entries) : Holds s m.2.gradient

/-- No view in use reaches beyond its buffer. -/
def State.Bounded (s : State) : Prop := ∀ v, s.Holds v → s.memory.Fits v

variable {s t : State} {v : View}

theorem State.Holds.mono (h : t.Holds v)
    (he : ∀ id e, t.entries.get? id = some e → s.entries.get? id = some e)
    (hq : ∀ k ∈ t.queue, k ∈ s.queue) (hn : ∀ n ∈ t.tape.nodes, n ∈ s.tape.nodes)
    (hm : ∀ m ∈ t.tape.marks.entries, m ∈ s.tape.marks.entries) : s.Holds v := by
  cases h with
  | entry h => exact .entry (he _ _ h)
  | task ht hv => exact .task (hq _ ht) hv
  | node hmem hi => exact .node (hn _ hmem) hi
  | mark h => exact .mark (hm _ h)

theorem holds_insert {e : Entry} (h : (s.insert e).2.Holds v) : s.Holds v ∨ v = e.view := by
  cases h with
  | entry h =>
    rcases Table.get?_insert_eq_some.1 h with ⟨-, rfl⟩ | ⟨-, h⟩
    · exact .inr rfl
    · exact .inl (.entry h)
  | task ht hv => exact .inl (.task ht hv)
  | node hn hi => exact .inl (.node hn hi)
  | mark h => exact .inl (.mark h)

theorem State.Admits.holds {n : Node} (hn : s.Admits n) {i : Tracked}
    (hi : i ∈ n.inputs ++ n.outputs) : s.Holds i.view := by
  have hshows : s.Shows i := (List.mem_append.1 hi).elim (hn.inputs i) (hn.outputs i)
  obtain ⟨e, he, hview⟩ := hshows
  exact hview ▸ .entry he

theorem holds_enlist {n : Node} (hn : s.Admits n) (h : (s.enlist n).Holds v) : s.Holds v := by
  cases h with
  | entry h => exact .entry h
  | mark h => exact .mark (s.tape.marks_record n ▸ h)
  | task ht hv =>
    rcases List.mem_append.1 ht with ht | ht
    · exact .task ht hv
    · obtain rfl := List.mem_singleton.1 ht
      unfold Node.task at hv
      rw [← List.map_append] at hv
      obtain ⟨i, hi, rfl⟩ := List.mem_map.1 hv
      exact hn.holds hi
  | node hmem hi =>
    rcases Tape.mem_nodes_record hmem with hmem | rfl
    · exact .node hmem hi
    · exact hn.holds hi

theorem State.Change.writes (h : s.Change t) : ∃ ws, Memory.Writes ws s.memory t.memory := by
  cases h with
  | allocate shape type device storage => exact ⟨[], Memory.writes_grow _ _⟩
  | drain => exact ⟨_, writes_runAll _ _⟩
  | write he values => exact ⟨_, Memory.writes_write _ _ _⟩
  | deliver gs => exact ⟨_, writes_deliver _ _ _⟩
  | count | derive | reveal | erase | switch | enlist | mark => exact ⟨[], .refl _⟩

/-- A view that is in use after a change was in use before, or is a part of one that was, or is the
new buffer of an array that has been made. -/
theorem State.Change.holds (h : s.Change t) (hv : t.Holds v) :
    (∃ w, s.Holds w ∧ v.Part w) ∨ ∃ shape type device storage,
      t = (s.allocate shape type device storage).2 ∧ v = (s.memory.allocate shape type).1 := by
  have hsame : s.Holds v → ∃ w, s.Holds w ∧ v.Part w := fun h =>
    ⟨v, h, rfl, rfl, Nat.le_refl _, Nat.le_refl _⟩
  cases h with
  | count | write | deliver =>
    exact .inl (hsame (hv.mono (fun _ _ h => h) (fun _ h => h) (fun _ h => h) fun _ h => h))
  | drain => exact .inl (hsame (hv.mono (fun _ _ h => h) nofun (fun _ h => h) fun _ h => h))
  | allocate shape type device storage =>
    rcases holds_insert hv with hv | rfl
    · exact .inl (hsame (hv.mono (fun _ _ h => h) (fun _ h => h) (fun _ h => h) fun _ h => h))
    · exact .inr ⟨shape, type, device, storage, rfl, rfl⟩
  | derive d he hw =>
    rcases holds_insert hv with hv | rfl
    · exact .inl (hsame hv)
    · exact .inl ⟨_, .entry he, d.part hw⟩
  | reveal device hk =>
    rcases holds_insert hv with hv | rfl
    · exact .inl (hsame hv)
    · exact .inl (hsame (.mark (Table.mem_of_get?_eq_some hk)))
  | erase id =>
    exact .inl (hsame (hv.mono (fun k e he => (Table.get?_erase_eq_some.1 he).2) (fun _ h => h)
      (fun _ h => h) fun _ h => Table.mem_of_mem_erase h))
  | switch recording training nodes hn =>
    refine .inl (hsame (hv.mono (fun _ _ h => h) (fun _ h => h) (fun n hmem => ?_) fun _ h => h))
    rcases hn with rfl | rfl
    · exact hmem
    · exact absurd hmem List.not_mem_nil
  | enlist hn => exact .inl (hsame (holds_enlist hn hv))
  | mark request hx grad hg hshape =>
    cases hv with
    | entry h => exact .inl (hsame (.entry h))
    | task ht hv => exact .inl (hsame (.task ht hv))
    | node hn hi => exact .inl (hsame (.node hn hi))
    | mark h =>
      rcases Table.mem_of_mem_insert h with h | rfl
      · exact .inl (hsame (.mark h))
      · exact .inl (hsame (.entry hg))

theorem State.Bounded.change (hs : s.Bounded) (h : s.Change t) : t.Bounded := by
  intro v hv
  obtain ⟨ws, hws⟩ := h.writes
  rcases h.holds hv with ⟨w, hw, hpart⟩ | ⟨shape, type, device, storage, rfl, rfl⟩
  · exact hws.fits (hpart.fits (hs w hw))
  · exact Memory.fits_allocate _ _ _

theorem bounded_run [HalfPrecision] (gpus : Nat) (cs : List Library.Call) :
    (Library.Call.run (library gpus) cs .initial).Bounded := by
  refine holds_run (fun v hv => ?_) (fun s t _ hs h => hs.change h) gpus cs
  cases hv with
  | entry h | task h | node h | mark h => exact absurd h nofun

end Reference
end ScopedTensor
