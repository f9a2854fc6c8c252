import ScopedTensor.Proofs.Store.Bounds

/-! The elements of a buffer have one type. A buffer itself has none, but all views of it that are in
use agree on one, and every cell is the zero it was made with or has been narrowed to that type,
whichever way it was written. -/

namespace ScopedTensor

open Binary Reference

variable {half : HalfPrecision}

/-- Every cell of the buffer is zero or was narrowed to the type. -/
def Memory.Narrow [HalfPrecision] (m : Memory) (b : Nat) (t : ElementType) : Prop :=
  ∀ x ∈ m.cells b, x = .zero ∨ ∃ y, x = t.cast y

namespace Memory.Narrow

variable {m : Memory} {b : Nat} {t : ElementType}

theorem update (h : m.Narrow b t) {v : View} (hv : v.buffer = b → v.type = t)
    {f : Binary64 → Binary64 → Binary64} (hf : ∀ old x, ∃ y, f old x = v.type.cast y) (xs : Values) :
    (m.update v f xs).Narrow b t := by
  intro x hx
  obtain ⟨k, hk⟩ := List.getElem?_of_mem hx
  rw [getElem?_update] at hk
  obtain ⟨old, hold, rfl⟩ := Option.map_eq_some_iff.1 hk
  have hkept := h old (List.mem_of_getElem? hold)
  split
  · rename_i hcovers
    cases xs[k - v.offset]? with
    | none => exact hkept
    | some z =>
      obtain ⟨y, hy⟩ := hf old z
      exact .inr ⟨y, by rw [Option.elim_some, hy, hv hcovers.1]⟩
  · exact hkept

theorem write (h : m.Narrow b t) {v : View} (hv : v.buffer = b → v.type = t) (xs : Values) :
    (m.write v xs).Narrow b t := h.update hv (fun _ x => ⟨x, rfl⟩) xs

theorem accumulate (h : m.Narrow b t) {v : View} (hv : v.buffer = b → v.type = t) (xs : Values) :
    (m.accumulate v xs).Narrow b t := h.update hv (fun old x => ⟨old + x, rfl⟩) xs

theorem writeAll {rs : List (View × Values)} (hrs : ∀ r ∈ rs, r.1.buffer = b → r.1.type = t) :
    ∀ {m : Memory}, m.Narrow b t → (m.writeAll rs).Narrow b t := by
  induction rs with
  | nil => exact id
  | cons r rs ih =>
    intro m h
    exact ih (fun p hp => hrs p (List.mem_cons_of_mem _ hp)) (h.write (hrs r List.mem_cons_self) _)

theorem deliver {gs : Gradients} {es : List (Nat × Mark)}
    (hes : ∀ e ∈ es, e.2.gradient.buffer = b → e.2.gradient.type = t) : ∀ {m : Memory},
      m.Narrow b t → (es.foldl (fun m e => e.2.deliver gs m e.1) m).Narrow b t := by
  induction es with
  | nil => exact id
  | cons e es ih =>
    intro m h
    have he := hes e List.mem_cons_self
    have hfirst : (e.2.deliver gs m e.1).Narrow b t := by
      unfold Mark.deliver
      split
      · exact h
      · split
        · exact h
        · exact h.write he _
        · exact h.accumulate he _
    exact ih (fun p hp => hes p (List.mem_cons_of_mem _ hp)) hfirst

theorem runAll {ts : List Task} (hts : ∀ k ∈ ts, ∀ v ∈ k.outputs, v.buffer = b → v.type = t) :
    m.Narrow b t → (State.runAll ts m).1.Narrow b t := by
  refine runAll_preserves (P := fun m => m.Narrow b t) fun k hk m m' hm hrun => ?_
  obtain ⟨results, rfl⟩ := Task.exists_of_run hrun
  exact hm.writeAll fun r hr => hts k hk r.1 (List.of_mem_zip hr).1

end Memory.Narrow

namespace Reference

/-- The views in use agree on the type of each buffer, and its cells are narrowed to it. -/
structure State.Narrowed [HalfPrecision] (s : State) : Prop where
  one : ∀ v w, s.Holds v → s.Holds w → v.buffer = w.buffer → v.type = w.type
  cells : ∀ v, s.Holds v → s.memory.Narrow v.buffer v.type

variable {s t : State} {v : View}

theorem State.Narrowed.narrow (hs : s.Narrowed) (hbounded : s.Bounded) (h : s.Change t)
    (hv : s.Holds v) : t.memory.Narrow v.buffer v.type := by
  have hcells := hs.cells v hv
  have hone : ∀ w, s.Holds w → w.buffer = v.buffer → w.type = v.type := fun w hw =>
    hs.one w v hw hv
  cases h with
  | count | derive | reveal | erase | switch | enlist | mark => exact hcells
  | allocate shape type device storage =>
    have hkept : (s.memory.grow [List.replicate shape.size .zero]).cells v.buffer =
        s.memory.cells v.buffer := List.getD_append _ _ _ _ (hbounded v hv).buffer
    intro x hx
    exact hcells x (hkept ▸ hx)
  | drain => exact hcells.runAll fun k hk w hw => hone w (.task hk (List.mem_append_right _ hw))
  | write he values => exact hcells.write (hone _ (.entry he)) values
  | deliver gs => exact hcells.deliver fun e he => hone _ (.mark he)

theorem State.Bounded.ne_allocate (hbounded : s.Bounded) {w : View} (hw : s.Holds w)
    (hpart : v.Part w) (shape : Shape) (type : ElementType) :
    v.buffer ≠ (s.memory.allocate shape type).1.buffer := by
  rw [hpart.buffer]
  exact Nat.ne_of_lt (hbounded w hw).buffer

theorem State.Narrowed.change (hs : s.Narrowed) (hbounded : s.Bounded) (h : s.Change t) :
    t.Narrowed where
  one v w hv hw hbuffer := by
    rcases h.holds hv with ⟨v', hv', hpart⟩ | ⟨shape, type, device, storage, ht, rfl⟩
    · rcases h.holds hw with ⟨w', hw', hpart'⟩ | ⟨shape, type, device, storage, -, rfl⟩
      · rw [hpart.type, hpart'.type]
        exact hs.one v' w' hv' hw' (hpart.buffer.symm.trans (hbuffer.trans hpart'.buffer))
      · exact absurd hbuffer (hbounded.ne_allocate hv' hpart shape type)
    · rcases h.holds hw with ⟨w', hw', hpart⟩ | ⟨shape', type', device', storage', ht', rfl⟩
      · exact absurd hbuffer.symm (hbounded.ne_allocate hw' hpart shape type)
      · have hentry := congrArg (fun u => u.entries.get? (s.lastId + 1)) (ht.symm.trans ht')
        simp only [State.allocate, State.insert, Table.get?_insert, if_true] at hentry
        exact congrArg (fun e => e.view.type) (Option.some.inj hentry)
  cells v hv := by
    rcases h.holds hv with ⟨w, hw, hpart⟩ | ⟨shape, type, device, storage, rfl, rfl⟩
    · rw [hpart.buffer, hpart.type]
      exact hs.narrow hbounded h hw
    · intro x hx
      have hfresh : (s.memory.allocate shape type).2.cells s.memory.buffers.length =
          List.replicate shape.size .zero := by
        unfold Memory.cells Memory.allocate
        simp [List.getD_eq_getElem?_getD]
      exact .inl (List.eq_of_mem_replicate (hfresh ▸ hx))

theorem narrowed_run (gpus : Nat) (cs : List Library.Call) :
    (Library.Call.run (library gpus) cs .initial).Narrowed := by
  have hall : State.Bounded _ ∧ State.Narrowed _ := holds_run
    (P := fun s => s.Bounded ∧ s.Narrowed) ⟨bounded_run gpus [], ⟨fun v _ hv => ?_, fun v hv => ?_⟩⟩
    (fun s t _ hs h => ⟨hs.1.change h, hs.2.change hs.1 h⟩) gpus cs
  · exact hall.2
  · cases hv with
    | entry h | task h | node h | mark h => exact absurd h nofun
  · cases hv with
    | entry h | task h | node h | mark h => exact absurd h nofun

theorem State.Narrowed.drained (hs : s.Narrowed) (hbounded : s.Bounded) : s.drained.Narrowed :=
  hs.change hbounded .drain

end Reference
end ScopedTensor
