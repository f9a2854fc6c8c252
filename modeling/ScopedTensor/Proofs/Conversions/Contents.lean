import ScopedTensor.Proofs.Agreement.Acceptance
import ScopedTensor.Proofs.Delivery.Deliveries
import ScopedTensor.Proofs.Element.Casting
import ScopedTensor.Proofs.Store.Aliasing
import ScopedTensor.Proofs.Store.Narrowing

/-! Contents that are stored again. What an array shows is narrowed to its type already, so it comes
through a host buffer, or through another array of the type, as it was. -/

namespace ScopedTensor

open ScopedTensor.Action Binary Library

variable {half : HalfPrecision}

theorem Bytes.pieces_flatMap {α : Type} {f : α → Bytes} {n : Nat} (hn : 0 < n)
    (hf : ∀ x, (f x).length = n) (xs : List α) : pieces n (xs.flatMap f) = xs.map f := by
  have hcons : ∀ p rest : Bytes, p.length = n → pieces n (p ++ rest) = p :: pieces n rest := by
    intro p rest hp
    have hcount : (p ++ rest).length / n = rest.length / n + 1 := by
      rw [List.length_append, hp, Nat.add_comm, Nat.add_div_right _ hn]
    unfold pieces
    rw [hcount, List.range_succ_eq_map, List.map_cons, List.map_map]
    congr 1
    · rw [Nat.zero_mul, List.drop_zero, ← hp, List.take_left]
    · refine List.map_congr_left fun i _ => ?_
      rw [Function.comp_apply, Nat.succ_mul, Nat.add_comm, ← List.drop_drop, ← hp,
        List.drop_left]
  induction xs with
  | nil => simp [pieces]
  | cons x xs ih => rw [List.flatMap_cons, hcons _ _ (hf x), ih, List.map_cons]

namespace ElementType

theorem decode_encode (t : ElementType) (xs : Values) : t.decode (t.encode xs) = xs.map t.cast := by
  unfold decode encode
  rw [Bytes.pieces_flatMap t.bytes_pos t.length_ofDouble, List.map_map]
  rfl

theorem length_encode [HalfPrecision] (t : ElementType) (xs : Values) :
    (t.encode xs).length = t.storageBytes xs.length := by
  induction xs with
  | nil => rfl
  | cons x xs ih =>
    have hcons : t.encode (x :: xs) = t.ofDouble x ++ t.encode xs := rfl
    rw [hcons, List.length_append, ih, length_ofDouble, List.length_cons]
    exact (Nat.add_comm _ _).trans (Nat.mul_succ _ _).symm

end ElementType

section

variable {m : Memory} {v : View} {b : Nat} {t : ElementType}

theorem Memory.map_cast_read (h : ∀ x ∈ m.cells v.buffer, v.type.cast x = x) :
    (m.read v).map v.type.cast = m.read v :=
  (List.map_congr_left fun x hx => h x (List.mem_of_mem_drop (List.mem_of_mem_take hx))).trans
    (List.map_id _)

namespace Memory.Narrow

theorem cast_eq [LawfulHalfPrecision] (h : m.Narrow b t) {x : Binary64} (hx : x ∈ m.cells b) :
    t.cast x = x := by
  rcases h x hx with rfl | ⟨y, rfl⟩
  · exact t.cast_zero
  · exact t.cast_cast y

theorem map_cast [LawfulHalfPrecision] (h : m.Narrow v.buffer v.type) :
    (m.read v).map v.type.cast = m.read v := by
  exact Memory.map_cast_read fun _ => h.cast_eq

theorem write_read [LawfulHalfPrecision] (h : m.Narrow v.buffer v.type) :
    m.write v (m.read v) = m := by
  refine Memory.ext_cells (Memory.length_update ..) fun b k => ?_
  unfold Memory.write
  rw [getElem?_update]
  cases hold : (m.cells b)[k]? with
  | none => rfl
  | some old =>
    rw [Option.map_some]
    split
    · rename_i hcovers
      obtain ⟨rfl, hle, hlt⟩ := hcovers
      rw [getElem?_read, if_pos (by omega), Nat.add_sub_cancel' hle, hold]
      exact congrArg some (h.cast_eq (List.mem_of_getElem? hold))
    · rfl

end Memory.Narrow

end

namespace Reference

open State

variable {gpus : Nat} {s : State} {h g : Handle} {e d : Entry} {v : View} {xs : Values}

theorem State.Narrowed.map_contents [LawfulHalfPrecision] (hs : s.Narrowed) (hbounded : s.Bounded)
    (he : s.entries.get? h.id = some e) :
    (s.contents e.view).map e.view.type.cast = s.contents e.view :=
  ((hs.drained hbounded).cells e.view (.entry he)).map_cast

theorem copyIn_encode (hs : s.Orderly) (he : s.entries.get? h.id = some e)
    (hxs : xs.length = e.view.size) :
    copyIn h (e.view.type.encode xs) e.view.size s = .ok ⟨⟩
      { s.drained with
        memory := s.drained.memory.write e.view (xs.map e.view.type.cast) } := by
  have hbytes := e.view.type.length_encode xs
  have hfits : ¬ (e.view.size ≠ e.view.size ∨
      (e.view.type.encode xs).length ≠ e.view.size * e.view.type.bytes) := by
    rw [hbytes, hxs, ElementType.storageBytes, Nat.mul_comm]
    simp
  unfold copyIn
  rw [bind_of_ok (viewOf_eq he), if_neg hfits]
  refine (hs.drain_bind _).trans ?_
  rw [ElementType.decode_encode]
  rfl

theorem contents_copyIn (hs : s.Orderly) (hbounded : s.Bounded) (he : s.entries.get? h.id = some e)
    (hxs : xs.length = e.view.size) (hnarrow : xs.map e.view.type.cast = xs) :
    ∃ t, copyIn h (e.view.type.encode xs) e.view.size s = .ok ⟨⟩ t ∧ t.contents e.view = xs := by
  have hfits : s.drained.memory.Fits e.view := (writes_runAll _ _).fits (hbounded _ (.entry he))
  refine ⟨_, copyIn_encode hs he hxs, ?_⟩
  rw [State.contents, State.drained_eq rfl, hnarrow, hfits.read_write hxs, hnarrow]

theorem copyIn_contents [LawfulHalfPrecision] (hs : s.Narrowed) (horderly : s.Orderly)
    (hbounded : s.Bounded) (he : s.entries.get? h.id = some e) :
    copyIn h (e.view.type.encode (s.contents e.view)) e.view.size s.drained =
      .ok ⟨⟩ s.drained := by
  have hlength := hbounded.length_contents (.entry he)
  rw [copyIn_encode horderly.settled.orderly he hlength, State.drained_eq (s := s.drained) rfl,
    hs.map_contents hbounded he]
  have hcells := (hs.drained hbounded).cells e.view (.entry he)
  unfold State.contents
  rw [hcells.write_read]

theorem contents_allocate [HalfPrecision] (hs : s.Orderly) (he : s.entries.get? h.id = some e)
    (shape : Shape) (type : ElementType) (device : Device) (storage : Storage) :
    (s.allocate shape type device storage).2.contents e.view = s.contents e.view := by
  have hdrained := congrArg (fun r : Handle × State => r.2.memory.read e.view)
    (hs.allocate_drained shape type device storage)
  refine hdrained.symm.trans (Memory.read_grow ?_ [List.replicate shape.size .zero])
  rw [hs.length_drained]
  exact hs.entry_bound (entry_eq_ok.2 he)

theorem contents_copyTo (hs : s.Orderly) (hbounded : s.Bounded)
    (he : s.entries.get? h.id = some e) (hd : s.entries.get? g.id = some d)
    (hsize : d.view.size = e.view.size) (tape : Tape) :
    (State.enqueue { s with tape } ⟨.copyTo, .empty, [e.view], [d.view]⟩).contents d.view =
      (s.contents e.view).map d.view.type.cast := by
  have hlength := hbounded.length_contents (.entry he)
  have hfits : s.drained.memory.Fits d.view := (writes_runAll _ _).fits (hbounded _ (.entry hd))
  have hrun : Task.run ⟨.copyTo, .empty, [e.view], [d.view]⟩ s.drained.memory =
      some (.ok (s.drained.memory.write d.view (s.contents e.view))) := rfl
  have hlast : (runAll (s.queue ++ [⟨.copyTo, .empty, [e.view], [d.view]⟩]) s.memory).1 =
      s.drained.memory.write d.view (s.contents e.view) := by
    rw [(runAll_append (hs.runs []).run _).1, runAll_cons hrun]
    rfl
  have hcontents : (State.enqueue { s with tape } ⟨.copyTo, .empty, [e.view], [d.view]⟩).contents
      d.view = (s.drained.memory.write d.view (s.contents e.view)).read d.view :=
    congrArg (fun m : Memory => m.read d.view) hlast
  rw [hcontents, hfits.read_write (hlength.trans hsize.symm)]

end Reference
end ScopedTensor
