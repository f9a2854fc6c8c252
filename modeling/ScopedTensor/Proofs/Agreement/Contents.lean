import ScopedTensor.Proofs.Agreement.Acceptance

/-! Contents shown row by row. The views that are made on the way are given back, the array that is
shown stays as it is, and the engine refuses nothing. -/

namespace ScopedTensor

open ScopedTensor.Action Reference

variable {half : HalfPrecision}
variable {i n : Nat} {s u : State} {b c : Backends} {h : Handle} {e : Entry} {t : ElementType}

namespace Backends

/-- The `i`th engine can go on, and has the entries that it had at `s`; newer ones may have come. -/
structure Retains (i : Nat) (s : State) (b : Backends) : Prop where
  place : i < b.references.length
  orderly : (b.reference i).Orderly
  numbered : (b.reference i).Numbered
  lastId : s.lastId ≤ (b.reference i).lastId
  entries : ∀ id ≤ s.lastId, (b.reference i).entries.get? id = s.entries.get? id

theorem Retains.self (hb : b.Retains i s) : b.Retains i (b.reference i) :=
  { hb with lastId := Nat.le_refl _, entries := fun _ _ => rfl }

theorem Retains.trans (hb : b.Retains i s) (hc : c.Retains i (b.reference i)) : c.Retains i s :=
  { hc with
    lastId := Nat.le_trans hb.lastId hc.lastId
    entries := fun id hid =>
      (hc.entries id (Nat.le_trans hid hb.lastId)).trans (hb.entries id hid) }

theorem Retains.entry (hb : b.Retains i s) (hs : s.Numbered) (he : s.entries.get? h.id = some e) :
    (b.reference i).entries.get? h.id = some e :=
  (hb.entries h.id (hs h.id e he)).trans he

theorem Retains.called (hb : b.Retains i s) {α : Type} {call : Library.Call} {a : Action State α}
    {g : α → Library.Answer} (hcall : call.perform (library n) = g <$> a)
    (hu : a.after (b.reference i) = u)
    (hentries : ∀ id ≤ s.lastId, u.entries.get? id = (b.reference i).entries.get? id) :
    Retains i s { b with references := b.references.set i u } := by
  obtain rfl : call.step (library n) (b.reference i) = u :=
    (Library.Call.step_of_map hcall _).trans hu
  have hnumbers := numbers_step n (b.reference i) call
  refine ⟨by simpa using hb.place, ?_, ?_, ?_, fun id hid => ?_⟩
  · rw [reference_set_self hb.place]
    exact orderly_step hb.orderly call
  · rw [reference_set_self hb.place]
    exact hnumbers.numbered hb.numbered
  · rw [reference_set_self hb.place]
    exact Nat.le_trans hb.lastId hnumbers.lastId
  · rw [reference_set_self hb.place]
    exact (hentries id hid).trans (hb.entries id hid)

end Backends

namespace Dump

open Backends

theorem shows_leaf (hs : s.Numbered) (he : s.entries.get? h.id = some e) (ht : e.view.type = t)
    {k : Nat} (hk : e.view.size = k) :
    Meets (Retains i s) (leaf (referenceLibrary i n) t h k) (fun _ => Retains i s) fun _ => False := by
  subst ht hk
  refine .of_state fun b hb => ?_
  have hout := copyOut_accepted hb.orderly (hb.entry hs he)
  have hcopied : (referenceLibrary i n).copyOut h (e.view.type.storageBytes e.view.size) e.view.size
      b = _ := inPlace_ok.2 ⟨_, hout, rfl⟩
  have hcall : (Library.Call.copyOut h (e.view.type.storageBytes e.view.size) e.view.size).perform
      (library n) = .bytes <$> copyOut h _ _ := rfl
  have hretained := hb.called hcall (after_ok hout) fun _ _ => rfl
  exact Meets.bind (.of_eq hcopied hretained) fun _ => .pure fun _ hb => hb

theorem retains_free (hv : s.lastId < h.id) :
    Keeps (Retains i s) ((referenceLibrary i n).free h) := by
  refine .of_after fun b hb => ?_
  have hcall : (Library.Call.free h).perform (library n) = (fun _ => .done) <$> free h := rfl
  have hretained := hb.called hcall rfl fun id hid => ?_
  · rwa [← after_zoom (fun b => Backends.reference b i)
      (fun s b => { b with references := b.references.set i s })] at hretained
  · obtain ⟨marks, hafter⟩ := after_free h (b.reference i)
    rw [hafter, Table.get?_erase, if_neg (by omega)]

theorem shows_row (hs : s.Numbered) (he : s.entries.get? h.id = some e) {k : Nat} {w : View}
    (hw : rowOf k e.view = .ok w) {render : Handle → Action Backends String}
    (hrender : ∀ (s : State) v, s.Numbered → s.entries.get? v.id = some { e with view := w } →
      Meets (Retains i s) (render v) (fun _ => Retains i s) fun _ => False) :
    Meets (Retains i s) (throughRow (referenceLibrary i n) h k render) (fun _ => Retains i s)
      fun _ => False := by
  refine .of_state fun b hb => ?_
  obtain ⟨v, u, hmade⟩ : ∃ v u, (b.reference i).insert { e with view := w } = (v, u) := ⟨_, _, rfl⟩
  have hv : v.id = (b.reference i).lastId + 1 := congrArg (fun p => p.1.id) hmade.symm
  have hu : u.entries = (b.reference i).entries.insert ((b.reference i).lastId + 1)
      { e with view := w } := congrArg (fun p => p.2.entries) hmade.symm
  have hnew : s.lastId < v.id := by
    have hlast := hb.lastId
    omega
  have hderive : derive h (rowOf k) (b.reference i) = .ok v u :=
    derive_eq_ok.2 ⟨e, w, hb.entry hs he, hw, hmade⟩
  have hrow : (referenceLibrary i n).row h k b = _ := inPlace_ok.2 ⟨u, hderive, rfl⟩
  have hcall : (Library.Call.row h k).perform (library n) = .handle <$> derive h (rowOf k) := rfl
  have hretained := hb.called hcall (after_ok hderive) fun id hid => by
    rw [hu, Table.get?_insert, if_neg (by omega)]
  have hreference := reference_set_self hb.place u
  generalize { b with references := b.references.set i u } = c at hrow hretained hreference
  have hentry : (c.reference i).entries.get? v.id = some { e with view := w } := by
    rw [hreference, hu, hv, Table.get?_insert, if_pos rfl]
  have hopen : (OwnedHandle.mk v).isReleased = false := by
    simp [OwnedHandle.isReleased, Handle.isNull, hv]
  have hrendered : Meets (Retains i (c.reference i))
      (do render (← Action.ofExcept (OwnedHandle.mk v).get)) (fun _ => Retains i (c.reference i))
      fun _ => False := by
    rw [OwnedHandle.get_eq_ok.2 ⟨hopen, rfl⟩]
    exact hrender (c.reference i) v hretained.numbered hentry
  refine Meets.bind (Meets.of_eq (Q := fun x t => x = v ∧ t = c) hrow ⟨rfl, rfl⟩) fun x =>
    .of_state fun d hd => ?_
  obtain ⟨rfl, rfl⟩ := hd
  refine (hrendered.outcome.start hretained.self).bind fun text => ?_
  cases text with
  | error x => exact fun _ hnone => hnone.elim
  | ok text =>
    have hfreed : Meets (Retains i s) (OwnedHandle.release ⟨x⟩ (referenceLibrary i n))
        (fun _ => Retains i s) fun _ => False := by
      unfold OwnedHandle.release
      rw [if_neg (by simp [hopen])]
      exact (retains_free hnew).quietly.bind fun _ => .pure fun _ hb => hb
    exact (hfreed.of_imp fun _ => hretained.trans).bind fun _ => .pure fun _ hb => hb

theorem shows_rows {f : Nat → Action Backends String} {P : Backends → Prop} (ks : List Nat)
    (h : ∀ k ∈ ks, Meets P (f k) (fun _ => P) fun _ => False) :
    Meets P (ks.mapM f) (fun _ => P) fun _ => False := by
  induction ks with
  | nil => exact .pure fun _ hb => hb
  | cons k ks ih =>
    rw [List.mapM_cons]
    refine (h k List.mem_cons_self).bind fun _ => ?_
    exact (ih fun k hk => h k (List.mem_cons_of_mem _ hk)).bind fun _ => .pure fun _ hb => hb

theorem shows_level [HalfPrecision] (t : ElementType) (dims : List Nat) (depth : Nat) :
    ∀ {s : State} {h : Handle} {e : Entry}, s.Numbered → s.entries.get? h.id = some e →
      e.view.type = t → e.view.shape = ⟨dims⟩ →
        Meets (Retains i s) (level (referenceLibrary i n) t dims depth h) (fun _ => Retains i s)
          fun _ => False := by
  have hsize : ∀ {e : Entry} {dims : List Nat}, e.view.shape = ⟨dims⟩ →
      e.view.size = dims.foldr (· * ·) 1 := fun h => congrArg Shape.size h
  induction dims generalizing depth with
  | nil =>
    intro s h e hs he ht hdims
    exact (shows_leaf hs he ht (hsize hdims)).bind fun _ => .pure fun _ hb => hb
  | cons k dims ih =>
    intro s h e hs he ht hdims
    cases dims with
    | nil =>
      have hk : e.view.size = k := (hsize hdims).trans (Nat.mul_one k)
      exact (shows_leaf hs he ht hk).bind fun _ => .pure fun _ hb => hb
    | cons m dims =>
      refine (shows_rows _ fun j hj => ?_).bind fun _ => .pure fun _ hb => hb
      have hj : j < k := by
        have hmin := List.mem_range.1 hj
        omega
      have hrow : rowOf j e.view = .ok (e.view.window (j * (e.view.size / k)) ⟨m :: dims⟩) := by
        unfold rowOf
        simp only [hdims, if_neg (Nat.not_le.2 hj)]
        rfl
      exact shows_row hs he hrow fun s v hs hv => ih (depth + 1) hs hv ht rfl

end Dump
end ScopedTensor
