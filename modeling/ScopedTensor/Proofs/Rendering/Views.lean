import ScopedTensor.Proofs.Adjoint.Passes
import ScopedTensor.Proofs.Conversions.Contents
import ScopedTensor.Proofs.Ownership.Atomicity
import ScopedTensor.Proofs.Ownership.Audit
import ScopedTensor.Proofs.Rendering.Text

/-! Contents shown through views of rows. Every view is made for one row and given back once it was
shown, or once showing it has failed, and the arrays that were there are as they were. -/

namespace ScopedTensor

open ScopedTensor.Action Binary Reference

variable {half : HalfPrecision}

/-- From `s` to `t` so many handles were issued and freed again. The arrays are those of before, and
host copies of them read what they would have read. -/
structure Reference.State.Perused [HalfPrecision] (k : Nat) (s t : State) : Prop where
  entries : t.entries = s.entries
  memory : t.drained.memory = s.drained.memory
  lastId : t.lastId = s.lastId + k
  created : t.created = s.created + k
  freeCalls : t.freeCalls = s.freeCalls + k

/-- Moreover the handles that were freed are those that were issued, each of them once. -/
structure Audited.Perused [HalfPrecision] (k : Nat) (s t : Audited State) : Prop where
  native : s.native.Perused k t.native
  orderly : t.native.Orderly
  numbered : t.native.Numbered
  frees : ∃ new, t.frees = new ++ s.frees ∧
    new.Perm ((List.range' (s.native.lastId + 1) k).map fun id => (⟨id⟩, true))

variable {gpus k l i n : Nat} {s t u w : Audited State} {lib : Library State} {h v : Handle}
variable {e : Entry} {type : ElementType}

namespace Audited.Perused

theorem refl (horderly : s.native.Orderly) (hnumbered : s.native.Numbered) : Perused 0 s s where
  native := ⟨rfl, rfl, rfl, rfl, rfl⟩
  orderly := horderly
  numbered := hnumbered
  frees := ⟨[], rfl, .nil⟩

theorem trans (hst : Perused k s t) (htu : Perused l t u) : Perused (k + l) s u where
  native :=
    { entries := htu.native.entries.trans hst.native.entries
      memory := htu.native.memory.trans hst.native.memory
      lastId := by rw [htu.native.lastId, hst.native.lastId, Nat.add_assoc]
      created := by rw [htu.native.created, hst.native.created, Nat.add_assoc]
      freeCalls := by rw [htu.native.freeCalls, hst.native.freeCalls, Nat.add_assoc] }
  orderly := htu.orderly
  numbered := htu.numbered
  frees := by
    obtain ⟨early, hearly, hperm⟩ := hst.frees
    obtain ⟨late, hlate, hperm'⟩ := htu.frees
    have hrange : List.range' (s.native.lastId + 1) (k + l) =
        List.range' (s.native.lastId + 1) k ++ List.range' (t.native.lastId + 1) l := by
      rw [hst.native.lastId, Nat.add_right_comm, List.range'_append_1]
    refine ⟨late ++ early, by rw [hlate, hearly, List.append_assoc], ?_⟩
    rw [hrange, List.map_append]
    exact List.perm_append_comm.trans (hperm.append hperm')

end Audited.Perused

/-- A handle was issued for a view, and it is live. -/
structure Audited.Issued (s : Audited State) (e : Entry) (v : Handle) (t : Audited State) :
    Prop where
  inserted : s.native.insert e = (v, t.native)
  frees : t.frees = s.frees

/-- The handle is live, and at each position of the array it holds `x` of it. -/
structure Reference.State.Displays [HalfPrecision] (s : State) (h : Handle) (e : Entry)
    (x : List Nat → Binary64) : Prop where
  live : s.entries.get? h.id = some e
  exact : ∀ x ∈ s.drained.memory.cells e.view.buffer, e.view.type.cast x = x
  elements : ∀ is, e.view.shape.Has is → (s.contents e.view)[e.view.shape.place is]? = some (x is)

section Calls

variable (hs : s.native.Orderly) (hnumbered : s.native.Numbered)
include hs hnumbered

omit hs in
theorem Audited.Issued.released (hlib : Offered gpus lib) (h : s.Issued e v t)
    (ht : t.Perused k u) :
    ∃ w, OwnedHandle.release ⟨v⟩ lib.audited u = .ok (true, ⟨⟨0⟩⟩) w ∧ s.Perused (k + 1) w := by
  obtain ⟨name, offers, rfl⟩ := hlib
  obtain ⟨hv, hnative⟩ := Prod.mk.inj h.inserted
  have hid : v.id = s.native.lastId + 1 := congrArg Handle.id hv.symm
  have hfresh : s.native.entries.get? (s.native.lastId + 1) = none := by
    cases hget : s.native.entries.get? (s.native.lastId + 1) with
    | none => rfl
    | some e => exact absurd (hnumbered _ e hget) (Nat.not_succ_le_self _)
  have hentries : u.native.entries = s.native.entries.insert (s.native.lastId + 1) e :=
    ht.native.entries.trans (congrArg State.entries hnative).symm
  have hlive : u.native.entries.get? v.id = some e := by
    rw [hentries, hid, Table.get?_insert, if_pos rfl]
  have hopen : (OwnedHandle.mk v).isReleased = false := by
    simp [OwnedHandle.isReleased, Handle.isNull, hid]
  obtain ⟨n, hfree, hn⟩ : ∃ n, free v u.native = .ok () n ∧ n = { u.native with
      freeCalls := u.native.freeCalls + 1
      entries := u.native.entries.erase v.id
      tape := u.native.tape.unmark v.id } := by
    rcases free_cases v u.native with ⟨hnone, -⟩ | ⟨-, hfree⟩
    · exact absurd (hlive.symm.trans hnone) (Option.some_ne_none e)
    · exact ⟨_, hfree, rfl⟩
  have haudited : ((library gpus).offering name offers).audited.free v u =
      .ok () ⟨n, (v, true) :: u.frees⟩ := by
    have hfree : ((library gpus).offering name offers).free v u.native = .ok () n := hfree
    simp only [Library.audited, hfree]
  refine ⟨⟨n, (v, true) :: u.frees⟩, ?_, ?_⟩
  · unfold OwnedHandle.release
    rw [if_neg (by simp [hopen])]
    have hquiet : (((library gpus).offering name offers).audited.free v).quietly u =
        .ok () ⟨n, (v, true) :: u.frees⟩ := by
      unfold Action.quietly
      rw [haudited]
    exact bind_of_ok hquiet
  · have herased : n.entries = s.native.entries := by
      rw [hn]
      show u.native.entries.erase v.id = _
      rw [hentries, hid, Table.erase_insert e hfresh]
    have hlast : n.lastId = s.native.lastId + (k + 1) := by
      have ht := ht.native.lastId
      rw [← hnative] at ht
      rw [hn, ht, Nat.add_comm k]
      exact Nat.add_assoc _ _ _
    have hissued : n.created = s.native.created + (k + 1) := by
      have ht := ht.native.created
      rw [← hnative] at ht
      rw [hn, ht, Nat.add_comm k]
      exact Nat.add_assoc _ _ _
    have hfreed : n.freeCalls = s.native.freeCalls + (k + 1) := by
      have ht := ht.native.freeCalls
      rw [← hnative] at ht
      rw [hn, ht]
      rfl
    have hmemory : n.drained.memory = s.native.drained.memory := by
      have ht := ht.native.memory
      rw [← hnative] at ht
      rw [hn]
      exact ht
    have horderly : n.Orderly := by
      have hcounted : State.Orderly { u.native with freeCalls := u.native.freeCalls + 1 } :=
        ⟨ht.orderly.tasks, ht.orderly.entries, ht.orderly.marks⟩
      rw [hn]
      exact hcounted.erase v.id
    obtain ⟨new, hnew, hperm⟩ := ht.frees
    refine ⟨⟨herased, hmemory, hlast, hissued, hfreed⟩, horderly, ?_, (v, true) :: new, ?_, ?_⟩
    · intro id e he
      rw [herased] at he
      rw [hlast]
      exact Nat.le_add_right_of_le (hnumbered id e he)
    · rw [hnew, h.frees]
      rfl
    · have htlast : t.native.lastId = s.native.lastId + 1 := by
        rw [← hnative]
      rw [htlast] at hperm
      rw [← hv, List.range'_succ, List.map_cons]
      exact hperm.cons _

end Calls

def Audited.Steady [HalfPrecision] (s t : Audited State) : Prop := ∃ k, s.Perused k t

theorem Audited.Steady.trans (hst : s.Steady t) (htu : t.Steady u) : s.Steady u := by
  obtain ⟨k, hk⟩ := hst
  obtain ⟨l, hl⟩ := htu
  exact ⟨k + l, hk.trans hl⟩

theorem Audited.Steady.keeps {α : Type} {a : Action (Audited State) α}
    (ha : ∀ t : Audited State, t.native.Orderly → t.native.Numbered →
      Meets (· = t) a (fun _ => t.Steady) t.Steady) (s : Audited State) : Keeps s.Steady a := by
  refine .of_state fun t ht => ?_
  obtain ⟨k, hk⟩ := ht
  have hlater : ∀ u, t.Steady u → s.Steady u := fun u hu => .trans ⟨k, hk⟩ hu
  exact (ha t hk.orderly hk.numbered).imp (fun _ hu => hu) (fun _ => hlater) hlater

theorem Reference.State.Displays.row {s : State} {x : List Nat → Binary64} {m : Nat}
    {dims : List Nat} (h : s.Displays v e x) (hdims : e.view.shape = ⟨n :: m :: dims⟩)
    (hi : i < n) :
    ∃ w, rowOf i e.view = .ok w ∧ w.type = e.view.type ∧ w.shape = ⟨m :: dims⟩ ∧
      (s.insert { e with view := w }).2.Displays (s.insert { e with view := w }).1
        { e with view := w } fun is => x (i :: is) := by
  obtain ⟨w, hrow, hbuffer, htype, hshape⟩ : ∃ w, rowOf i e.view = .ok w ∧
      w.buffer = e.view.buffer ∧ w.type = e.view.type ∧ w.shape = ⟨m :: dims⟩ := by
    unfold rowOf
    simp only [hdims, if_neg (Nat.not_le.2 hi)]
    exact ⟨_, rfl, rfl, rfl, rfl⟩
  have hexact : ∀ x ∈ s.drained.memory.cells w.buffer, w.type.cast x = x := by
    rw [hbuffer, htype]
    exact h.exact
  have horigin : ∀ is, (Derivation.row i).origin e.view.shape w.shape is = i :: is := by
    intro is
    have hrank : e.view.shape.rank ≠ 1 := by simp [hdims, Shape.rank]
    exact if_neg hrank
  have hshows := Derivation.shows_row hrow
  refine ⟨w, hrow, htype, hshape, Table.get?_insert_eq_some.2 (.inl ⟨rfl, rfl⟩), hexact, ?_⟩
  intro is his
  have hread := hshows.read s.drained.memory (Shape.place_lt his)
  have hhas := hshows.valid is his
  rw [Shape.index_place his, horigin] at hread
  rw [horigin] at hhas
  exact hread.trans (h.elements _ hhas)

section Shown

variable (hs : s.native.Orderly) (hnumbered : s.native.Numbered) {x : List Nat → Binary64}
include hs hnumbered

end Shown

end ScopedTensor
