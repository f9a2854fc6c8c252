import ScopedTensor.Proofs.Ownership.Updates
import ScopedTensor.Session.Array

/-! What comes of the steps that do not fail: an array comes in, enters a scope that is open, gives
its handle back, leaves its scope, or ends. -/

namespace ScopedTensor

open ScopedTensor.Action

variable {σ : Type}

theorem Handle.eq_null {h : Handle} (hnull : h.isNull = true) : h = ⟨0⟩ := by
  obtain ⟨i⟩ := h
  simpa [Handle.isNull] using hnull

def Tensor.around (engine : LoadedEngine σ) (h : Handle) (known : Option Description) : Tensor σ :=
  { owned := ⟨h⟩
    engine
    shape := known.map Description.shape
    type := known.map Description.type
    device := known.map Description.device
    storage := known.map Description.storage
    name := known.bind Description.name
    readiness := .pending
    owner := none
    gradient := none }

namespace Session

variable {s : Session σ} {E : Session σ → Prop} {owner : Option ScopeId}

theorem onNative_ok {α : Type} {a : Action σ α} {x : α} {n : σ} (h : a s.native = .ok x n) :
    onNative a s = .ok x { s with native := n } := by
  unfold onNative Action.zoom
  rw [h]

theorem array_eq {id : ArrayId} {a : Tensor σ} (ha : s.arrays.get? id = some a) :
    array id s = .ok a s := query_ok.2 ⟨by rw [ha], rfl⟩

theorem scope_eq {S : ScopeId} {c : Scope σ} (hc : s.scopes.get? S = some c) :
    scope S s = .ok c s := query_ok.2 ⟨by rw [hc], rfl⟩

theorem handle_eq {id : ArrayId} {a : Tensor σ} (ha : s.arrays.get? id = some a)
    (howned : a.owned.isReleased = false) : handle id s = .ok a.owned.handle s := by
  refine (bind_of_ok (array_eq ha)).trans ?_
  rw [OwnedHandle.get, if_neg (by simp [howned])]
  rfl

theorem handle_eq_error {id : ArrayId} {a : Tensor σ} (ha : s.arrays.get? id = some a)
    (howned : a.owned.isReleased = true) : handle id s = .error (.invalid .released) s := by
  refine (bind_of_ok (array_eq ha)).trans ?_
  rw [OwnedHandle.get, if_pos howned]
  rfl

def wrapped (s : Session σ) (engine : LoadedEngine σ) (h : Handle) (known : Option Description) :
    Session σ :=
  { s with
    lastId := s.lastId + 1
    arrays := s.arrays.insert (s.lastId + 1) (.around engine h known) }

theorem wrap_eq (s : Session σ) (engine : LoadedEngine σ) (h : Handle)
    (known : Option Description) :
    wrap engine h known s = .ok (s.lastId + 1) (s.wrapped engine h known) := rfl

def entered (s : Session σ) (S : ScopeId) (id : ArrayId) : Session σ :=
  { s with
    scopes := s.scopes.modify S fun c => c.withArrays (c.arrays ++ [id])
    arrays := s.arrays.modify id fun a => a.withOwner (some S) }

def placed (s : Session σ) (owner : Option ScopeId) (id : ArrayId) : Session σ :=
  match owner with
  | none => s
  | some S => s.entered S id

def Admits (owner : Option ScopeId) (s : Session σ) : Prop :=
  ∀ S, owner = some S → s.scopes.openAt S = true

theorem attach_eq (h : s.Admits owner) (id : ArrayId) :
    attach owner id s = .ok ⟨⟩ (s.placed owner id) := by
  cases owner with
  | none => rfl
  | some S =>
    obtain ⟨c, hc, hclosed⟩ := Table.openAt_iff.1 (h S rfl)
    refine bind_ok.2 ⟨c, s, scope_eq hc, ?_⟩
    rw [hclosed]
    rfl

theorem Admits.placed (h : s.Admits owner) (owner' : Option ScopeId) (id : ArrayId) :
    (s.placed owner' id).Admits owner := by
  intro S hS
  cases owner' with
  | none => exact h S hS
  | some T =>
    exact (Table.openAt_modify s.scopes T S
      (f := fun c => c.withArrays (c.arrays ++ [id])) fun _ => rfl).trans (h S hS)

theorem meets_attach_open (owner : Option ScopeId) (id : ArrayId) :
    Meets (Admits (σ := σ) owner) (attach owner id) (fun _ => Admits owner) E :=
  .of_state fun _ ht => .of_eq (attach_eq ht id) (ht.placed owner id)

theorem meets_wrapAll_open (engine : LoadedEngine σ) (owner : Option ScopeId)
    (known : Option Description) (handles : List Handle) :
    Meets (Admits (σ := σ) owner) (wrapAll engine owner known handles)
      (fun ids _ => ids.length = handles.length) E := by
  have hwrap := Meets.mapM (f := fun h => wrap engine h known) (E := E)
    (I := fun left ids s => ids.length + left.length = handles.length ∧ s.Admits owner)
    (fun h left ids s hs => ?_) handles []
  · unfold wrapAll
    refine (hwrap.of_imp fun s hs => ⟨by simp, hs⟩).bind fun ids => ?_
    refine .of_state fun t ⟨hlength, ht⟩ => ?_
    exact ((Meets.forM (I := fun _ => Admits owner)
      (fun id _ => meets_attach_open owner id) ids).start ht).bind fun _ => .pure fun _ _ => hlength
  · refine ⟨?_, hs.2⟩
    rw [← hs.1, List.length_append, List.length_cons]
    simp only [List.length_cons, List.length_nil]
    omega

theorem wrap_attach_eq (h : s.Admits owner) (engine : LoadedEngine σ) (x : Handle)
    (known : Option Description) :
    (do
      let new ← wrap engine x known
      attach owner new
      return new : Action (Session σ) ArrayId) s =
      .ok (s.lastId + 1) ((s.wrapped engine x known).placed owner (s.lastId + 1)) :=
  bind_ok.2 ⟨_, _, wrap_eq s engine x known,
    bind_ok.2 ⟨⟨⟩, _, attach_eq (s := s.wrapped engine x known) h _, rfl⟩⟩

theorem wrapAll_one (h : s.Admits owner) (engine : LoadedEngine σ) (x : Handle)
    (known : Option Description) :
    wrapAll engine owner known [x] s =
      .ok [s.lastId + 1] ((s.wrapped engine x known).placed owner (s.lastId + 1)) := by
  have hwrap : [x].mapM (fun h => wrap engine h known) s =
      .ok [s.lastId + 1] (s.wrapped engine x known) := by
    rw [List.mapM_cons]
    exact bind_ok.2 ⟨_, _, wrap_eq s engine x known, rfl⟩
  have hattach : [s.lastId + 1].forM (attach owner) (s.wrapped engine x known) =
      .ok ⟨⟩ ((s.wrapped engine x known).placed owner (s.lastId + 1)) :=
    bind_ok.2 ⟨⟨⟩, _, attach_eq (s := s.wrapped engine x known) h _, rfl⟩
  exact bind_ok.2 ⟨_, _, hwrap, bind_ok.2 ⟨⟨⟩, _, hattach, rfl⟩⟩

def givenBack (s : Session σ) (id : ArrayId) : Session σ :=
  match s.arrays.get? id with
  | none => s
  | some a => { s with
      native := if a.owned.isReleased then s.native
        else (a.engine.library.free a.owned.handle).after s.native
      arrays := s.arrays.modify id fun a => a.withOwned ⟨⟨0⟩⟩ }

theorem givenBack_of_none {id : ArrayId} (ha : s.arrays.get? id = none) : s.givenBack id = s := by
  unfold givenBack
  rw [ha]

theorem givenBack_of_some {id : ArrayId} {a : Tensor σ} (ha : s.arrays.get? id = some a) :
    s.givenBack id = { s with
      native := if a.owned.isReleased then s.native
        else (a.engine.library.free a.owned.handle).after s.native
      arrays := s.arrays.modify id fun a => a.withOwned ⟨⟨0⟩⟩ } := by
  unfold givenBack
  rw [ha]

theorem release_eq (s : Session σ) (id : ArrayId) : release id s = .ok ⟨⟩ (s.givenBack id) := by
  unfold release
  refine bind_ok.2 ⟨s, s, rfl, ?_⟩
  cases ha : s.arrays.get? id with
  | none =>
    rw [givenBack_of_none ha]
    rfl
  | some a =>
    have hcall : ∃ b, a.owned.release a.engine.library s.native = .ok (b, ⟨⟨0⟩⟩)
        (if a.owned.isReleased then s.native
        else (a.engine.library.free a.owned.handle).after s.native) := by
      unfold OwnedHandle.release
      -- Whatever the engine says to `free`, the handle counts as given back.
      cases hr : a.owned.isReleased with
      | true =>
        have hnull : a.owned = ⟨⟨0⟩⟩ := congrArg OwnedHandle.mk (Handle.eq_null hr)
        exact ⟨false, by rw [hnull]; rfl⟩
      | false =>
        refine ⟨true, bind_ok.2 ⟨⟨⟩, _, ?_, rfl⟩⟩
        unfold Action.quietly Action.after
        cases a.engine.library.free a.owned.handle s.native <;> rfl
    obtain ⟨b, hcall⟩ := hcall
    rw [givenBack_of_some ha]
    refine bind_ok.2 ⟨(b, ⟨⟨0⟩⟩), { s with
      native := if a.owned.isReleased then s.native
        else (a.engine.library.free a.owned.handle).after s.native }, onNative_ok hcall, rfl⟩

def buried (s : Session σ) (id : ArrayId) : Session σ :=
  { s.givenBack id with arrays := (s.givenBack id).arrays.erase id }

theorem bury_eq (s : Session σ) (id : ArrayId) : bury id s = .ok ⟨⟩ (s.buried id) :=
  bind_ok.2 ⟨⟨⟩, s.givenBack id, release_eq s id, rfl⟩

theorem scopes_givenBack (s : Session σ) (id : ArrayId) : (s.givenBack id).scopes = s.scopes := by
  unfold givenBack
  split <;> rfl

theorem arrayHolds_givenBack (s : Session σ) (id : ArrayId) :
    (s.givenBack id).arrayHolds = s.arrayHolds := by
  unfold givenBack
  split <;> rfl

theorem get?_givenBack_of_ne {id j : ArrayId} (hj : j ≠ id) :
    (s.givenBack id).arrays.get? j = s.arrays.get? j := by
  unfold givenBack
  split
  · rfl
  · rw [Table.get?_modify, if_neg hj]

theorem get?_buried (s : Session σ) (id j : ArrayId) :
    (s.buried id).arrays.get? j = if j = id then none else s.arrays.get? j := by
  unfold buried
  rw [Table.get?_erase]
  split
  · rfl
  · rename_i hj
    exact get?_givenBack_of_ne hj

theorem lastId_givenBack (s : Session σ) (id : ArrayId) : (s.givenBack id).lastId = s.lastId := by
  unfold givenBack
  split <;> rfl

theorem later_letGo (k : Nat) (id : ArrayId) :
    Meets (fun s : Session σ => k ≤ s.lastId) (letGo id) (fun _ s => k ≤ s.lastId) E := by
  unfold letGo
  refine .get_bind fun t ht => .ite (fun _ => ?_) fun _ => .done ht
  exact .of_eq (bury_eq t id) (Nat.le_trans ht (Nat.le_of_eq (lastId_givenBack t id).symm))

def dismissed (s : Session σ) (S : ScopeId) (id : ArrayId) : Session σ :=
  { s with
    arrays := s.arrays.modify id fun a => a.withOwner none
    scopes := s.scopes.modify S fun c => c.withArrays (c.arrays.erase id) }

def departed (s : Session σ) (id : ArrayId) : Session σ :=
  match s.arrays.ownerAt id with
  | none => s
  | some S => s.dismissed S id

theorem leave_eq (s : Session σ) (id : ArrayId) : leave id s = .ok ⟨⟩ (s.departed id) := by
  unfold leave departed
  refine bind_ok.2 ⟨s, s, rfl, ?_⟩
  unfold Table.ownerAt
  cases (s.arrays.get? id).bind Tensor.owner <;> rfl

theorem retire_eq (s : Session σ) (id : ArrayId) :
    retire id s = .ok ⟨⟩ ((s.givenBack id).departed id) :=
  bind_ok.2 ⟨⟨⟩, s.givenBack id, release_eq s id, leave_eq _ id⟩

theorem later_retire (k : Nat) (id : ArrayId) :
    Meets (fun s : Session σ => k ≤ s.lastId) (retire id) (fun _ s => k ≤ s.lastId) E := by
  refine .of_state fun t ht => .of_eq (retire_eq t id) ?_
  have hgiven := Nat.le_trans ht (Nat.le_of_eq (lastId_givenBack t id).symm)
  unfold departed
  split <;> exact hgiven

theorem buryUnheld_ok (n : Nat) (s : Session σ) : ∃ t, buryUnheld n s = .ok ⟨⟩ t := by
  induction n generalizing s with
  | zero => exact ⟨s, rfl⟩
  | succ n ih =>
    unfold buryUnheld
    cases hfound : s.arrays.keys.find? fun id => !s.isHeld id with
    | none => exact ⟨s, bind_ok.2 ⟨s, s, rfl, by simp only [hfound]; rfl⟩⟩
    | some id =>
      obtain ⟨t, ht⟩ := ih (s.buried id)
      refine ⟨t, bind_ok.2 ⟨s, s, rfl, ?_⟩⟩
      simp only [hfound]
      exact bind_ok.2 ⟨⟨⟩, s.buried id, bury_eq s id, ht⟩

theorem sweep_ok (s : Session σ) : ∃ t, sweep s = .ok ⟨⟩ t :=
  let ⟨t, ht⟩ := buryUnheld_ok s.arrays.size s
  ⟨t, bind_ok.2 ⟨s, s, rfl, ht⟩⟩

theorem buryUnheld_of_held (h : ∀ id ∈ s.arrays.keys, s.isHeld id = true) (n : Nat) :
    buryUnheld n s = .ok ⟨⟩ s := by
  cases n with
  | zero => rfl
  | succ n =>
    unfold buryUnheld
    refine bind_ok.2 ⟨s, s, rfl, ?_⟩
    have hnone : s.arrays.keys.find? (fun id => !s.isHeld id) = none :=
      List.find?_eq_none.2 fun id hid => by simp [h id hid]
    simp only [hnone]
    rfl

theorem sweep_of_held (h : ∀ id ∈ s.arrays.keys, s.isHeld id = true) : sweep s = .ok ⟨⟩ s :=
  bind_ok.2 ⟨s, s, rfl, buryUnheld_of_held h _⟩

theorem sweep_one {id : ArrayId} (hid : id ∈ s.arrays.keys) (hheld : s.isHeld id = false)
    (hothers : ∀ j ∈ s.arrays.keys, j ≠ id → s.isHeld j = true)
    (hafter : ∀ j ∈ (s.buried id).arrays.keys, (s.buried id).isHeld j = true) :
    sweep s = .ok ⟨⟩ (s.buried id) := by
  have hfound : s.arrays.keys.find? (fun j => !s.isHeld j) = some id := by
    cases hf : s.arrays.keys.find? fun j => !s.isHeld j with
    | none => exact absurd (List.find?_eq_none.1 hf id hid) (by simp [hheld])
    | some j =>
      by_cases hj : j = id
      · rw [hj]
      · have hunheld := List.find?_some hf
        rw [hothers j (List.mem_of_find?_eq_some hf) hj] at hunheld
        exact absurd hunheld nofun
  have hsize : ∃ n, s.arrays.size = n + 1 := by
    rw [← Table.length_keys]
    exact Nat.exists_eq_add_one.2 (List.length_pos_of_mem hid)
  obtain ⟨n, hn⟩ := hsize
  refine bind_ok.2 ⟨s, s, rfl, ?_⟩
  rw [hn]
  unfold buryUnheld
  refine bind_ok.2 ⟨s, s, rfl, ?_⟩
  simp only [hfound]
  exact bind_ok.2 ⟨⟨⟩, s.buried id, bury_eq s id, buryUnheld_of_held hafter n⟩

theorem settled_ok {α : Type} {a : Action (Session σ) α} {x : α} {t u : Session σ}
    (ha : a s = .ok x u) (hsweep : sweep u = .ok ⟨⟩ t) : settled a s = .ok x t := by
  have houtcome : a.outcome s = .ok (.ok x) u := by
    unfold Action.outcome
    rw [ha]
  exact bind_ok.2 ⟨.ok x, u, houtcome, bind_ok.2 ⟨⟨⟩, t, hsweep, rfl⟩⟩

theorem settled_error {α : Type} {a : Action (Session σ) α} {e : Error} {t u : Session σ}
    (ha : a s = .error e u) (hsweep : sweep u = .ok ⟨⟩ t) : settled a s = .error e t := by
  have houtcome : a.outcome s = .ok (.error e) u := by
    unfold Action.outcome
    rw [ha]
  exact (bind_of_ok houtcome).trans (bind_of_ok hsweep)

theorem meets_settled {α : Type} {a : Action (Session σ) α} {P F G : Session σ → Prop}
    (ha : Meets P a (fun _ _ => True) F)
    (hsweep : ∀ u, F u → ∃ t, sweep u = .ok ⟨⟩ t ∧ G t) :
    Meets P (settled a) (fun _ _ => True) G := by
  intro s hs
  have hend := ha s hs
  cases hr : a s with
  | ok x u =>
    obtain ⟨t, ht⟩ := sweep_ok u
    rw [settled_ok hr ht]
    trivial
  | error e u =>
    rw [hr] at hend
    obtain ⟨t, ht, hG⟩ := hsweep u hend
    rw [settled_error hr ht]
    exact hG

end Session
end ScopedTensor
