import Mathlib.Data.List.Basic
import ScopedTensor.Library.Call
import ScopedTensor.Proofs.Ownership.Handles

/-! What giving arrays back does to the letter: every handle takes one free and the engines are
asked nothing else, and what is outside the scopes that close stays as it is. -/

namespace ScopedTensor

open ScopedTensor.Action

variable {half : HalfPrecision}
variable {σ : Type}

def Table.freeing (arrays : Table (Tensor σ)) (ids : List ArrayId) (n : σ) : σ :=
  ids.foldl (fun n id => match arrays.get? id with
    | none => n
    | some a => (Library.Call.free a.owned.handle).step a.engine.library n) n

theorem Library.Call.step_free (lib : Library σ) (h : Handle) (n : σ) :
    (Library.Call.free h).step lib n = (lib.free h).after n := after_map _ _ n

theorem Table.freeing_congr {arrays arrays' : Table (Tensor σ)} {ids : List ArrayId}
    (h : ∀ id ∈ ids, (arrays'.get? id).map (fun a => (a.engine, a.owned)) =
      (arrays.get? id).map fun a => (a.engine, a.owned)) (n : σ) :
    arrays'.freeing ids n = arrays.freeing ids n := by
  unfold freeing
  refine List.foldl_ext _ _ _ fun n id hid => ?_
  have := h id hid
  cases ha : arrays.get? id with
  | none =>
    cases ha' : arrays'.get? id with
    | none => rfl
    | some a' => simp [ha, ha'] at this
  | some a =>
    cases ha' : arrays'.get? id with
    | none => simp [ha, ha'] at this
    | some a' =>
      simp only [ha, ha', Option.map_some, Option.some.injEq, Prod.mk.injEq] at this
      simp only [this.1, this.2]

def Library.FreesApart (lib : Library σ) : Prop :=
  ∀ (h h' : Handle) (room length : Nat) (n : σ), h ≠ h' →
    (Call.copyOut h room length).reply lib ((Call.free h').step lib n) =
      (Call.copyOut h room length).reply lib n

namespace Session

variable {s t u : Session σ} {ids ids' : List ArrayId} {D : ScopeId → Prop}

/-- From `s` to `t` the arrays in `ids` have given their handles back, one after the other, and the
engines have been asked nothing else. -/
structure Frees (ids : List ArrayId) (s t : Session σ) : Prop where
  once : ids.Nodup
  owned : ∀ id ∈ ids, (s.arrays.handleAt id).isNull = false
  native : t.native = s.arrays.freeing ids s.native
  handle : ∀ id, t.arrays.handleAt id = if id ∈ ids then ⟨0⟩ else s.arrays.handleAt id
  engine : ∀ id b, t.arrays.get? id = some b → ∃ a, s.arrays.get? id = some a ∧ b.engine = a.engine

theorem Frees.nothing (hnative : t.native = s.native)
    (hhandle : ∀ id, t.arrays.handleAt id = s.arrays.handleAt id)
    (hengine : ∀ id b, t.arrays.get? id = some b →
      ∃ a, s.arrays.get? id = some a ∧ b.engine = a.engine) : Frees [] s t where
  once := List.nodup_nil
  owned _ h := absurd h List.not_mem_nil
  native := hnative
  handle id := by rw [hhandle, if_neg List.not_mem_nil]
  engine := hengine

theorem Frees.trans (h : Frees ids s t) (h' : Frees ids' t u) : Frees (ids ++ ids') s u := by
  have hlater : ∀ id ∈ ids', id ∉ ids := by
    intro id hid hmem
    have hnull := h'.owned id hid
    rw [h.handle, if_pos hmem] at hnull
    exact absurd hnull (by decide)
  constructor
  case once =>
    refine List.nodup_append.2 ⟨h.once, h'.once, fun i hi j hj => ?_⟩
    rintro rfl
    exact hlater i hj hi
  case owned =>
    intro id hid
    rcases List.mem_append.1 hid with hid | hid
    · exact h.owned id hid
    · have hnull := h'.owned id hid
      rwa [h.handle, if_neg (hlater id hid)] at hnull
  case native =>
    rw [h'.native, h.native]
    unfold Table.freeing
    rw [List.foldl_append]
    refine Table.freeing_congr (fun id hid => ?_) _
    have hhandle := h.handle id
    rw [if_neg (hlater id hid)] at hhandle
    have hnull := h'.owned id hid
    cases hb : t.arrays.get? id with
    | none =>
      unfold Table.handleAt at hnull
      rw [hb] at hnull
      exact absurd hnull nofun
    | some b =>
      obtain ⟨a, ha, hengine⟩ := h.engine id b hb
      rw [Table.handleAt_of_get? hb, Table.handleAt_of_get? ha] at hhandle
      have howned : b.owned = a.owned := congrArg OwnedHandle.mk hhandle
      rw [ha, Option.map_some, Option.map_some, hengine, howned]
  case handle =>
    intro id
    rw [h'.handle, h.handle]
    by_cases hid : id ∈ ids <;> by_cases hid' : id ∈ ids' <;> simp [hid, hid']
  case engine =>
    intro id c hc
    obtain ⟨b, hb, hcb⟩ := h'.engine id c hc
    obtain ⟨a, ha, hba⟩ := h.engine id b hb
    exact ⟨a, ha, hcb.trans hba⟩

/-- From `s` to `t` only scopes in `D` may have changed and lost arrays, and what they lost is
released. Arrays without a scope are as they were unless nobody held them any more. -/
structure Spares (D : ScopeId → Prop) (s t : Session σ) : Prop where
  scopes : ∀ S, ¬ D S → t.scopes.get? S = s.scopes.get? S
  parent : ∀ S ∈ t.scopes.keys, S ∈ s.scopes.keys ∧ t.scopes.parentAt S = s.scopes.parentAt S
  holds : t.arrayHolds = s.arrayHolds
  owner : ∀ id S, t.arrays.ownerAt id = some S → s.arrays.ownerAt id = some S
  outside : ∀ id S, s.arrays.ownerAt id = some S → ¬ D S → t.arrays.get? id = s.arrays.get? id
  unowned : ∀ id, s.arrays.ownerAt id = none →
    t.arrays.get? id = s.arrays.get? id ∨ t.arrays.get? id = none ∧ id ∉ s.arrayHolds
  lost : ∀ id S, s.arrays.ownerAt id = some S → t.arrays.ownerAt id = none →
    t.arrays.handleAt id = ⟨0⟩
  null : ∀ id, s.arrays.handleAt id = ⟨0⟩ → t.arrays.handleAt id = ⟨0⟩

theorem Spares.refl (s : Session σ) : Spares D s s where
  scopes _ _ := rfl
  parent _ h := ⟨h, rfl⟩
  holds := rfl
  owner _ _ h := h
  outside _ _ _ _ := rfl
  unowned _ _ := .inl rfl
  lost _ _ h h' := absurd (h.symm.trans h') nofun
  null _ h := h

theorem Spares.trans (h : Spares D s t) (h' : Spares D t u) : Spares D s u where
  scopes S hS := (h'.scopes S hS).trans (h.scopes S hS)
  parent S hS :=
    let ⟨hmem, hparent⟩ := h'.parent S hS
    ⟨(h.parent S hmem).1, hparent.trans (h.parent S hmem).2⟩
  holds := h'.holds.trans h.holds
  owner id S hS := h.owner id S (h'.owner id S hS)
  outside id S hS hD := by
    have hkept := h.outside id S hS hD
    have howner : t.arrays.ownerAt id = some S := by
      unfold Table.ownerAt at hS ⊢
      rw [hkept, hS]
    exact (h'.outside id S howner hD).trans hkept
  unowned id hid := by
    -- An array without a scope stays as it is through both steps, or is gone after one of them.
    rcases h.unowned id hid with hkept | ⟨hgone, hheld⟩
    · have howner : t.arrays.ownerAt id = none := by
        unfold Table.ownerAt at hid ⊢
        rw [hkept, hid]
      rw [← hkept, ← h.holds]
      exact h'.unowned id howner
    · have howner : t.arrays.ownerAt id = none := by
        unfold Table.ownerAt
        rw [hgone]
        rfl
      rcases h'.unowned id howner with hkept | ⟨hgone', -⟩
      · exact .inr ⟨hkept.trans hgone, hheld⟩
      · exact .inr ⟨hgone', hheld⟩
  lost id S hS hnone := by
    cases ht : t.arrays.ownerAt id with
    | none => exact h'.null id (h.lost id S hS ht)
    | some T => exact h'.lost id T ht hnone
  null id hid := h'.null id (h.null id hid)

/-- What ends while the scopes in `D` close. -/
def Sheds (D : ScopeId → Prop) (s t : Session σ) : Prop := Spares D s t ∧ ∃ ids, Frees ids s t

theorem Sheds.refl (s : Session σ) : Sheds D s s :=
  ⟨.refl s, [], .nothing rfl (fun _ => rfl) fun _ b hb => ⟨b, hb, rfl⟩⟩

theorem Sheds.trans (h : Sheds D s t) (h' : Sheds D t u) : Sheds D s u :=
  let ⟨hspares, ids, hfrees⟩ := h
  let ⟨hspares', ids', hfrees'⟩ := h'
  ⟨hspares.trans hspares', ids ++ ids', hfrees.trans hfrees'⟩

def givers (arrays : Table (Tensor σ)) (id : ArrayId) : List ArrayId :=
  if (arrays.handleAt id).isNull then [] else [id]

theorem mem_givers {arrays : Table (Tensor σ)} {id j : ArrayId} :
    j ∈ givers arrays id ↔ j = id ∧ (arrays.handleAt id).isNull = false := by
  unfold givers
  cases (arrays.handleAt id).isNull <;> simp

theorem handleAt_givenBack (s : Session σ) (id j : ArrayId) :
    (s.givenBack id).arrays.handleAt j = if j = id then ⟨0⟩ else s.arrays.handleAt j := by
  unfold Table.handleAt
  cases ha : s.arrays.get? id with
  | none =>
    rw [givenBack_of_none ha]
    split
    · rename_i hj
      rw [hj, ha]
      rfl
    · rfl
  | some a =>
    rw [givenBack_of_some ha, Table.get?_modify]
    split
    · rename_i hj
      rw [hj, ha]
      rfl
    · rfl

theorem frees_givenBack (s : Session σ) (id : ArrayId) :
    Frees (givers s.arrays id) s (s.givenBack id) := by
  constructor
  case once => unfold givers; split <;> simp
  case owned =>
    intro j hj
    obtain ⟨rfl, hnull⟩ := mem_givers.1 hj
    exact hnull
  case native =>
    unfold givers
    cases ha : s.arrays.get? id with
    | none =>
      have hnull : (s.arrays.handleAt id).isNull = true := by
        unfold Table.handleAt
        rw [ha]
        rfl
      rw [givenBack_of_none ha, if_pos hnull]
      rfl
    | some a =>
      rw [givenBack_of_some ha, Table.handleAt_of_get? ha]
      unfold Table.freeing OwnedHandle.isReleased
      split <;> simp [ha, Library.Call.step_free]
  case handle =>
    intro j
    rw [handleAt_givenBack]
    by_cases hj : j = id
    · subst hj
      rw [if_pos rfl]
      split
      · rfl
      · rename_i hnone
        have hnull : (s.arrays.handleAt j).isNull = true := by
          simpa [mem_givers] using hnone
        exact (Handle.eq_null hnull).symm
    · rw [if_neg hj, if_neg fun hmem => hj (mem_givers.1 hmem).1]
  case engine =>
    intro j b hb
    unfold givenBack at hb
    split at hb
    · exact ⟨b, hb, rfl⟩
    · rcases Table.get?_modify_eq_some.1 hb with ⟨-, a, ha, rfl⟩ | ⟨-, hb⟩
      · exact ⟨a, ha, rfl⟩
      · exact ⟨b, hb, rfl⟩

theorem Frees.erased {id : ArrayId} (h : Frees ids s t) (hnull : t.arrays.handleAt id = ⟨0⟩) :
    Frees ids s { t with arrays := t.arrays.erase id } := by
  rw [← List.append_nil ids]
  refine h.trans (.nothing rfl (fun j => ?_) fun j b hb => ?_)
  · by_cases hj : j = id
    · subst hj
      unfold Table.handleAt at hnull ⊢
      rw [Table.get?_erase, if_pos rfl, hnull]
      rfl
    · exact Table.handleAt_erase hj
  · exact ⟨b, (Table.get?_erase_eq_some.1 hb).2, rfl⟩

theorem spares_buried {id : ArrayId} (howner : s.arrays.ownerAt id = none)
    (hheld : id ∉ s.arrayHolds) : Spares D s (s.buried id) := by
  have hownerAt : ∀ j, (s.buried id).arrays.ownerAt j = s.arrays.ownerAt j := by
    intro j
    unfold Table.ownerAt at howner ⊢
    rw [get?_buried]
    split
    · rename_i hj
      rw [hj, howner]
      rfl
    · rfl
  constructor
  case scopes => exact fun S _ => congrArg (·.get? S) (scopes_givenBack s id)
  case parent =>
    have hscopes : (s.buried id).scopes = s.scopes := scopes_givenBack s id
    exact fun S hS => ⟨hscopes ▸ hS, congrArg (·.parentAt S) hscopes⟩
  case holds => exact arrayHolds_givenBack s id
  case owner => exact fun j S hS => hownerAt j ▸ hS
  case outside =>
    intro j S hS _
    have hj : j ≠ id := by
      rintro rfl
      exact absurd (howner.symm.trans hS) nofun
    rw [get?_buried, if_neg hj]
  case unowned =>
    intro j _
    rw [get?_buried]
    split
    · rename_i hj
      exact .inr ⟨rfl, hj ▸ hheld⟩
    · exact .inl rfl
  case lost =>
    intro j S hS hnone
    exact absurd (hS.symm.trans ((hownerAt j).symm.trans hnone)) nofun
  case null =>
    intro j hj
    unfold Table.handleAt at hj ⊢
    rw [get?_buried]
    split
    · rfl
    · exact hj

theorem sheds_buried {R : Regime σ} {d : Debts} (hs : Sound R d s) {id : ArrayId}
    (hheld : s.isHeld id = false) : Sheds D s (s.buried id) := by
  refine ⟨spares_buried (hs.ownerAt_of_not_held hheld) fun hmem => ?_, givers s.arrays id,
    (frees_givenBack s id).erased ?_⟩
  · have hheld' : s.isHeld id = true := (isHeld_iff hs.numbered id).2 (.inl hmem)
    exact absurd (hheld.symm.trans hheld') nofun
  · rw [handleAt_givenBack, if_pos rfl]

variable {R : Regime σ} {E : Session σ → Prop} {owed : List Handle}
variable {closing leaving : Option ScopeId} {orphans : List ScopeId} {K : List ScopeId}

theorem sheds_buryUnheld (n : Nat)
    (hs : Sound R ⟨owed, true, none, closing, orphans, leaving⟩ s) :
    Meets (· = s) (buryUnheld n) (fun _ => Sheds D s) E := by
  induction n generalizing s with
  | zero => exact .done (.refl s)
  | succ n ih =>
    unfold buryUnheld
    refine .get_bind fun u hu => ?_
    subst hu
    split
    · exact .done (.refl u)
    · rename_i id hfound
      have hid := List.mem_of_find?_eq_some hfound
      have hheld : u.isHeld id = false := by simpa using List.find?_some hfound
      have hnext := (meets_bury hs hid (hs.ownerAt_of_not_held hheld)).and (E := E)
        (.of_eq (Q := fun _ => Sheds D u) (bury_eq u id) (sheds_buried hs hheld))
      refine (hnext.of_imp fun _ ht => ⟨ht, ht⟩).bind fun _ => .of_state fun t ⟨ht, hshed⟩ => ?_
      exact (ih ht.1).to_imp fun _ _ hu => hshed.trans hu

theorem sheds_sweep (hs : Sound R ⟨owed, true, none, closing, orphans, leaving⟩ s) :
    Meets (· = s) sweep (fun _ => Sheds D s) E := by
  unfold sweep
  refine .get_bind fun t ht => ?_
  subst ht
  exact sheds_buryUnheld _ hs

theorem reply_freeing {lib : Library σ} (hlib : lib.FreesApart) {arrays : Table (Tensor σ)}
    (honce : arrays.handles.Nodup)
    (hengines : ∀ id a, arrays.get? id = some a → a.engine.library = lib) {id : ArrayId}
    {a : Tensor σ} (ha : arrays.get? id = some a) (hreleased : a.owned.isReleased = false)
    (room length : Nat) (hid : id ∉ ids) (n : σ) :
    (Library.Call.copyOut a.owned.handle room length).reply lib (arrays.freeing ids n) =
      (Library.Call.copyOut a.owned.handle room length).reply lib n := by
  unfold Table.freeing
  induction ids generalizing n with
  | nil => rfl
  | cons j ids ih =>
    obtain ⟨hj, hid⟩ := List.ne_and_not_mem_of_not_mem_cons hid
    rw [List.foldl_cons, ih hid]
    split
    · rfl
    · rename_i b hb
      rw [hengines j b hb]
      refine hlib _ _ room length n fun hshared => hj ?_
      exact owner_unique_of_nodup honce ha hb hreleased (congrArg OwnedHandle.mk hshared)

end Session

namespace Reference

open State

theorem reply_copyOut (gpus : Nat) (h : Handle) (room length : Nat) (s : State) :
    (Library.Call.copyOut h room length).reply (library gpus) s = match s.entry h with
      | .error e => .error e
      | .ok e => if length ≠ e.view.size ∨ room ≠ length * e.view.type.bytes then
          .error (.native "sync_copy_to_cpu" (.hostTarget e.view.size length room))
        else match (runAll s.queue s.memory).2 with
          | some e => .error e
          | none => .ok (.bytes (e.view.type.encode ((runAll s.queue s.memory).1.read e.view))) := by
  have hok : ∀ {b : Bytes} {u : State}, copyOut h room length s = .ok b u →
      (Library.Call.copyOut h room length).reply (library gpus) s = .ok (.bytes b) := Library.Call.reply_of_ok rfl
  have herror : ∀ {e : Error} {u : State}, copyOut h room length s = .error e u →
      (Library.Call.copyOut h room length).reply (library gpus) s = .error e :=
    Library.Call.reply_of_error rfl
  cases he : s.entry h with
  | error e => exact herror (bind_error (bind_error (query_error he)))
  | ok e =>
    have hview : viewOf h s = .ok e.view s := bind_ok.2 ⟨e, s, query_ok.2 ⟨he, rfl⟩, rfl⟩
    simp only
    split
    · rename_i hsize
      refine herror (u := s) ((bind_of_ok hview).trans ?_)
      rw [if_pos hsize]
      rfl
    · rename_i hsize
      have hread : ∀ u, copyOut h room length s = u ↔ (drain >>= fun _ => get >>= fun t =>
          pure (e.view.type.encode (t.memory.read e.view))) s = u := by
        intro u
        rw [copyOut, bind_of_ok hview, if_neg hsize]
      cases hr : (runAll s.queue s.memory).2 with
      | some x =>
        have hdrain : drain s = .error x s.drained := by
          unfold drain
          rw [hr]
        exact herror ((hread _).2 (bind_error hdrain))
      | none =>
        have hdrain : drain s = .ok ⟨⟩ s.drained := by
          unfold drain
          rw [hr]
        exact hok ((hread _).2 (bind_ok.2 ⟨⟨⟩, s.drained, hdrain, rfl⟩))

theorem freesApart (gpus : Nat) : (library gpus).FreesApart := by
  intro h h' room length n hne
  rw [Library.Call.step_free]
  obtain ⟨marks, hafter⟩ := after_free h' n
  have hafter : ((library gpus).free h').after n = _ := hafter
  have hid : h.id ≠ h'.id := fun hid => hne (congrArg Handle.mk hid)
  rw [hafter, reply_copyOut, reply_copyOut]
  unfold entry
  rw [Table.get?_erase, if_neg hid]

end Reference

end ScopedTensor
