import Mathlib.Data.List.Flatten
import ScopedTensor.Proofs.Isolation.Custody
import ScopedTensor.Proofs.Ownership.Runs

/-! Sessions keep the handles of every library apart: the handles they keep are those that arrays own,
each from the library of the engine that the array lives in, and a library is given no others. -/

namespace ScopedTensor

open ScopedTensor.Action Custody

variable {σ α β : Type} {C : Custody σ} {id : ArrayId} {h : Handle} {a b : Tensor σ}

namespace Table

variable {arrays : Table (Tensor σ)}

def custody (arrays : Table (Tensor σ)) : List (Library σ × Handle) :=
  arrays.entries.flatMap fun e => e.2.owned.claim e.2.engine.library

theorem mem_custody (ha : arrays.get? id = some a) (hh : a.owned.get = .ok h) :
    (a.engine.library, h) ∈ arrays.custody := by
  refine List.mem_flatMap.2 ⟨(id, a), mem_of_get?_eq_some ha, ?_⟩
  unfold OwnedHandle.get at hh
  unfold OwnedHandle.claim
  split at hh
  · exact absurd hh nofun
  · rename_i hreleased
    rw [if_neg hreleased, Except.ok.inj hh]
    exact List.mem_singleton_self _

theorem custody_modify (arrays : Table (Tensor σ)) (id : ArrayId) {f : Tensor σ → Tensor σ}
    (hf : ∀ a, (f a).owned = a.owned ∧ (f a).engine = a.engine) :
    (arrays.modify id f).custody = arrays.custody := by
  unfold custody modify
  rw [List.flatMap_map]
  refine List.flatMap_congr fun e _ => ?_
  split
  · rw [(hf e.2).1, (hf e.2).2]
  · rfl

theorem custody_emptied (hdistinct : arrays.keys.Nodup) (ha : arrays.get? id = some a) :
    arrays.custody.Perm (a.owned.claim a.engine.library ++
      (arrays.modify id fun a => a.withOwned ⟨⟨0⟩⟩).custody) := by
  obtain ⟨before, behind, he, hm, -⟩ := exists_split hdistinct ha
  have hnone : (a.withOwned ⟨⟨0⟩⟩).owned.claim (a.withOwned ⟨⟨0⟩⟩).engine.library = [] := rfl
  unfold custody
  rw [he, hm, List.flatMap_append, List.flatMap_append, List.flatMap_cons, List.flatMap_cons, hnone,
    List.nil_append]
  exact List.perm_append_comm_assoc _ _ _

theorem custody_erase (arrays : Table (Tensor σ)) (id : ArrayId) :
    (arrays.erase id).custody.Sublist arrays.custody :=
  List.filter_sublist.flatMap _

theorem custody_insert (hid : arrays.get? id = none) (a : Tensor σ) :
    (arrays.insert id a).custody = arrays.custody ++ a.owned.claim a.engine.library := by
  unfold custody
  rw [insert_of_none a hid, List.flatMap_append, List.flatMap_singleton]

end Table

/-- What is known while an operation is under way. -/
structure Watch (σ : Type) where
  /-- Libraries that no engine is loaded from yet. -/
  opened : List (Library σ) := []
  roster : List (LoadedEngine σ) := []
  /-- Arrays and the engines that they live in, as long as they are there. -/
  pins : List (ArrayId × LoadedEngine σ) := []
  /-- Handles that no array owns yet. -/
  owed : List (Library σ × Handle) := []

namespace Watch

variable (W : Watch σ)

def libraries : List (Library σ) := W.opened ++ W.roster.map LoadedEngine.library

def pin (ids : List ArrayId) (e : LoadedEngine σ) : Watch σ :=
  { W with pins := ids.map (·, e) ++ W.pins }

def owe (lib : Library σ) (hs : List Handle) : Watch σ :=
  { W with owed := hs.map (lib, ·) ++ W.owed }

def enrol (e : LoadedEngine σ) : Watch σ := { W with roster := e :: W.roster }

theorem mem_libraries {W : Watch σ} {e : LoadedEngine σ} (he : e ∈ W.roster) :
    e.library ∈ W.libraries := List.mem_append_right _ (List.mem_map_of_mem he)

end Watch

namespace Session

variable {W W' : Watch σ} {s : Session σ} {e : LoadedEngine σ} {E : Session σ → Prop}
variable {passed : List Handle} {brought : α → List Handle}

/-- Everything lives in an engine of the roster, no two of which have the same number, and the account
holds of what arrays own and of what they do not own yet. -/
structure Tended (C : Custody σ) (W : Watch σ) (s : Session σ) : Prop where
  distinct : s.arrays.keys.Nodup
  bounded : ∀ id ∈ s.arrays.keys, id ≤ s.lastId
  arrays : ∀ id a, s.arrays.get? id = some a → a.engine ∈ W.roster
  scopes : ∀ S c, s.scopes.get? S = some c → c.engine ∈ W.roster
  numbered : ∀ e ∈ W.roster, e.id ≤ s.lastId
  unique : ∀ e ∈ W.roster, ∀ e' ∈ W.roster, e.id = e'.id → e = e'
  pins : ∀ p ∈ W.pins, p.1 ≤ s.lastId ∧ ∀ a, s.arrays.get? p.1 = some a → a.engine = p.2
  account : C.account s.native W.libraries (W.owed ++ s.arrays.custody)

/-- An array that lives in the engine of `id` has the handle. -/
def Lends (s : Session σ) (id : ArrayId) (h : Handle) : Prop :=
  ∃ a j b, s.arrays.get? id = some a ∧ s.arrays.get? j = some b ∧ b.engine = a.engine ∧
    b.owned.get = .ok h

theorem Lends.mem_custody (hs : s.Lends id h) (ha : s.arrays.get? id = some a) :
    (a.engine.library, h) ∈ s.arrays.custody := by
  obtain ⟨a', j, b, ha', hb, hengine, hh⟩ := hs
  obtain rfl : a' = a := Option.some.inj (ha'.symm.trans ha)
  exact hengine ▸ Table.mem_custody hb hh

namespace Tended

variable (hs : Tended C W s)

include hs

theorem mono (hroster : W'.roster = W.roster) (hopened : W'.opened ⊆ W.opened)
    (hpins : W'.pins ⊆ W.pins) (howed : W'.owed.Subperm W.owed) : Tended C W' s where
  distinct := hs.distinct
  bounded := hs.bounded
  arrays := hroster ▸ hs.arrays
  scopes := hroster ▸ hs.scopes
  numbered := hroster ▸ hs.numbered
  unique := hroster ▸ hs.unique
  pins p hp := hs.pins p (hpins hp)
  account := by
    refine C.fewer ?_ (howed.append (List.Subperm.refl _)) hs.account
    unfold Watch.libraries
    rw [hroster]
    exact List.append_subset.2 ⟨fun _ h => List.mem_append_left _ (hopened h),
      List.subset_append_right _ _⟩

theorem pin (ha : s.arrays.get? id = some a) : Tended C (W.pin [id] a.engine) s :=
  { hs with
    pins := fun p hp => by
      rcases List.mem_cons.1 hp with rfl | hp
      · refine ⟨hs.bounded id ((Table.mem_keys_iff _ _).2 ⟨a, ha⟩), fun b hb => ?_⟩
        rw [Option.some.inj (hb.symm.trans ha)]
      · exact hs.pins p hp }

theorem together {j : ArrayId} (ha : s.arrays.get? id = some a) (hb : s.arrays.get? j = some b)
    (hid : a.engine.id = b.engine.id) : b.engine = a.engine :=
  hs.unique _ (hs.arrays j b hb) _ (hs.arrays id a ha) hid.symm

end Tended

theorem Tended.unpin {ids : List ArrayId} (hs : Tended C (W.pin ids e) s) : Tended C W s :=
  hs.mono rfl (List.Subset.refl _) (List.subset_append_right _ _) (List.Subperm.refl _)

theorem Tended.settle {lib : Library σ} {hs' : List Handle} (hs : Tended C (W.owe lib hs') s) :
    Tended C W s :=
  hs.mono rfl (List.Subset.refl _) (List.Subset.refl _) (List.sublist_append_right _ _).subperm

theorem Tended.repin {ids ids' : List ArrayId} (hs : Tended C (W.pin ids e) s) (hids : ids' ⊆ ids) :
    Tended C (W.pin ids' e) s :=
  hs.mono rfl (List.Subset.refl _) (List.append_subset.2 ⟨fun _ hp => List.mem_append_left _
    (List.map_subset _ hids hp), List.subset_append_right _ _⟩) (List.Subperm.refl _)

theorem Tended.engine_eq {ids : List ArrayId} (hs : Tended C (W.pin ids e) s) (hid : id ∈ ids)
    (ha : s.arrays.get? id = some a) : a.engine = e :=
  (hs.pins (id, e) (List.mem_append_left _ (List.mem_map_of_mem hid))).2 a ha

def Beside (C : Custody σ) (W : Watch σ) (id : ArrayId) (ids : List ArrayId)
    (s : Session σ) : Prop :=
  ∃ e ∈ W.roster, Tended C (W.pin (id :: ids) e) s

theorem Beside.tended {ids : List ArrayId} : Beside C W id ids s → Tended C W s :=
  fun ⟨_, _, hs⟩ => hs.unpin

theorem tended_onNative {lib : Library σ} {f : Action σ α}
    (hf : C.Serves W.libraries lib passed f brought) :
    Meets (fun s => Tended C W s ∧ ∀ h ∈ passed, (lib, h) ∈ s.arrays.custody) (onNative f)
      (fun x s => Tended C (W.owe lib (brought x)) s) (Tended C W) := by
  refine .zoom fun s ⟨hs, hpassed⟩ => ?_
  have hn := hf _ (fun h hh => List.mem_append_right _ (hpassed h hh)) s.native hs.account
  cases hr : f s.native with
  | ok x n =>
    rw [hr] at hn
    exact { hs with account := by rw [Watch.owe, List.append_assoc]; exact hn }
  | error e n =>
    rw [hr] at hn
    exact { hs with account := hn }

theorem tended_call {lib : Library σ} {f : Action σ α} (hf : C.Uses W.libraries lib [] f) :
    Keeps (Tended C W) (onNative f) :=
  (tended_onNative hf).imp (fun _ hs => ⟨hs, nofun⟩) (fun _ _ hs => hs.settle) fun _ hs => hs

theorem tended_callFor {f : Library σ → Action σ α}
    (hf : ∀ lib ∈ W.libraries, C.Serves W.libraries lib passed (f lib) brought) (id : ArrayId) :
    Meets (fun s => Tended C W s ∧ ∀ h ∈ passed, s.Lends id h) (callFor id f)
      (fun x s => ∃ e ∈ W.roster, Tended C ((W.pin [id] e).owe e.library (brought x)) s)
      (Tended C W) := by
  refine (meets_array id fun _ hs => hs.1).bind fun a => .of_state fun t ⟨ha, ht, hlent⟩ => ?_
  have he := ht.arrays id a ha
  have hcall := tended_onNative (W := W.pin [id] a.engine) (hf _ (Watch.mem_libraries he))
  refine (hcall.start ⟨ht.pin ha, fun h hh => (hlent h hh).mem_custody ha⟩).imp (fun _ hs => hs)
    (fun x s hs => ⟨a.engine, he, hs⟩) fun _ hs => hs.unpin

theorem tended_use {f : Library σ → Action σ α}
    (hf : ∀ lib ∈ W.libraries, C.Uses W.libraries lib passed (f lib)) (id : ArrayId) :
    Meets (fun s => Tended C W s ∧ ∀ h ∈ passed, s.Lends id h) (callFor id f)
      (fun _ => Tended C W) (Tended C W) :=
  (tended_callFor hf id).to_imp fun _ _ ⟨_, _, hs⟩ => hs.settle.unpin

theorem lends_self (ha : s.arrays.get? id = some a) (hh : a.owned.get = .ok h) : s.Lends id h :=
  ⟨a, id, a, ha, ha, rfl, hh⟩

theorem tended_handle (id : ArrayId) :
    Meets (Tended C W) (handle id) (fun h s => Tended C W s ∧ ∀ x ∈ [h], s.Lends id x)
      (Tended C W) :=
  (meets_handle id).to_imp fun _ _ ⟨⟨_, ha, hh⟩, hs⟩ =>
    ⟨hs, fun _ hx => List.mem_singleton.1 hx ▸ lends_self ha hh⟩

theorem tended_of_array {f : Tensor σ → Action (Session σ) β}
    (hf : ∀ a, a.engine ∈ W.roster → Keeps (Tended C W) (f a)) (id : ArrayId) :
    Keeps (Tended C W) (array id >>= f) :=
  (meets_array id fun _ hs => hs).bind fun a s hs => hf a (hs.2.arrays id a hs.1) s hs.2

theorem tended_of_scope {f : Scope σ → Action (Session σ) β}
    (hf : ∀ c, c.engine ∈ W.roster → Keeps (Tended C W) (f c)) (S : ScopeId) :
    Keeps (Tended C W) (scope S >>= f) :=
  (meets_scope S fun _ hs => hs).bind fun c s hs => hf c (hs.2.scopes S c hs.1) s hs.2

def Together (s : Session σ) (i j : ArrayId) : Prop :=
  ∃ a b, s.arrays.get? i = some a ∧ s.arrays.get? j = some b ∧ a.engine.id = b.engine.id

theorem screens_requireSameEngine {J : Session σ → Prop} (refusal : Refusal) (i j : ArrayId) :
    Screens J (requireSameEngine refusal i j) (fun _ s => s.Together i j ∧ J s) J := by
  have hsame : Screens J (sameEngine i j)
      (fun same s => (same = true → s.Together i j) ∧ J s) J :=
    (screens_array i fun _ hs => hs).bind fun a => (screens_array j fun _ hs => hs.2).bind fun b =>
      Meets.screens (.pure fun s ⟨hb, ha, hs⟩ =>
        ⟨fun hid => ⟨a, b, ha, hb, by simpa using hid⟩, hs⟩)
  refine hsame.bind fun same => ?_
  cases same with
  | true => exact (Meets.pure fun s hs => ⟨hs.1 rfl, hs.2⟩).screens
  | false => exact screens_throw refusal fun _ hs => hs.2

theorem meets_requireSameEngine {J : Session σ → Prop} (refusal : Refusal) (i j : ArrayId) :
    Meets J (requireSameEngine refusal i j) (fun _ s => s.Together i j ∧ J s) J :=
  (screens_requireSameEngine refusal i j).meets

theorem tended_lent {J : Session σ → Prop} (i j : ArrayId) :
    Meets (fun s => s.Together i j ∧ Tended C W s ∧ J s) (handle j)
      (fun h s => s.Lends i h ∧ Tended C W s ∧ J s) (Tended C W) := by
  refine (meets_handle j).imp (fun _ hs => hs) (fun h s hs => ?_) fun _ hs => hs.2.1
  obtain ⟨⟨b, hb, hh⟩, ⟨a, b', ha, hb', hid⟩, hs⟩ := hs
  obtain rfl : b' = b := Option.some.inj (hb'.symm.trans hb)
  exact ⟨⟨a, j, b', ha, hb, hs.1.together ha hb hid, hh⟩, hs⟩

theorem Tended.modified (hs : Tended C W s) {f : Tensor σ → Tensor σ}
    (hf : ∀ a, (f a).engine = a.engine) {n : σ}
    (hn : C.account n W.libraries (W.owed ++ (s.arrays.modify id f).custody)) :
    Tended C W { s with native := n, arrays := s.arrays.modify id f } := by
  have hengine : ∀ j b, (s.arrays.modify id f).get? j = some b →
      ∃ a, s.arrays.get? j = some a ∧ a.engine = b.engine := by
    intro j b hb
    rcases Table.get?_modify_eq_some.1 hb with ⟨rfl, a, ha, rfl⟩ | ⟨-, hb⟩
    · exact ⟨a, ha, (hf a).symm⟩
    · exact ⟨b, hb, rfl⟩
  exact
    { hs with
      distinct := (Table.keys_modify _ _ _).symm ▸ hs.distinct
      bounded := fun j hj => hs.bounded j (Table.keys_modify s.arrays id f ▸ hj)
      arrays := fun j b hb => by
        obtain ⟨a, ha, he⟩ := hengine j b hb
        exact he ▸ hs.arrays j a ha
      pins := fun p hp => ⟨(hs.pins p hp).1, fun b hb => by
        obtain ⟨a, ha, he⟩ := hengine p.1 b hb
        exact he ▸ (hs.pins p hp).2 a ha⟩
      account := hn }

theorem tended_modifyArray (id : ArrayId) {f : Tensor σ → Tensor σ}
    (hf : ∀ a, (f a).owned = a.owned ∧ (f a).engine = a.engine) :
    Meets (Tended C W) (modifyArray id f) (fun _ => Tended C W) E :=
  .modify fun s hs => hs.modified (fun a => (hf a).2)
    ((Table.custody_modify s.arrays id hf).symm ▸ hs.account)

theorem tended_modifyScope (S : ScopeId) {f : Scope σ → Scope σ}
    (hf : ∀ c, (f c).engine = c.engine) :
    Meets (Tended C W) (modifyScope S f) (fun _ => Tended C W) E :=
  .modify fun s hs =>
    { hs with
      scopes := fun j b hb => by
        rcases Table.get?_modify_eq_some.1 hb with ⟨-, c, hc, rfl⟩ | ⟨-, hb⟩
        · exact (hf c).symm ▸ hs.scopes j c hc
        · exact hs.scopes j b hb }

theorem tended_holdArray (id : ArrayId) : Keeps (Tended C W) (holdArray id) :=
  .modify fun _ hs => { hs with }

theorem tended_holdScope (S : ScopeId) : Keeps (Tended C W) (holdScope S) :=
  .modify fun _ hs => { hs with }

theorem Tended.counted (hs : Tended C W s) : Tended C W { s with lastId := s.lastId + 1 } :=
  { hs with
    bounded := fun id hid => Nat.le_succ_of_le (hs.bounded id hid)
    numbered := fun e he => Nat.le_succ_of_le (hs.numbered e he)
    pins := fun p hp => ⟨Nat.le_succ_of_le (hs.pins p hp).1, (hs.pins p hp).2⟩ }

theorem tended_wrap (he : e ∈ W.roster) (h : Handle) (known : Option Description) :
    Meets (Tended C (W.owe e.library [h])) (wrap e h known) (fun id => Tended C (W.pin [id] e))
      E := by
  refine .of_state fun s hs => .of_eq (wrap_eq s e h known) ?_
  have hnew : s.lastId + 1 ∉ s.arrays.keys := fun hmem => Nat.not_succ_le_self _ (hs.bounded _ hmem)
  have hfresh := (Table.not_mem_keys_iff _ _).1 hnew
  constructor
  case distinct => exact Table.nodup_insert hs.distinct _
  case bounded =>
    intro j hj
    rcases Table.mem_keys_insert.1 hj with hj | rfl
    · exact Nat.le_succ_of_le (hs.bounded j hj)
    · exact Nat.le_refl _
  case arrays =>
    intro j b hb
    rcases Table.get?_insert_eq_some.1 hb with ⟨-, rfl⟩ | ⟨-, hb⟩
    · exact he
    · exact hs.arrays j b hb
  case scopes => exact hs.scopes
  case numbered => exact fun e he => Nat.le_succ_of_le (hs.numbered e he)
  case unique => exact hs.unique
  case pins =>
    intro p hp
    rcases List.mem_cons.1 hp with rfl | hp
    · refine ⟨Nat.le_refl _, fun b hb => ?_⟩
      rcases Table.get?_insert_eq_some.1 hb with ⟨-, rfl⟩ | ⟨hne, -⟩
      · rfl
      · exact absurd rfl hne
    · refine ⟨Nat.le_succ_of_le (hs.pins p hp).1, fun b hb => ?_⟩
      rcases Table.get?_insert_eq_some.1 hb with ⟨heq, -⟩ | ⟨-, hb⟩
      · exact absurd (heq ▸ (hs.pins p hp).1) (Nat.not_succ_le_self _)
      · exact (hs.pins p hp).2 b hb
  case account =>
    -- The handle passes from what is owed to what the new array owns.
    have hcustody := Table.custody_insert hfresh (.around e h known)
    have hperm : (W.owed ++ (s.arrays.insert (s.lastId + 1) (.around e h known)).custody).Perm
        ((OwnedHandle.mk h).claim e.library ++ (W.owed ++ s.arrays.custody)) := by
      rw [hcustody, ← List.append_assoc]
      exact List.perm_append_comm
    exact C.settle (hperm.subperm.trans (claim_subperm h)) hs.account

theorem tended_release (id : ArrayId) : Keeps (Tended C W) (release id) := by
  refine .get_bind fun t ht => ?_
  split
  · exact .done ht
  · rename_i a ha
    have hlib := Watch.mem_libraries (ht.arrays id a ha)
    have hback : Meets (· = t) (onNative (a.owned.release a.engine.library))
        (fun r s => r.2 = ⟨⟨0⟩⟩ ∧ s = { t with native := s.native } ∧
          C.account s.native W.libraries
            (W.owed ++ (t.arrays.modify id fun a => a.withOwned ⟨⟨0⟩⟩).custody)) (Tended C W) := by
      refine .zoom fun s hs => ?_
      subst hs
      have hperm := ((Table.custody_emptied ht.distinct ha).append_left W.owed).trans
        (List.perm_append_comm_assoc _ _ _)
      have hn := Custody.meets_release hlib a.owned _ s.native
        (C.settle hperm.symm.subperm ht.account)
      cases hr : a.owned.release a.engine.library s.native with
      | ok r n =>
        rw [hr] at hn
        exact ⟨hn.1, rfl, hn.2⟩
      | error e n =>
        rw [hr] at hn
        exact hn.elim
    refine hback.bind fun r => .modify fun s ⟨hr, hs, hn⟩ => ?_
    obtain ⟨_, owned⟩ := r
    obtain rfl : owned = ⟨⟨0⟩⟩ := hr
    rw [hs]
    exact ht.modified (f := fun a => a.withOwned ⟨⟨0⟩⟩) (fun _ => rfl) hn

theorem tended_bury (id : ArrayId) : Keeps (Tended C W) (bury id) := by
  refine (tended_release id).bind fun _ => .modify fun s hs => ?_
  exact
    { hs with
      distinct := Table.nodup_erase hs.distinct
      bounded := fun j hj => hs.bounded j (Table.mem_keys_erase.1 hj).1
      arrays := fun j b hb => hs.arrays j b (Table.get?_erase_eq_some.1 hb).2
      pins := fun p hp => ⟨(hs.pins p hp).1, fun b hb =>
        (hs.pins p hp).2 b (Table.get?_erase_eq_some.1 hb).2⟩
      account := C.settle ((Table.custody_erase s.arrays id).append_left _).subperm hs.account }

theorem tended_letGo (id : ArrayId) : Keeps (Tended C W) (letGo id) :=
  .get_bind fun _ ht => .ite (fun _ => (tended_bury id).start ht) fun _ => .done ht

theorem tended_buryUnheld : ∀ n, Keeps (Tended C W) (buryUnheld n)
  | 0 => keeps_pure _
  | n + 1 => by
    unfold buryUnheld
    refine .get_bind fun t ht => ?_
    split
    · exact .done ht
    · exact ((tended_bury _).start ht).bind fun _ => tended_buryUnheld n

theorem tended_sweep : Keeps (Tended C W) sweep :=
  .get_bind fun _ ht => (tended_buryUnheld _).start ht

theorem tended_settled {f : Action (Session σ) α} (hf : Keeps (Tended C W) f) :
    Keeps (Tended C W) (settled f) := meets_settled_of_keeps hf tended_sweep

theorem tended_keeping {f : Action (Session σ) ArrayId} (hf : Keeps (Tended C W) f) :
    Keeps (Tended C W) (keeping f) :=
  tended_settled (hf.bind fun id => (tended_holdArray id).bind fun _ => keeps_pure _)

theorem tended_keepingAll {f : Action (Session σ) (List ArrayId)} (hf : Keeps (Tended C W) f) :
    Keeps (Tended C W) (keepingAll f) :=
  tended_settled (hf.bind fun ids => (Keeps.forM tended_holdArray ids).bind fun _ => keeps_pure _)

theorem tended_attach (owner : Option ScopeId) (id : ArrayId) :
    Keeps (Tended C W) (attach owner id) := by
  cases owner with
  | none => exact keeps_pure _
  | some S =>
    refine tended_of_scope (fun c _ => .guard (fun _ hs => hs) fun _ => ?_) S
    exact (tended_modifyScope S fun _ => by rfl).bind fun _ =>
      tended_modifyArray id fun _ => by exact ⟨rfl, rfl⟩

theorem tended_leave (id : ArrayId) : Keeps (Tended C W) (leave id) := by
  refine .get_bind fun t ht => ?_
  split
  · exact .done ht
  · exact ((tended_modifyArray id fun _ => by exact ⟨rfl, rfl⟩).start ht).bind fun _ =>
      tended_modifyScope _ fun _ => by rfl

theorem tended_retire (id : ArrayId) : Keeps (Tended C W) (retire id) :=
  (tended_release id).bind fun _ => tended_leave id

theorem tended_wrapAll (he : e ∈ W.roster) (owner : Option ScopeId) (known : Option Description)
    (handles : List Handle) :
    Meets (Tended C (W.owe e.library handles)) (wrapAll e owner known handles)
      (fun ids => Tended C (W.pin ids e)) (Tended C W) := by
  -- what is not wrapped yet is owed, what is wrapped is pinned
  have hwrap := Meets.mapM (f := fun h => wrap e h known)
    (I := fun left ids => Tended C ((W.pin ids e).owe e.library left)) (E := Tended C W)
    (fun h left ids => (tended_wrap (W := (W.pin ids e).owe e.library left) he h known).to_imp
      fun id s hs => hs.mono rfl (List.Subset.refl _) ?_ (List.Subperm.refl _)) handles []
  · refine hwrap.bind fun ids => Meets.bind (Q := fun _ => Tended C (W.pin ids e)) ?_
      fun _ => .pure fun _ hs => hs
    exact (Keeps.forM (tended_attach owner) ids).imp (fun _ hs => hs) (fun _ _ hs => hs)
      fun _ hs => hs.unpin
  · intro p hp
    simpa [Watch.pin, Watch.owe, or_assoc, or_left_comm] using hp

theorem tended_joinScope (he : e ∈ W.roster) (id : ArrayId) (h : Handle)
    (known : Option Description) :
    Meets (Tended C ((W.pin [id] e).owe e.library [h])) (joinScope id h known)
      (fun new => Beside C W id [new]) (Tended C W) := by
  refine (meets_array id fun _ hs => hs.settle.unpin).bind fun a => .of_state fun t ⟨ha, ht⟩ => ?_
  obtain rfl : a.engine = e := ht.settle.engine_eq (List.mem_singleton_self id) ha
  refine ((tended_wrap (W := W.pin [id] a.engine) he h known).start ht).bind fun new => ?_
  refine Meets.bind (Q := fun _ => Tended C ((W.pin [id] a.engine).pin [new] a.engine)) ?_
    fun _ => .pure fun s hs => ⟨a.engine, he, ?_⟩
  · exact (tended_attach a.owner new).imp (fun _ hs => hs) (fun _ _ hs => hs)
      fun _ hs => hs.unpin.unpin
  · refine hs.mono rfl (List.Subset.refl _) (fun p hp => ?_) (List.Subperm.refl _)
    simpa [Watch.pin, or_left_comm] using hp

theorem tended_newScope (he : e ∈ W.roster) (device : Device) (parent : Option ScopeId)
    (closed : Bool) : Keeps (Tended C W) (newScope e device parent closed) := by
  have hfresh : Keeps (Tended C W) freshId := fun s hs => hs.counted
  refine hfresh.bind fun S => .modify_bind (I := Tended C W) (fun s hs => ?_)
    ((tended_holdScope S).bind fun _ => keeps_pure _)
  exact { hs with
    scopes := fun j c hc => by
      rcases Table.get?_insert_eq_some.1 hc with ⟨-, rfl⟩ | ⟨-, hc⟩
      · exact he
      · exact hs.scopes j c hc }

theorem tended_subScope (parent : ScopeId) (device : Option Device) :
    Keeps (Tended C W) (subScope parent device) := by
  refine tended_of_scope (fun c hc => (tended_newScope hc _ _ _).bind fun child => ?_) parent
  refine .ite (fun _ => .get_bind fun t ht => ?_) fun _ => keeps_pure _
  exact ((tended_modifyScope parent fun _ => by rfl).start ht).bind fun _ => keeps_pure _

theorem tended_surrender (owner : ScopeId) (id : ArrayId) :
    Keeps (Tended C W) (surrender owner id) := by
  refine (tended_modifyScope owner fun _ => by rfl).bind fun _ => .get_bind fun t ht => ?_
  refine .ite (fun _ => ?_) fun _ => tended_sweep.start ht
  exact ((tended_modifyArray id fun _ => by exact ⟨rfl, rfl⟩).start ht).bind fun _ =>
    (tended_release id).bind fun _ => tended_sweep

theorem tended_closeWithin : ∀ (depth : Nat) (S : ScopeId),
    Keeps (Tended C W) (closeWithin depth S)
  | 0, _ => keeps_pure _
  | depth + 1, S => by
    unfold closeWithin
    refine .get_bind fun t ht => ?_
    split
    · exact .done ht
    · rename_i c hc
      refine .ite (fun _ => ?_) fun _ => .done ht
      refine ((tended_modifyScope S fun _ => by rfl).start ht).bind fun _ => ?_
      refine (Keeps.forM (tended_surrender S) c.arrays).bind fun _ => Keeps.forM (fun child => ?_) _
      exact .get_bind fun u hu => .ite (fun _ => (tended_closeWithin depth child).start hu)
        fun _ => .done hu

theorem tended_closeScope (S : ScopeId) : Keeps (Tended C W) (closeScope S) :=
  .get_bind fun _ ht => (tended_closeWithin _ S).start ht

theorem tended_dropScope (S : ScopeId) : Keeps (Tended C W) (dropScope S) := by
  refine .modify_bind (I := Tended C W) (fun _ hs => { hs with }) (.get_bind fun t ht => ?_)
  refine .ite (fun _ => ?_) fun _ => .done ht
  refine ((tended_closeScope S).start ht).bind fun _ => .modify fun s hs => ?_
  exact { hs with scopes := fun j c hc => hs.scopes j c (Table.get?_erase_eq_some.1 hc).2 }

theorem tended_adopt (target : ScopeId) (id : ArrayId) : Keeps (Tended C W) (adopt target id) := by
  have hmoved : Keeps (Tended C W) (do
      modifyScope target fun s => { s with arrays := s.arrays ++ [id] }
      modifyArray id fun a : Tensor σ => { a with owner := some target }) :=
    (tended_modifyScope target fun _ => by rfl).bind fun _ =>
      tended_modifyArray id fun _ => by exact ⟨rfl, rfl⟩
  refine tended_of_scope (fun c _ => tended_of_array (fun a _ => ?_) id) target
  refine .guard (fun _ hs => hs) fun _ => .guard (fun _ hs => hs) fun _ => ?_
  split
  · exact .guard (fun _ hs => hs) fun _ => hmoved
  · refine .get_bind fun t ht => ?_
    split
    · refine .start (.guard (fun _ hs => hs) fun _ => .ite (fun _ => keeps_pure _) fun _ => ?_) ht
      refine .guard (fun _ hs => hs) fun _ => ?_
      exact (tended_modifyScope _ fun _ => by rfl).bind fun _ => hmoved
    · exact (keeps_throw _).start ht

end Session
end ScopedTensor
