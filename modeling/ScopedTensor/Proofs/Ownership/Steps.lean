import ScopedTensor.Proofs.Ownership.Endings
import ScopedTensor.Proofs.Ownership.Lifetimes
import ScopedTensor.Session.Array

/-! The small steps that operations are put together from: calls of engines, giving handles back,
wrapping them, and ending what nobody holds. Each keeps the session sound or says what it owes. -/

namespace ScopedTensor.Session

open ScopedTensor.Action

variable {σ α β : Type} {R : Regime σ} {d : Debts} {a : Action σ α} {E : Session σ → Prop}
variable {owed : List Handle} {closing leaving : Option ScopeId} {orphans : List ScopeId}
variable {account : σ → List Handle → Prop} {I : Session σ → Prop}

/-- What calls that issue no handle and notes about arrays leave true of a session. -/
class Lasting (account : outParam (σ → List Handle → Prop)) (I : Session σ → Prop) : Prop where
  accounted : ∀ {s id a}, I s → s.arrays.get? id = some a → a.engine.library.Accounted account
  native : ∀ {s : Session σ} {n : σ}, (∀ owned, account s.native owned → account n owned) → I s →
    I { s with native := n }
  note : ∀ {s : Session σ} (id : ArrayId) {f : Tensor σ → Tensor σ}, Note f → I s →
    I { s with arrays := s.arrays.modify id f }

instance : Lasting R.account (Sound R d) where
  accounted hs ha := R.accounted (hs.staffed.arrays _ _ ha)
  native hn hs := hs.native (hn _ hs.account)
  note id _ hf hs := hs.note id hf

instance [Lasting account I] (k : Nat) : Lasting account fun s => I s ∧ k ≤ s.lastId where
  accounted hs := Lasting.accounted hs.1
  native hn hs := ⟨Lasting.native hn hs.1, hs.2⟩
  note id _ hf hs := ⟨Lasting.note id hf hs.1, hs.2⟩

theorem keeps_onNative [Lasting account I] (ha : Undisturbed account a) : Keeps I (onNative a) := by
  refine .zoom fun s hs => ?_
  have hafter : ∀ owned, account s.native owned → account (a.after s.native) owned :=
    fun owned => (ha owned).after
  unfold Action.after at hafter
  cases hr : a s.native with
  | ok x n => rw [hr] at hafter; exact Lasting.native hafter hs
  | error e n => rw [hr] at hafter; exact Lasting.native hafter hs

theorem issues_onNative {issued : α → List Handle} (ha : Issues R.account a issued)
    {I : Session σ → Prop} (hI : ∀ s n, I s → I { s with native := n }) :
    Meets (fun s => Sound R d s ∧ I s) (onNative a)
      (fun x s => (∀ h ∈ issued x, h.isNull = false) ∧
        Sound R { d with handles := issued x ++ d.handles } s ∧ I s) (Sound R d) := by
  refine .zoom fun s ⟨hs, hi⟩ => ?_
  have := ha _ s.native hs.account
  cases hr : a s.native with
  | ok x n =>
    rw [hr] at this
    refine ⟨this.1, hs.native ?_, hI s n hi⟩
    rw [List.append_assoc]
    exact this.2
  | error e n => rw [hr] at this; exact hs.native this

theorem screens_array {I : Session σ → Prop} (id : ArrayId) (hE : ∀ s, I s → E s) :
    Screens I (array id) (fun a s => s.arrays.get? id = some a ∧ I s) E := by
  intro s hs
  cases ha : s.arrays.get? id with
  | some a =>
    rw [array_eq ha]
    exact ⟨ha, hs⟩
  | none =>
    have hgone : array id s = .error (.invalid .released) s := query_error (by rw [ha])
    rw [hgone]
    exact ⟨⟨_, rfl⟩, hE s hs⟩

theorem meets_array {I : Session σ → Prop} (id : ArrayId) (hE : ∀ s, I s → E s) :
    Meets I (array id) (fun a s => s.arrays.get? id = some a ∧ I s) E := (screens_array id hE).meets

theorem meets_scope {I : Session σ → Prop} (S : ScopeId) (hE : ∀ s, I s → E s) :
    Meets I (scope S) (fun c s => s.scopes.get? S = some c ∧ I s) E := by
  refine .query (fun s hs c hc => ?_) hE
  split at hc
  · rename_i b hb
    exact ⟨hb.trans (congrArg some (Except.ok.inj hc)), hs⟩
  · exact absurd hc nofun

theorem keeps_of_accounted [Lasting account I] {f : Tensor σ → Action (Session σ) β}
    (hf : ∀ a, a.engine.library.Accounted account → Keeps I (f a)) (id : ArrayId) :
    Keeps I (array id >>= f) :=
  (meets_array id fun _ hs => hs).bind fun a s hs => hf a (Lasting.accounted hs.2 hs.1) s hs.2

theorem keeps_callFor [Lasting account I] {f : Library σ → Action σ α}
    (hf : ∀ lib : Library σ, lib.Accounted account → Undisturbed account (f lib))
    (id : ArrayId) : Keeps I (callFor id f) :=
  keeps_of_accounted (fun _ ha => keeps_onNative (hf _ ha)) id

theorem issues_callFor {f : Library σ → Action σ α} {issued : α → List Handle}
    (hf : ∀ lib : Library σ, lib.Accounted R.account → Issues R.account (f lib) issued)
    (id : ArrayId) :
    Meets (Sound R d) (callFor id f)
      (fun x s => (∀ h ∈ issued x, h.isNull = false) ∧
        Sound R { d with handles := issued x ++ d.handles } s ∧ id ∈ s.arrays.keys) (Sound R d) := by
  refine (meets_array id fun _ hs => hs).bind fun b => .of_state fun t ⟨hb, ht⟩ => ?_
  have hissues := hf _ (R.accounted (ht.staffed.arrays _ _ hb))
  exact (issues_onNative hissues fun _ _ hi => hi).start ⟨ht, (Table.mem_keys_iff _ _).2 ⟨b, hb⟩⟩

theorem keeps_handle [Lasting account I] (id : ArrayId) : Keeps I (handle id) :=
  keeps_of_accounted (fun _ _ => keeps_ofExcept _) id

theorem screens_handle {J : Session σ → Prop} (id : ArrayId) (hE : ∀ s, J s → E s) :
    Screens J (handle id)
      (fun h s => (∃ a, s.arrays.get? id = some a ∧ a.owned.get = .ok h) ∧ J s) E := by
  refine (screens_array id hE).bind fun a => ?_
  cases hget : a.owned.get with
  | ok h => exact (Meets.pure fun s hs => ⟨⟨a, hs.1, hget⟩, hs.2⟩).screens
  | error e =>
    have he : e = .invalid .released := by
      unfold OwnedHandle.get at hget
      split at hget
      · exact (Except.error.inj hget).symm
      · exact absurd hget nofun
    rw [he]
    exact screens_throw .released fun s hs => hE s hs.2

theorem meets_handle {J : Session σ → Prop} (id : ArrayId) :
    Meets J (handle id)
      (fun h s => (∃ a, s.arrays.get? id = some a ∧ a.owned.get = .ok h) ∧ J s) J :=
  (screens_handle id fun _ hs => hs).meets

theorem keeps_note [Lasting account I] {f : Tensor σ → Tensor σ} (hf : Note f) (id : ArrayId) :
    Keeps I (modifyArray id f) := .modify fun _ hs => Lasting.note id hf hs

theorem meets_holdArray (id : ArrayId) :
    Meets (fun s => Sound R d s ∧ id ≤ s.lastId) (holdArray id) (fun _ => Sound R d) E :=
  .modify fun _ hs => hs.1.hold hs.2

theorem meets_release {t : Session σ} (ht : Sound R d t) (id : ArrayId)
    (ho : d.retiring = some id ∨ t.arrays.ownerAt id = none) :
    Meets (· = t) (release id)
      (fun _ s => Sound R d s ∧ s.scopes = t.scopes ∧ s.arrays.keys = t.arrays.keys ∧
        s.arrays.ownerAt id = t.arrays.ownerAt id ∧
        ∀ a, s.arrays.get? id = some a → a.owned.handle.isNull = true) E := by
  unfold release
  refine .get_bind fun u hu => ?_
  obtain rfl : t = u := hu.symm
  cases ha : t.arrays.get? id with
  | none =>
    exact .done ⟨ht, rfl, rfl, rfl, by simp [ha]⟩
  | some a =>
    -- the engine has the handle back, the array still carries it
    have hcall : Meets (· = t) (onNative (a.owned.release a.engine.library))
        (fun x s => x.2 = ⟨⟨0⟩⟩ ∧ R.account s.native
          (d.handles ++ (t.arrays.modify id fun a => a.withOwned ⟨⟨0⟩⟩).handles) ∧
          s = { t with native := s.native }) E := by
      refine .zoom fun s hs => ?_
      subst hs
      have hacc : R.account s.native (if a.owned.isReleased then
          d.handles ++ (s.arrays.modify id fun a => a.withOwned ⟨⟨0⟩⟩).handles
          else a.owned.handle ::
            (d.handles ++ (s.arrays.modify id fun a => a.withOwned ⟨⟨0⟩⟩).handles)) := by
        have hperm := handles_perm_emptied ht.numbered ha
        split
        · rename_i hr
          rw [if_pos hr] at hperm
          exact R.perm (hperm.append_left _) ht.account
        · rename_i hr
          rw [if_neg hr] at hperm
          exact R.perm ((hperm.append_left _).trans List.perm_middle) ht.account
      have := (R.accounted (ht.staffed.arrays _ _ ha)).release a.owned _ s.native hacc
      cases hr : a.owned.release a.engine.library s.native with
      | ok x n => rw [hr] at this; exact ⟨this.1, this.2, rfl⟩
      | error e n => rw [hr] at this; exact this.elim
    refine hcall.bind fun x => .modify fun s ⟨hx, hacc, hs⟩ => ?_
    obtain ⟨b, owned⟩ := x
    obtain rfl : owned = ⟨⟨0⟩⟩ := hx
    have hreg : d.retiring = some id ∨ ∀ S, id ∉ t.scopes.registry S := by
      refine ho.imp_right fun ho S hS => ?_
      have := (ht.registered.owner_iff id S).2 hS
      rw [ho] at this
      exact absurd this nofun
    have hown := Table.ownerAt_modify t.arrays id id (f := fun a => a.withOwned ⟨⟨0⟩⟩) fun _ => rfl
    rw [hs]
    refine ⟨ht.emptied id hreg hacc, rfl, Table.keys_modify _ _ _, hown, fun b hb => ?_⟩
    rw [Table.get?_modify, if_pos rfl, ha] at hb
    obtain rfl := Option.some.inj hb
    rfl

theorem Sound.retiring {s : Session σ} (h : Sound R ⟨owed, true, none, closing, orphans, leaving⟩ s)
    (id : ArrayId) : Sound R ⟨owed, true, some id, closing, orphans, leaving⟩ s :=
  { h with registered :=
      { h.registered with unreleased := fun S j hj _ => h.registered.unreleased S j hj nofun } }

theorem Sound.retired {s : Session σ} {id : ArrayId}
    (h : Sound R ⟨owed, true, some id, closing, orphans, leaving⟩ s)
    (ho : s.arrays.ownerAt id = none) :
    Sound R ⟨owed, true, none, closing, orphans, leaving⟩ s :=
  { h with registered :=
      { h.registered with
        unreleased := fun S j hj _ => h.registered.unreleased S j hj fun hid => by
          obtain rfl := Option.some.inj hid
          have := (h.registered.owner_iff _ S).2 hj
          rw [ho] at this
          exact absurd this nofun } }

theorem meets_leave (id : ArrayId) :
    Meets (Sound R ⟨owed, true, some id, closing, orphans, leaving⟩) (leave id)
      (fun _ => Sound R ⟨owed, true, none, closing, orphans, leaving⟩) E := by
  unfold leave
  refine .get_bind fun t ht => ?_
  split
  · rename_i ho
    exact .done (ht.retired ho)
  · rename_i S ho
    unfold modifyArray modifyScope
    refine .modify_bind
      (I := fun s => s = { t with arrays := t.arrays.modify id fun a => a.withOwner none })
      (fun s hs => by subst hs; rfl) (.modify fun s hs => ?_)
    subst hs
    exact ht.left rfl ho (.inr rfl)

theorem keeps_leave (id : ArrayId) :
    Keeps (Sound R ⟨owed, true, none, closing, orphans, leaving⟩) (leave id) :=
  (meets_leave id).of_imp fun _ hs => hs.retiring id

theorem meets_retire (id : ArrayId) :
    Meets (Sound R ⟨owed, true, none, closing, orphans, leaving⟩) (retire id)
      (fun _ => Sound R ⟨owed, true, none, closing, orphans, leaving⟩) E := by
  refine .of_state fun t ht => ?_
  exact (meets_release (ht.retiring id) id (.inl rfl)).bind
    fun _ => (meets_leave id).of_imp fun _ hs => hs.1

theorem keeps_retire (k : Nat) (id : ArrayId) :
    Keeps (fun s => Sound R ⟨owed, true, none, closing, orphans, leaving⟩ s ∧ k ≤ s.lastId)
      (retire id) := (meets_retire id).and (later_retire k id)

theorem meets_bury {t : Session σ}
    (ht : Sound R ⟨owed, true, none, closing, orphans, leaving⟩ t) {id : ArrayId}
    (hid : id ∈ t.arrays.keys) (ho : t.arrays.ownerAt id = none) :
    Meets (· = t) (bury id)
      (fun _ s => Sound R ⟨owed, true, none, closing, orphans, leaving⟩ s ∧ s.scopes = t.scopes ∧
        s.arrays.keys = t.arrays.keys.filter fun j => !(j == id)) E := by
  refine (meets_release ht id (.inr ho)).bind fun _ => .modify fun s hs => ?_
  obtain ⟨hs, hscopes, hkeys, howner, hnull⟩ := hs
  rw [← hkeys] at hid ⊢
  obtain ⟨a, ha⟩ := (Table.mem_keys_iff _ _).1 hid
  exact ⟨hs.erased rfl ha (hnull a ha) (howner.trans ho), hscopes, Table.keys_erase _ _⟩

theorem Sound.ownerAt_of_not_held {s : Session σ} (h : Sound R d s) {id : ArrayId}
    (hid : s.isHeld id = false) : s.arrays.ownerAt id = none := by
  cases ho : s.arrays.ownerAt id with
  | none => rfl
  | some S =>
    have hheld : s.isHeld id = true :=
      (isHeld_iff h.numbered id).2 (.inr (.inl ⟨S, (h.registered.owner_iff id S).1 ho⟩))
    exact absurd (hid.symm.trans hheld) nofun

theorem meets_letGo (id : ArrayId) :
    Meets (Sound R ⟨owed, true, none, closing, orphans, leaving⟩) (letGo id)
      (fun _ => Sound R ⟨owed, true, none, closing, orphans, leaving⟩) E := by
  unfold letGo
  refine .get_bind fun t ht => .ite (fun hheld => ?_) fun _ => .done ht
  have ho := ht.ownerAt_of_not_held (by simpa using hheld)
  by_cases hid : id ∈ t.arrays.keys
  · exact (meets_bury ht hid ho).to_imp fun _ _ hs => hs.1
  · -- an id that stands for no array
    refine (meets_release ht id (.inr ho)).bind fun _ => .modify fun s hs => ?_
    obtain ⟨hs, -, hkeys, -⟩ := hs
    have herase : s.arrays.erase id = s.arrays := Table.erase_of_not_mem (hkeys ▸ hid)
    rw [herase]
    exact hs

theorem keeps_letGo (k : Nat) (id : ArrayId) :
    Keeps (fun s => Sound R ⟨owed, true, none, closing, orphans, leaving⟩ s ∧ k ≤ s.lastId)
      (letGo id) := (meets_letGo id).and (later_letGo k id)

theorem meets_buryUnheld (loose : Bool) (n : Nat) {t : Session σ}
    (ht : Sound R ⟨owed, true, none, closing, orphans, leaving⟩ t) (hn : t.arrays.size ≤ n) :
    Meets (· = t) (buryUnheld n)
      (fun _ s => Sound R ⟨owed, loose, none, closing, orphans, leaving⟩ s ∧ s.scopes = t.scopes) E := by
  induction n generalizing t with
  | zero =>
    have hempty : t.arrays.keys = [] := by
      rw [← List.length_eq_zero_iff, Table.length_keys]
      exact Nat.le_zero.1 hn
    exact .done ⟨ht.tighten (by simp [hempty]) loose, rfl⟩
  | succ n ih =>
    unfold buryUnheld
    refine .get_bind fun u hu => ?_
    obtain rfl : t = u := hu.symm
    split
    · rename_i hall
      refine .done ⟨ht.tighten (fun id hid => ?_) loose, rfl⟩
      have := List.find?_eq_none.1 hall id hid
      exact (isHeld_iff ht.numbered id).1 (by simpa using this)
    · rename_i id hfound
      have hid := List.mem_of_find?_eq_some hfound
      have ho := ht.ownerAt_of_not_held (by simpa using List.find?_some hfound)
      refine (meets_bury ht hid ho).bind fun _ => .of_state fun s hs => ?_
      obtain ⟨hs, hscopes, hkeys⟩ := hs
      refine (ih hs ?_).to_imp fun _ _ hs' => ⟨hs'.1, hs'.2.trans hscopes⟩
      have hlt : (t.arrays.keys.filter fun j => !(j == id)).length < t.arrays.keys.length :=
        List.length_filter_lt_length_iff_exists.2 ⟨id, hid, by simp⟩
      rw [← hkeys] at hlt
      rw [Table.length_keys, Table.length_keys] at hlt
      omega

theorem meets_sweep (loose : Bool) {T : Table (Scope σ)} :
    Meets (fun s => Sound R ⟨owed, true, none, closing, orphans, leaving⟩ s ∧ s.scopes = T) sweep
      (fun _ s => Sound R ⟨owed, loose, none, closing, orphans, leaving⟩ s ∧ s.scopes = T) E := by
  unfold sweep
  refine .get_bind fun t ht => ?_
  exact (meets_buryUnheld loose _ ht.1 (Nat.le_refl _)).to_imp
    fun _ _ hs => ⟨hs.1, hs.2.trans ht.2⟩

theorem meets_settled_of_keeps {P J : Session σ → Prop} {a : Action (Session σ) α}
    (ha : Meets P a (fun _ => J) J) (hsweep : Keeps J sweep) : Meets P (settled a) (fun _ => J) J := by
  refine (ha.outcome (F := J)).bind fun r => ?_
  refine Meets.bind (Q := fun _ => J) (hsweep.of_imp fun s hs => ?_) fun _ => keeps_ofExcept _
  cases r <;> exact hs

theorem keeps_settled {a : Action (Session σ) α}
    (ha : Keeps (Sound R { loose := true }) a) : Keeps (Sound R {}) (settled a) := by
  unfold settled
  refine ((ha.of_imp fun _ hs => hs.loosen).outcome (F := Sound R {})).bind fun r => ?_
  refine Meets.bind (Q := fun _ => Sound R {}) ?_ fun _ => keeps_ofExcept r
  refine .of_state fun t ht => ?_
  have ht : Sound R { loose := true } t := by cases r <;> exact ht
  exact ((meets_sweep false).start ⟨ht, rfl⟩).to_imp fun _ _ hs => hs.1

theorem keeps_keeping {a : Action (Session σ) ArrayId}
    (ha : Meets (Sound R { loose := true }) a
      (fun id s => Sound R { loose := true } s ∧ id ≤ s.lastId) (Sound R { loose := true })) :
    Keeps (Sound R {}) (keeping a) :=
  keeps_settled (ha.bind fun id => (meets_holdArray id).bind fun _ => .pure fun _ hs => hs)

theorem keeps_keepingAll {a : Action (Session σ) (List ArrayId)}
    (ha : Meets (Sound R { loose := true }) a
      (fun ids s => Sound R { loose := true } s ∧ ∀ id ∈ ids, id ≤ s.lastId)
      (Sound R { loose := true })) :
    Keeps (Sound R {}) (keepingAll a) := by
  refine keeps_settled (ha.bind fun ids => ?_)
  refine (Meets.forM (f := holdArray)
    (I := fun left s => Sound R { loose := true } s ∧ ∀ id ∈ left, id ≤ s.lastId)
    (fun id left => .modify fun s hs => ?_) ids).bind fun _ => .pure fun _ hs => hs.1
  obtain ⟨hid, hleft⟩ := List.forall_mem_cons.1 hs.2
  exact ⟨hs.1.hold hid, hleft⟩

/-- An array with a handle that has not been entered into a scope. -/
structure Unplaced (s : Session σ) (id : ArrayId) : Prop where
  mem : id ∈ s.arrays.keys
  owner : s.arrays.ownerAt id = none
  handle : (s.arrays.handleAt id).isNull = false

theorem meets_wrap {engine : LoadedEngine σ} (he : R.admits engine) {h : Handle}
    (hnull : h.isNull = false) (known : Option Description) {t : Session σ}
    (ht : Sound R ⟨h :: owed, true, none, closing, orphans, leaving⟩ t) :
    Meets (· = t) (wrap engine h known)
      (fun id s => Sound R ⟨owed, true, none, closing, orphans, leaving⟩ s ∧
        (id = t.lastId + 1 ∧ s.lastId = t.lastId + 1 ∧ id ∉ t.arrays.keys) ∧
        Unplaced s id ∧ ∀ j, Unplaced t j → Unplaced s j) E := by
  intro s hs
  subst hs
  have hfresh := ht.numbered.fresh_array
  have hnew := (Table.not_mem_keys_iff _ _).2 hfresh
  refine ⟨Sound.wrapped ht hnull rfl rfl rfl he, ⟨rfl, rfl, hnew⟩, ?_, ?_⟩
  · constructor
    · exact Table.mem_keys_insert.2 (.inr rfl)
    · unfold Table.ownerAt
      rw [Table.bind_get?_insert _ hfresh rfl, hfresh]
      rfl
    · unfold Table.handleAt
      rw [Table.get?_insert, if_pos rfl]
      exact hnull
  · intro j hj
    have hne : j ≠ s.lastId + 1 := by
      rintro rfl
      exact hnew hj.mem
    constructor
    · exact Table.mem_keys_insert.2 (.inl hj.mem)
    · exact (Table.bind_get?_insert j hfresh rfl).trans hj.owner
    · rw [Table.handleAt_insert hne]
      exact hj.handle

/-- Arrays that are still to be entered into a scope, when `k` has been given out. -/
structure Placing (R : Regime σ) (d : Debts) (k : Nat) (ids : List ArrayId) (s : Session σ) :
    Prop where
  sound : Sound R d s
  distinct : ids.Nodup
  unplaced : ∀ id ∈ ids, Unplaced s id
  le : k ≤ s.lastId

theorem meets_attach {k : Nat} (owner : Option ScopeId) (id : ArrayId) (ids : List ArrayId) :
    Meets (Placing R d k (id :: ids)) (attach owner id) (fun _ => Placing R d k ids)
      (Sound R d) := by
  refine .of_state fun t ht => ?_
  obtain ⟨hnew, hdistinct⟩ := List.nodup_cons.1 ht.distinct
  have hunplaced := ht.unplaced id List.mem_cons_self
  unfold attach
  cases owner with
  | none =>
    exact .done ⟨ht.sound, hdistinct, fun j hj => ht.unplaced j (List.mem_cons_of_mem _ hj), ht.le⟩
  | some o =>
    refine (meets_scope o fun s hs => by rw [hs]; exact ht.sound).bind fun c => ?_
    refine .of_state fun u ⟨hc, hu⟩ => ?_
    subst hu
    refine .guard (fun s hs => by rw [hs]; exact ht.sound) fun hclosed => ?_
    unfold modifyScope modifyArray
    refine .modify_bind (I := (· = _)) (fun s hs => by rw [hs]) (.modify fun s hs => ?_)
    subst hs
    have hopen : u.scopes.openAt o = true := Table.openAt_iff.2 ⟨c, hc, by simpa using hclosed⟩
    have hjoined := ht.sound.joined hunplaced.mem hunplaced.owner hunplaced.handle hopen
    refine ⟨hjoined, hdistinct, fun j hj => ?_, ht.le⟩
    have hjid : j ≠ id := by
      rintro rfl
      exact hnew hj
    have hother := ht.unplaced j (List.mem_cons_of_mem _ hj)
    constructor
    · rw [Table.keys_modify]
      exact hother.mem
    · exact (Table.ownerAt_modify_self u.arrays id j (f := fun a => a.withOwner (some o)) (some o)
        (fun _ => rfl) hunplaced.mem).trans ((if_neg hjid).trans hother.owner)
    · exact (congrArg Handle.isNull (Table.handleAt_modify u.arrays id j
        (f := fun a => a.withOwner (some o)) fun _ => rfl)).trans hother.handle

/-- What is numbered above `k` and has been given out. -/
def Newer (k : Nat) (id : ArrayId) (s : Session σ) : Prop := k < id ∧ id ≤ s.lastId

theorem meets_wrapAll {k : Nat} {engine : LoadedEngine σ} (he : R.admits engine)
    (owner : Option ScopeId) (known : Option Description) (handles : List Handle)
    (hnull : ∀ h ∈ handles, h.isNull = false) :
    Meets (fun s => Sound R ⟨handles ++ owed, true, none, closing, orphans, leaving⟩ s ∧ k ≤ s.lastId)
      (wrapAll engine owner known handles)
      (fun ids s => Sound R ⟨owed, true, none, closing, orphans, leaving⟩ s ∧
        ∀ id ∈ ids, Newer k id s)
      (Sound R ⟨owed, true, none, closing, orphans, leaving⟩) := by
  unfold wrapAll
  -- all handles are wrapped before the first array is entered
  have hwrap := Meets.mapM (f := fun h => wrap engine h known)
    (I := fun left ids s => (∀ h ∈ left, h.isNull = false) ∧
      Placing R ⟨left ++ owed, true, none, closing, orphans, leaving⟩ k ids s ∧
      ∀ id ∈ ids, Newer k id s)
    (E := Sound R ⟨owed, true, none, closing, orphans, leaving⟩) ?_ handles []
  · refine (hwrap.of_imp fun s hs => ⟨hnull, ⟨hs.1, List.nodup_nil, by simp, hs.2⟩, by simp⟩).bind
      fun ids => ?_
    refine Meets.bind (Q := fun _ s => Sound R ⟨owed, true, none, closing, orphans, leaving⟩ s ∧
      ∀ id ∈ ids, Newer k id s) ?_ fun _ => .pure fun _ hs => hs
    refine .of_state fun t ⟨_, ht, hnewer⟩ => ?_
    refine ((Meets.forM (meets_attach (k := t.lastId) owner) ids).start
      { ht with le := Nat.le_refl _ }).to_imp fun _ s hs => ⟨hs.sound, fun id hid => ?_⟩
    exact ⟨(hnewer id hid).1, Nat.le_trans (hnewer id hid).2 hs.le⟩
  · intro h left ids
    refine .of_state fun t ⟨hnull, ht, hnewer⟩ => ?_
    refine (meets_wrap he (hnull h List.mem_cons_self) known ht.sound).to_imp fun id s hs => ?_
    obtain ⟨hs, ⟨hid, hlast, hfresh⟩, hunplaced, hothers⟩ := hs
    have hle : t.lastId ≤ s.lastId := hlast ▸ Nat.le_succ _
    refine ⟨fun x hx => hnull x (List.mem_cons_of_mem _ hx), ⟨hs, ?_, fun j hj => ?_,
      Nat.le_trans ht.le hle⟩, fun j hj => ?_⟩
    · refine List.nodup_append.2 ⟨ht.distinct, by simp, fun i hi j hj => ?_⟩
      obtain rfl := List.mem_singleton.1 hj
      rintro rfl
      exact hfresh (ht.unplaced _ hi).mem
    · rcases List.mem_append.1 hj with hj | hj
      · exact hothers j (ht.unplaced j hj)
      · exact List.mem_singleton.1 hj ▸ hunplaced
    · rcases List.mem_append.1 hj with hj | hj
      · exact ⟨(hnewer j hj).1, Nat.le_trans (hnewer j hj).2 hle⟩
      · obtain rfl := List.mem_singleton.1 hj
        exact ⟨hid ▸ Nat.lt_succ_of_le ht.le, Nat.le_of_eq (hid.trans hlast.symm)⟩

theorem meets_placed {engine : LoadedEngine σ} (he : R.admits engine) {h : Handle}
    (hnull : h.isNull = false) (known : Option Description) (owner : Option ScopeId) {t : Session σ}
    (ht : Sound R ⟨h :: owed, true, none, closing, orphans, leaving⟩ t) :
    Meets (· = t)
      (do
        let new ← wrap engine h known
        attach owner new
        return new)
      (fun new s => Sound R ⟨owed, true, none, closing, orphans, leaving⟩ s ∧ Newer t.lastId new s)
      (Sound R ⟨owed, true, none, closing, orphans, leaving⟩) := by
  refine (meets_wrap he hnull known ht).bind fun new => .of_state fun s hs => ?_
  obtain ⟨hs, ⟨hnew, hlast, -⟩, hunplaced, -⟩ := hs
  have hplacing : Placing R ⟨owed, true, none, closing, orphans, leaving⟩ s.lastId [new] s :=
    ⟨hs, by simp, by simpa using hunplaced, Nat.le_refl _⟩
  refine ((meets_attach owner new []).start hplacing).bind fun _ => .pure fun u hu => ?_
  exact ⟨hu.sound, hnew ▸ Nat.lt_succ_self _, Nat.le_trans (Nat.le_of_eq (hnew.trans hlast.symm)) hu.le⟩

theorem meets_joinScope (id : ArrayId) {h : Handle} (hnull : h.isNull = false)
    (known : Option Description) :
    Meets (fun s => Sound R ⟨h :: owed, true, none, closing, orphans, leaving⟩ s ∧
        id ∈ s.arrays.keys) (joinScope id h known)
      (fun new s => Sound R ⟨owed, true, none, closing, orphans, leaving⟩ s ∧ Newer id new s)
      (Sound R ⟨owed, true, none, closing, orphans, leaving⟩) := by
  refine .of_state fun t ⟨ht, hid⟩ => ?_
  obtain ⟨b, hb⟩ := (Table.mem_keys_iff _ _).1 hid
  have harray : Meets (· = t) (array id) (fun x s => x = b ∧ s = t)
      (Sound R ⟨owed, true, none, closing, orphans, leaving⟩) := by
    intro s hs
    subst hs
    simp [array, Action.query, hb]
  unfold joinScope
  refine harray.bind fun x => .of_state fun u ⟨hx, hu⟩ => ?_
  subst hx hu
  refine (meets_placed (ht.staffed.arrays _ _ hb) hnull known x.owner ht).to_imp fun new s hs => ?_
  exact ⟨hs.1, Nat.lt_of_le_of_lt (ht.numbered.arrays_le id hid) hs.2.1, hs.2.2⟩

end ScopedTensor.Session
