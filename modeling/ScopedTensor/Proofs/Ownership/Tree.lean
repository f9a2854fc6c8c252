import ScopedTensor.Proofs.Ownership.Lifetimes

/-! What the updates of the scope tree do to soundness: new scopes, scopes marked as closed, and
scopes that go. -/

namespace ScopedTensor

variable {σ : Type}

def Scope.shut (c : Scope σ) : Scope σ := { c with closed := true, children := [] }

def Scope.withChildren (c : Scope σ) (children : List ScopeId) : Scope σ := { c with children }

def Scope.listing (c : Scope σ) (keep : ScopeId → Bool) (id : ScopeId) : Scope σ :=
  c.withChildren (c.children.filter keep ++ [id])

def Regime.above (R : Regime σ) (floor : Nat) : Regime σ := { R with floor }

def Regime.barring (R : Regime σ) (id : ScopeId) : Regime σ :=
  { R with barred := fun S => R.barred S ∨ S = id }

namespace Table

variable {scopes : Table (Scope σ)} {S T : ScopeId} {c : Scope σ}

theorem registry_insert (hS : scopes.get? S = none) (hc : c.arrays = []) :
    (scopes.insert S c).registry T = scopes.registry T := by
  unfold registry
  rw [get?_insert]
  split
  · rename_i hT
    simp [hT, hS, hc]
  · rfl

theorem openAt_insert :
    (scopes.insert S c).openAt T = if T = S then !c.closed else scopes.openAt T := by
  unfold openAt
  rw [get?_insert]
  split <;> rfl

theorem parentAt_insert :
    (scopes.insert S c).parentAt T = if T = S then c.parent else scopes.parentAt T := by
  unfold parentAt
  rw [get?_insert]
  split <;> rfl

theorem childrenAt_insert (hS : scopes.get? S = none) (hc : c.children = []) :
    (scopes.insert S c).childrenAt T = scopes.childrenAt T := by
  unfold childrenAt
  rw [get?_insert]
  split
  · rename_i hT
    simp [hT, hS, hc]
  · rfl

theorem openAt_shut : (scopes.modify S Scope.shut).openAt T =
    if T = S then false else scopes.openAt T := by
  unfold openAt
  rw [get?_modify]
  split
  · cases scopes.get? T <;> simp [Scope.shut]
  · rfl

theorem childrenAt_shut : (scopes.modify S Scope.shut).childrenAt T =
    if T = S then [] else scopes.childrenAt T := by
  unfold childrenAt
  rw [get?_modify]
  split
  · cases scopes.get? T <;> simp [Scope.shut]
  · rfl

theorem openAt_listing (scopes : Table (Scope σ)) (p T : ScopeId) (keep : ScopeId → Bool)
    (id : ScopeId) :
    (scopes.modify p fun b => b.listing keep id).openAt T = scopes.openAt T :=
  openAt_modify scopes p T (f := fun b => b.listing keep id) fun _ => rfl

theorem parentAt_listing (scopes : Table (Scope σ)) (p T : ScopeId) (keep : ScopeId → Bool)
    (id : ScopeId) :
    (scopes.modify p fun b => b.listing keep id).parentAt T = scopes.parentAt T :=
  parentAt_modify scopes p T (f := fun b => b.listing keep id) fun _ => rfl

theorem mem_childrenAt_listing {p : ScopeId} (hkey : p ∈ scopes.keys) (keep : ScopeId → Bool)
    (id k : ScopeId) :
    k ∈ (scopes.modify p fun b => b.listing keep id).childrenAt T ↔
      (k ∈ scopes.childrenAt T ∧ (T = p → keep k = true)) ∨ T = p ∧ k = id := by
  obtain ⟨c, hc⟩ := (mem_keys_iff _ _).1 hkey
  unfold childrenAt
  rw [get?_modify]
  by_cases hT : T = p
  · subst hT
    simp [hc, Scope.listing, Scope.withChildren]
  · simp [hT]

theorem registry_erase : (scopes.erase S).registry T = if T = S then [] else scopes.registry T := by
  unfold registry
  rw [get?_erase]
  split <;> rfl

theorem openAt_erase : (scopes.erase S).openAt T = if T = S then false else scopes.openAt T := by
  unfold openAt
  rw [get?_erase]
  split <;> rfl

theorem parentAt_erase :
    (scopes.erase S).parentAt T = if T = S then none else scopes.parentAt T := by
  unfold parentAt
  rw [get?_erase]
  split <;> rfl

theorem parentAt_of_erase {p : ScopeId} (h : (scopes.erase S).parentAt T = some p) :
    scopes.parentAt T = some p := by
  rw [parentAt_erase] at h
  split at h
  · exact absurd h nofun
  · exact h

theorem openAt_erase_of_shut (h : scopes.openAt S = false) :
    (scopes.erase S).openAt T = scopes.openAt T := by
  rw [openAt_erase]
  split
  · rename_i hT
    rw [hT, h]
  · rfl

theorem childrenAt_erase : (scopes.erase S).childrenAt T =
    if T = S then [] else scopes.childrenAt T := by
  unfold childrenAt
  rw [get?_erase]
  split <;> rfl

theorem mem_keys_of_parentAt {p : ScopeId} (h : scopes.parentAt S = some p) : S ∈ scopes.keys := by
  obtain ⟨c, hc, -⟩ := Option.bind_eq_some_iff.1 h
  exact (mem_keys_iff _ _).2 ⟨c, hc⟩

theorem openAt_of_not_mem (h : S ∉ scopes.keys) : scopes.openAt S = false := by
  unfold openAt
  rw [(not_mem_keys_iff _ _).1 h]
  rfl

theorem registry_of_not_mem (h : S ∉ scopes.keys) : scopes.registry S = [] := by
  unfold registry
  rw [(not_mem_keys_iff _ _).1 h]
  rfl

end Table

namespace Session

variable {R : Regime σ} {d : Debts} {s : Session σ} {owed : List Handle} {loose : Bool}
variable {retiring : Option ArrayId} {closing leaving : Option ScopeId} {orphans : List ScopeId}
variable {lastId : Nat} {scopes : Table (Scope σ)} {arrays : Table (Tensor σ)}
variable {held : List ScopeId}

section Listing

variable {p : ScopeId} {keep : ScopeId → Bool}

theorem Numbered.listed (h : Numbered lastId scopes arrays) (hkey : p ∈ scopes.keys) :
    Numbered (lastId + 1) (scopes.modify p fun b => b.listing keep (lastId + 1)) arrays := by
  have hparent := fun T => Table.parentAt_listing scopes p T keep (lastId + 1)
  have hlist := fun T k => (Table.mem_childrenAt_listing (T := T) hkey keep (lastId + 1) k).1
  constructor
  case arraysDistinct => exact h.arraysDistinct
  case scopesDistinct =>
    rw [Table.keys_modify]
    exact h.scopesDistinct
  case arrays_le => exact fun id hid => Nat.le_succ_of_le (h.arrays_le id hid)
  case scopes_le =>
    intro T hT
    rw [Table.keys_modify] at hT
    exact Nat.le_succ_of_le (h.scopes_le T hT)
  case gradient_gt => exact h.gradient_gt
  case parent_lt => exact fun T q hq => h.parent_lt T q (hparent T ▸ hq)
  case child_gt =>
    intro T k hk
    rcases hlist T k hk with ⟨hk, -⟩ | ⟨rfl, rfl⟩
    · exact h.child_gt T k hk
    · exact Nat.lt_succ_of_le (h.scopes_le T hkey)
  case child_le =>
    intro T k hk
    rcases hlist T k hk with ⟨hk, -⟩ | ⟨-, rfl⟩
    · exact Nat.le_succ_of_le (h.child_le T k hk)
    · exact Nat.le_refl _
  case child_parent =>
    intro T k hk hkeys
    rw [Table.keys_modify] at hkeys
    rcases hlist T k hk with ⟨hk, -⟩ | ⟨-, rfl⟩
    · exact (hparent k).trans (h.child_parent T k hk hkeys)
    · exact absurd hkeys ((Table.not_mem_keys_iff _ _).2 h.fresh_scope)

theorem Rooted.listed (h : Rooted R orphans none lastId scopes held) (hkey : p ∈ scopes.keys)
    (hkeep : ∀ T ∈ held, keep T = true) :
    Rooted R orphans none (lastId + 1) (scopes.modify p fun b => b.listing keep (lastId + 1))
      held := by
  have hopen := fun T => Table.openAt_listing scopes p T keep (lastId + 1)
  have hparent := fun T => Table.parentAt_listing scopes p T keep (lastId + 1)
  constructor
  case orphaned =>
    intro S q
    rw [hopen, hopen, hparent]
    exact h.orphaned S q
  case child =>
    intro S q hq hS
    rw [hopen] at hq
    rw [hparent] at hS
    -- The scopes that are forgotten are held by nobody, and a scope that is there is held.
    have hheld := h.held S (Table.mem_keys_of_parentAt hS) nofun
    exact (Table.mem_childrenAt_listing hkey keep (lastId + 1) S).2
      (.inl ⟨h.child S q hq hS, fun _ => hkeep S hheld⟩)
  case held =>
    intro T
    rw [Table.keys_modify]
    exact h.held T
  case barred =>
    intro T hT
    rw [hopen]
    exact ⟨Nat.le_succ_of_le (h.barred T hT).1, (h.barred T hT).2⟩
  case root =>
    intro T
    rw [Table.keys_modify, hparent]
    exact h.root T
  case floor => exact Nat.le_succ_of_le h.floor

theorem Sound.listed (h : Sound R ⟨owed, loose, retiring, closing, orphans, none⟩ s)
    (hkey : p ∈ s.scopes.keys) (keep : ScopeId → Bool)
    (hkeep : ∀ T ∈ s.scopeHolds, keep T = true) :
    Sound R ⟨owed, loose, retiring, closing, orphans, none⟩ { s with
      lastId := s.lastId + 1
      scopes := s.scopes.modify p fun b => b.listing keep (s.lastId + 1) } := by
  have hregistry := fun T => Table.registry_modify s.scopes p T
    (f := fun b => b.listing keep (s.lastId + 1)) fun _ => rfl
  have hopen := fun T => Table.openAt_listing s.scopes p T keep (s.lastId + 1)
  constructor
  case numbered => exact h.numbered.listed hkey
  case registered =>
    exact h.registered.of_registry hregistry fun S hS hcl => h.registered.shut S (hopen S ▸ hS) hcl
  case rooted => exact h.rooted.listed hkey hkeep
  case staffed =>
    exact h.staffed.modifyScope p (f := fun b => b.listing keep (s.lastId + 1)) fun _ => rfl
  case held =>
    exact fun hl id hid => (h.held hl id hid).mono (fun hv => hv)
      (fun T hT => hregistry T ▸ hT) fun _ hi => hi
  case named => exact h.named.later (Nat.le_succ _)
  case account => exact h.account

end Listing

/-- The number given out last stands for no scope yet. -/
structure Unsown (R : Regime σ) (s : Session σ) : Prop where
  fresh : s.scopes.get? s.lastId = none
  unbarred : ¬ R.barred s.lastId

theorem Sound.unsown (h : Sound R d s) {t : Session σ} (hlast : t.lastId = s.lastId + 1)
    (hkeys : t.scopes.keys = s.scopes.keys) : Unsown R t where
  fresh := by
    rw [← Table.not_mem_keys_iff, hlast, hkeys, Table.not_mem_keys_iff]
    exact h.numbered.fresh_scope
  unbarred hbarred := by
    have hle := (h.rooted.barred _ hbarred).1
    rw [hlast] at hle
    exact absurd hle (Nat.not_succ_le_self _)

theorem Numbered.parent_ne (h : Numbered lastId scopes arrays) (hfresh : scopes.get? lastId = none)
    {S p : ScopeId} (hp : scopes.parentAt S = some p) : p ≠ lastId := by
  rintro rfl
  have hlt := h.parent_lt S _ hp
  have hle := h.scopes_le S (Table.mem_keys_of_parentAt hp)
  exact absurd hlt (Nat.not_lt.2 hle)

/-- A new scope registers nothing and has nothing below it; where it is to hang is there, and lists
it unless it is closed. No other scope lists it. -/
structure Sprout (scopes : Table (Scope σ)) (id : ScopeId) (c : Scope σ) : Prop where
  arrays : c.arrays = []
  children : c.children = []
  listed : ∀ S, id ∈ scopes.childrenAt S → c.parent = some S
  parent : ∀ p, c.parent = some p → p ∈ scopes.keys ∧ c.closed = !scopes.openAt p ∧
    (scopes.openAt p = true → id ∈ scopes.childrenAt p)

section Sprouting

variable {id : ScopeId} {c : Scope σ}

theorem Sprout.parent_ne (hc : Sprout scopes id c) (hfresh : scopes.get? id = none) {p : ScopeId}
    (hp : c.parent = some p) : p ≠ id := by
  rintro rfl
  exact (Table.not_mem_keys_iff _ _).2 hfresh (hc.parent _ hp).1

theorem Numbered.sprouted (h : Numbered lastId scopes arrays)
    (hfresh : scopes.get? lastId = none) (hc : Sprout scopes lastId c) :
    Numbered lastId (scopes.insert lastId c) arrays := by
  have hchildren := fun T => Table.childrenAt_insert (T := T) hfresh hc.children
  constructor
  case arraysDistinct => exact h.arraysDistinct
  case scopesDistinct =>
    exact Table.nodup_insert h.scopesDistinct c
  case arrays_le => exact h.arrays_le
  case scopes_le =>
    intro T hT
    rcases Table.mem_keys_insert.1 hT with hT | rfl
    · exact h.scopes_le T hT
    · exact Nat.le_refl _
  case gradient_gt => exact h.gradient_gt
  case parent_lt =>
    intro T p hp
    rw [Table.parentAt_insert] at hp
    split at hp
    · rename_i hT
      rw [hT]
      exact Nat.lt_of_le_of_ne (h.scopes_le p (hc.parent p hp).1) (hc.parent_ne hfresh hp)
    · exact h.parent_lt T p hp
  case child_gt =>
    intro T k hk
    rw [hchildren] at hk
    exact h.child_gt T k hk
  case child_le =>
    intro T k hk
    rw [hchildren] at hk
    exact h.child_le T k hk
  case child_parent =>
    intro T k hk hkey
    rw [hchildren] at hk
    rw [Table.parentAt_insert]
    split
    · rename_i hnew
      exact hc.listed T (hnew ▸ hk)
    · rename_i hne
      exact h.child_parent T k hk ((Table.mem_keys_insert.1 hkey).resolve_right hne)

theorem Rooted.sprouted (hn : Numbered lastId scopes arrays)
    (h : Rooted R orphans leaving lastId scopes held) (hfresh : scopes.get? lastId = none)
    (hc : Sprout scopes lastId c) (hunbarred : ¬ R.barred lastId)
    (hroot : c.parent = none → R.root lastId) :
    Rooted R orphans leaving lastId (scopes.insert lastId c) (lastId :: held) := by
  constructor
  case orphaned =>
    intro T p hT hp hpopen
    rw [Table.parentAt_insert] at hp
    rw [Table.openAt_insert] at hT hpopen
    by_cases hnew : T = lastId
    · -- below a closed scope the new one is closed as well
      rw [if_pos hnew] at hT hp
      rw [if_neg (hc.parent_ne hfresh hp)] at hpopen
      rw [(hc.parent p hp).2.1, hpopen] at hT
      exact absurd hT (by decide)
    · rw [if_neg hnew] at hT hp
      rw [if_neg (hn.parent_ne hfresh hp)] at hpopen
      exact h.orphaned T p hT hp hpopen
  case child =>
    intro T p hpopen hp
    rw [Table.parentAt_insert] at hp
    rw [Table.openAt_insert] at hpopen
    rw [Table.childrenAt_insert hfresh hc.children]
    by_cases hnew : T = lastId
    · rw [if_pos hnew] at hp
      rw [if_neg (hc.parent_ne hfresh hp)] at hpopen
      exact hnew ▸ (hc.parent p hp).2.2 hpopen
    · rw [if_neg hnew] at hp
      rw [if_neg (hn.parent_ne hfresh hp)] at hpopen
      exact h.child T p hpopen hp
  case held =>
    intro T hT hl
    rcases Table.mem_keys_insert.1 hT with hT | rfl
    · exact List.mem_cons_of_mem _ (h.held T hT hl)
    · exact List.mem_cons_self
  case barred =>
    intro T hT
    have hne : T ≠ lastId := fun hTid => hunbarred (hTid ▸ hT)
    rw [Table.openAt_insert, if_neg hne]
    exact h.barred T hT
  case root =>
    intro T hT hp
    rw [Table.parentAt_insert] at hp
    split at hp
    · rename_i hnew
      exact hnew ▸ hroot hp
    · rename_i hne
      exact h.root T ((Table.mem_keys_insert.1 hT).resolve_right hne) hp
  case floor => exact h.floor

theorem Sound.sprouted (h : Sound R d s) (hnumber : Unsown R s)
    (hc : Sprout s.scopes s.lastId c) (hengine : R.admits c.engine)
    (hroot : c.parent = none → R.root s.lastId) :
    Sound R d { s with
      scopes := s.scopes.insert s.lastId c
      scopeHolds := s.lastId :: s.scopeHolds } := by
  have hregistry : ∀ T, (s.scopes.insert s.lastId c).registry T = s.scopes.registry T :=
    fun _ => Table.registry_insert hnumber.fresh hc.arrays
  constructor
  case numbered => exact h.numbered.sprouted hnumber.fresh hc
  case registered =>
    refine h.registered.of_registry hregistry fun T hT hcl => ?_
    by_cases hnew : T = s.lastId
    · exact hnew ▸ Table.registry_of_not_mem ((Table.not_mem_keys_iff _ _).2 hnumber.fresh)
    · rw [Table.openAt_insert, if_neg hnew] at hT
      exact h.registered.shut T hT hcl
  case rooted => exact h.rooted.sprouted h.numbered hnumber.fresh hc hnumber.unbarred hroot
  case staffed =>
    refine ⟨h.staffed.arrays, fun T b hb => ?_⟩
    rcases Table.get?_insert_eq_some.1 hb with ⟨-, rfl⟩ | ⟨-, hb⟩
    · exact hengine
    · exact h.staffed.scopes T b hb
  case held =>
    exact fun hl id hid => (h.held hl id hid).mono (fun hv => hv)
      (fun T hT => hregistry T ▸ hT) fun _ hi => hi
  case named => exact h.named
  case account => exact h.account

end Sprouting

theorem Sound.unbarred {id : ScopeId} (h : Sound (R.barring id) d s) : Sound R d s where
  numbered := h.numbered
  registered := h.registered
  rooted := { h.rooted with barred := fun S hS => h.rooted.barred S (.inl hS) }
  staffed := ⟨h.staffed.arrays, h.staffed.scopes⟩
  held := h.held
  named := h.named
  account := h.account

theorem Sound.barring (h : Sound R d s) {id : ScopeId} (hid : id ≤ s.lastId)
    (hshut : s.scopes.openAt id = false) : Sound (R.barring id) d s where
  numbered := h.numbered
  registered := h.registered
  rooted :=
    { h.rooted with
      barred := fun S hS => hS.elim (h.rooted.barred S) fun hS => hS ▸ ⟨hid, hshut⟩ }
  staffed := ⟨h.staffed.arrays, h.staffed.scopes⟩
  held := h.held
  named := h.named
  account := h.account

theorem Sound.above (h : Sound R d s) {floor : Nat} (hfloor : floor ≤ s.lastId) :
    Sound (R.above floor) d s where
  numbered := h.numbered
  registered := h.registered
  rooted := { h.rooted with floor := hfloor }
  staffed := ⟨h.staffed.arrays, h.staffed.scopes⟩
  held := h.held
  named := h.named
  account := h.account

theorem Sound.openAt_barred {id : ScopeId} (h : Sound (R.barring id) d s) :
    s.scopes.openAt id = false := (h.rooted.barred id (.inr rfl)).2

theorem Sound.settle_orphan {id : ScopeId}
    (h : Sound R ⟨owed, loose, retiring, closing, id :: orphans, leaving⟩ s)
    (hshut : s.scopes.openAt id = false) :
    Sound R ⟨owed, loose, retiring, closing, orphans, leaving⟩ s :=
  { h with rooted :=
      { h.rooted with
        orphaned := fun S p hS hp hpo => by
          rcases List.mem_cons.1 (h.rooted.orphaned S p hS hp hpo) with rfl | hmem
          · exact absurd (hshut.symm.trans hS) nofun
          · exact hmem } }

theorem Sound.more_orphans {more : List ScopeId}
    (h : Sound R ⟨owed, loose, retiring, closing, orphans, leaving⟩ s) (hsub : orphans ⊆ more) :
    Sound R ⟨owed, loose, retiring, closing, more, leaving⟩ s :=
  { h with rooted :=
      { h.rooted with
        orphaned := fun S p hS hp hpo => hsub (h.rooted.orphaned S p hS hp hpo) } }

theorem Rooted.shut {id : ScopeId} (h : Rooted R (id :: orphans) leaving lastId scopes held)
    (hid : scopes.openAt id = true) (hle : id ≤ lastId) :
    Rooted (R.barring id) (scopes.childrenAt id ++ orphans) leaving lastId
      (scopes.modify id Scope.shut) held := by
  have hparent := fun T => Table.parentAt_modify scopes id T (f := Scope.shut) fun _ => rfl
  have hopen : ∀ T, (scopes.modify id Scope.shut).openAt T = true →
      T ≠ id ∧ scopes.openAt T = true := by
    intro T hT
    rw [Table.openAt_shut] at hT
    split at hT
    · exact absurd hT nofun
    · rename_i hne
      exact ⟨hne, hT⟩
  constructor
  case orphaned =>
    intro T p hT hp hpo
    obtain ⟨hne, hT⟩ := hopen T hT
    rw [hparent] at hp
    by_cases hpid : p = id
    · exact List.mem_append_left _ (h.child T id hid (hpid ▸ hp))
    · rw [Table.openAt_shut, if_neg hpid] at hpo
      have hmem := h.orphaned T p hT hp hpo
      exact List.mem_append_right _ ((List.mem_cons.1 hmem).resolve_left hne)
  case child =>
    intro T p hpo hp
    obtain ⟨hne, hpo⟩ := hopen p hpo
    rw [hparent] at hp
    rw [Table.childrenAt_shut, if_neg hne]
    exact h.child T p hpo hp
  case held =>
    intro T
    rw [Table.keys_modify]
    exact h.held T
  case barred =>
    intro T hT
    rw [Table.openAt_shut]
    rcases hT with hT | rfl
    · obtain ⟨hTle, hTo⟩ := h.barred T hT
      refine ⟨hTle, ?_⟩
      rw [hTo, ite_self]
    · exact ⟨hle, if_pos rfl⟩
  case root =>
    intro T
    rw [Table.keys_modify, hparent]
    exact h.root T
  case floor => exact h.floor

/-- A scope is marked as closed: it still registers arrays, and scopes below it are still open. -/
theorem Sound.shut {id : ScopeId}
    (h : Sound R ⟨owed, loose, retiring, none, id :: orphans, leaving⟩ s)
    (hid : s.scopes.openAt id = true) :
    Sound (R.barring id) ⟨owed, loose, retiring, some id, s.scopes.childrenAt id ++ orphans, leaving⟩
      { s with scopes := s.scopes.modify id Scope.shut } := by
  have hregistry := fun T => Table.registry_modify s.scopes id T (f := Scope.shut) fun _ => rfl
  constructor
  case numbered =>
    exact h.numbered.modifyScope id (f := Scope.shut) (fun _ => rfl)
      fun _ => List.nil_subset _
  case registered =>
    refine h.registered.of_registry hregistry fun T hT hcl => ?_
    have hne : T ≠ id := fun hTid => hcl (hTid ▸ rfl)
    rw [Table.openAt_shut, if_neg hne] at hT
    exact h.registered.shut T hT nofun
  case rooted => exact h.rooted.shut hid (h.numbered.scopes_le id (Table.mem_keys_of_openAt hid))
  case staffed =>
    have := h.staffed.modifyScope id (f := Scope.shut) fun _ => rfl
    exact ⟨this.arrays, this.scopes⟩
  case held =>
    exact fun hl j hj => (h.held hl j hj).mono (fun hv => hv)
      (fun T hT => hregistry T ▸ hT) fun _ hi => hi
  case named => exact h.named
  case account => exact h.account

theorem Sound.settle_closing {id : ScopeId}
    (h : Sound R ⟨owed, loose, retiring, some id, orphans, leaving⟩ s)
    (hempty : s.scopes.registry id = []) :
    Sound R ⟨owed, loose, retiring, none, orphans, leaving⟩ s :=
  { h with registered :=
      { h.registered with
        shut := fun S hS _ => by
          by_cases hSid : S = id
          · exact hSid ▸ hempty
          · exact h.registered.shut S hS fun hid => hSid (Option.some.inj hid).symm } }

theorem Sound.unholdScope (h : Sound R ⟨owed, loose, retiring, closing, orphans, none⟩ s)
    (id : ScopeId) :
    Sound R ⟨owed, loose, retiring, closing, orphans, some id⟩
      { s with scopeHolds := s.scopeHolds.erase id } :=
  { h with rooted :=
      { h.rooted with
        held := fun S hS hl => by
          have hne : S ≠ id := fun hSid => hl (hSid ▸ rfl)
          exact (List.mem_erase_of_ne hne).2 (h.rooted.held S hS nofun) } }

theorem Sound.settle_leaving {id : ScopeId}
    (h : Sound R ⟨owed, loose, retiring, closing, orphans, some id⟩ s) (hid : id ∈ s.scopeHolds) :
    Sound R ⟨owed, loose, retiring, closing, orphans, none⟩ s :=
  { h with rooted :=
      { h.rooted with
        held := fun S hS _ => by
          by_cases hSid : S = id
          · exact hSid ▸ hid
          · exact h.rooted.held S hS fun hid => hSid (Option.some.inj hid).symm } }

section Felling

variable {id : ScopeId}

theorem Numbered.felled (h : Numbered lastId scopes arrays) (id : ScopeId) :
    Numbered lastId (scopes.erase id) arrays := by
  have hchild : ∀ T c, c ∈ (scopes.erase id).childrenAt T → c ∈ scopes.childrenAt T := by
    intro T c hc
    rw [Table.childrenAt_erase] at hc
    split at hc
    · exact absurd hc List.not_mem_nil
    · exact hc
  refine { h with
    scopesDistinct := by
      rw [Table.keys_erase]
      exact h.scopesDistinct.filter _
    scopes_le := fun S hS => h.scopes_le S (Table.mem_keys_erase.1 hS).1
    parent_lt := fun S p hp => h.parent_lt S p (Table.parentAt_of_erase hp)
    child_gt := fun S c hc => h.child_gt S c (hchild S c hc)
    child_le := fun S c hc => h.child_le S c (hchild S c hc)
    child_parent := fun S c hc hkey => ?_ }
  obtain ⟨hkey, hne⟩ := Table.mem_keys_erase.1 hkey
  rw [Table.parentAt_erase, if_neg hne]
  exact h.child_parent S c (hchild S c hc) hkey

theorem Rooted.felled (h : Rooted R [] (some id) lastId scopes held)
    (hshut : scopes.openAt id = false) : Rooted R [] none lastId (scopes.erase id) held := by
  have hopen := fun T => Table.openAt_erase_of_shut (T := T) hshut
  constructor
  case orphaned =>
    intro T p hT hp hpo
    rw [hopen] at hT hpo
    exact h.orphaned T p hT (Table.parentAt_of_erase hp) hpo
  case child =>
    intro T p hpo hp
    rw [hopen] at hpo
    have hne : p ≠ id := by
      rintro rfl
      exact absurd (hshut.symm.trans hpo) nofun
    rw [Table.childrenAt_erase, if_neg hne]
    exact h.child T p hpo (Table.parentAt_of_erase hp)
  case held =>
    intro T hT _
    obtain ⟨hT, hne⟩ := Table.mem_keys_erase.1 hT
    exact h.held T hT fun hid => hne (Option.some.inj hid).symm
  case barred => exact fun T hT => hopen T ▸ h.barred T hT
  case root =>
    intro T hT hp
    obtain ⟨hT, hne⟩ := Table.mem_keys_erase.1 hT
    rw [Table.parentAt_erase, if_neg hne] at hp
    exact h.root T hT hp
  case floor => exact h.floor

theorem Sound.felled (h : Sound R ⟨owed, loose, retiring, none, [], some id⟩ s)
    (hshut : s.scopes.openAt id = false) :
    Sound R ⟨owed, loose, retiring, none, [], none⟩ { s with scopes := s.scopes.erase id } := by
  have hopen := fun T => Table.openAt_erase_of_shut (T := T) hshut
  have hregistry : ∀ T, (s.scopes.erase id).registry T = s.scopes.registry T := by
    intro T
    rw [Table.registry_erase]
    split
    · rename_i hT
      rw [hT, h.registered.shut id hshut nofun]
    · rfl
  constructor
  case numbered => exact h.numbered.felled id
  case registered =>
    exact h.registered.of_registry hregistry fun T hT => h.registered.shut T (hopen T ▸ hT)
  case rooted => exact h.rooted.felled hshut
  case staffed =>
    exact ⟨h.staffed.arrays, fun T b hb => h.staffed.scopes T b (Table.get?_erase_eq_some.1 hb).2⟩
  case held =>
    exact fun hl j hj => (h.held hl j hj).mono (fun hv => hv)
      (fun T hT => hregistry T ▸ hT) fun _ hi => hi
  case named => exact h.named
  case account => exact h.account

end Felling

end Session
end ScopedTensor
