import ScopedTensor.Proofs.Ownership.Account
import ScopedTensor.Session.Scope

/-! When a session is sound: every array and its scope name each other, closed scopes register
nothing, scopes form a tree that closes downwards, and the handles that arrays own are those the
account of the engines says are owned. An operation under way may owe some of this. -/

namespace ScopedTensor

variable {σ : Type}

/-- What a session is held to. -/
structure Regime (σ : Type) where
  account : σ → List Handle → Prop
  /-- The engines that scopes and arrays may belong to. -/
  admits : LoadedEngine σ → Prop
  /-- Scopes that are not open and never will be. -/
  barred : ScopeId → Prop
  /-- Scopes that may be without a parent. -/
  root : ScopeId → Prop
  /-- A number that has been given out. -/
  floor : Nat
  perm : ∀ {n owned owned'}, owned.Perm owned' → account n owned → account n owned'
  accounted : ∀ {e}, admits e → e.library.Accounted account

/-- What an operation under way has still to put right. -/
structure Debts where
  /-- Handles an engine has issued and no array owns yet. -/
  handles : List Handle := []
  /-- Whether arrays may be left that nobody holds. -/
  loose : Bool := false
  /-- An array that gave its handle back and is still registered. -/
  retiring : Option ArrayId := none
  /-- A scope that is closed and still registers arrays. -/
  closing : Option ScopeId := none
  /-- Scopes that are open below one that is not. -/
  orphans : List ScopeId := []
  /-- A scope that no variable holds. -/
  leaving : Option ScopeId := none

namespace Table

section Scopes

variable (scopes : Table (Scope σ)) (S : ScopeId)

def registry : List ArrayId := ((scopes.get? S).map Scope.arrays).getD []

def openAt : Bool := ((scopes.get? S).map fun c => !c.closed).getD false

def parentAt : Option ScopeId := (scopes.get? S).bind Scope.parent

def childrenAt : List ScopeId := ((scopes.get? S).map Scope.children).getD []

variable {scopes S} {c : Scope σ}

theorem registry_of_get? (h : scopes.get? S = some c) : scopes.registry S = c.arrays := by
  unfold registry
  rw [h]
  rfl

theorem openAt_of_get? (h : scopes.get? S = some c) : scopes.openAt S = !c.closed := by
  unfold openAt
  rw [h]
  rfl

theorem parentAt_of_get? (h : scopes.get? S = some c) : scopes.parentAt S = c.parent := by
  unfold parentAt
  rw [h]
  rfl

theorem childrenAt_of_get? (h : scopes.get? S = some c) : scopes.childrenAt S = c.children := by
  unfold childrenAt
  rw [h]
  rfl

theorem mem_registry {id : ArrayId} :
    id ∈ scopes.registry S ↔ ∃ c, scopes.get? S = some c ∧ id ∈ c.arrays := by
  unfold registry
  cases scopes.get? S <;> simp

theorem mem_childrenAt {T : ScopeId} :
    T ∈ scopes.childrenAt S ↔ ∃ c, scopes.get? S = some c ∧ T ∈ c.children := by
  unfold childrenAt
  cases scopes.get? S <;> simp

theorem openAt_iff : scopes.openAt S = true ↔ ∃ c, scopes.get? S = some c ∧ c.closed = false := by
  unfold openAt
  cases scopes.get? S <;> simp

theorem openAt_eq_false_iff :
    scopes.openAt S = false ↔ ∀ c, scopes.get? S = some c → c.closed = true := by
  unfold openAt
  cases scopes.get? S <;> simp

theorem openAt_of_closed (h : scopes.get? S = some c) (hclosed : c.closed = true) :
    scopes.openAt S = false := by
  rw [openAt_of_get? h, hclosed]
  rfl

theorem mem_keys_of_openAt (h : scopes.openAt S = true) : S ∈ scopes.keys := by
  obtain ⟨c, hc, _⟩ := openAt_iff.1 h
  exact (mem_keys_iff _ _).2 ⟨c, hc⟩

theorem mem_keys_of_mem_registry {id : ArrayId} (h : id ∈ scopes.registry S) : S ∈ scopes.keys := by
  obtain ⟨c, hc, _⟩ := mem_registry.1 h
  exact (mem_keys_iff _ _).2 ⟨c, hc⟩

end Scopes

section Arrays

variable (arrays : Table (Tensor σ)) (id : ArrayId)

def ownerAt : Option ScopeId := (arrays.get? id).bind Tensor.owner

def gradientAt : Option ArrayId := (arrays.get? id).bind Tensor.gradient

def handleAt : Handle := ((arrays.get? id).map fun a => a.owned.handle).getD ⟨0⟩

def handles : List Handle :=
  (arrays.entries.map fun e => e.2.owned.handle).filter fun h => !h.isNull

variable {arrays id} {a : Tensor σ}

theorem ownerAt_of_get? (h : arrays.get? id = some a) : arrays.ownerAt id = a.owner := by
  unfold ownerAt
  rw [h]
  rfl

theorem handleAt_of_get? (h : arrays.get? id = some a) : arrays.handleAt id = a.owned.handle := by
  unfold handleAt
  rw [h]
  rfl

theorem mem_keys_of_ownerAt {S : ScopeId} (h : arrays.ownerAt id = some S) : id ∈ arrays.keys := by
  obtain ⟨a, ha, _⟩ := Option.bind_eq_some_iff.1 h
  exact (mem_keys_iff _ _).2 ⟨a, ha⟩

end Arrays
end Table

namespace Session

variable {lastId : Nat} {scopes : Table (Scope σ)} {arrays : Table (Tensor σ)}
variable {R : Regime σ} {d : Debts} {s : Session σ}

structure Numbered (lastId : Nat) (scopes : Table (Scope σ)) (arrays : Table (Tensor σ)) :
    Prop where
  arraysDistinct : arrays.keys.Nodup
  scopesDistinct : scopes.keys.Nodup
  arrays_le : ∀ id ∈ arrays.keys, id ≤ lastId
  scopes_le : ∀ S ∈ scopes.keys, S ≤ lastId
  gradient_gt : ∀ id g : Nat, arrays.gradientAt id = some g → id < g
  parent_lt : ∀ S p : Nat, scopes.parentAt S = some p → p < S
  child_gt : ∀ S c : Nat, c ∈ scopes.childrenAt S → S < c
  child_le : ∀ S c : Nat, c ∈ scopes.childrenAt S → c ≤ lastId
  /-- A listed child that is gone by now does not count. -/
  child_parent : ∀ S, ∀ c ∈ scopes.childrenAt S, c ∈ scopes.keys → scopes.parentAt c = some S

/-- Arrays and scopes name each other. -/
structure Registered (retiring : Option ArrayId) (closing : Option ScopeId)
    (scopes : Table (Scope σ)) (arrays : Table (Tensor σ)) : Prop where
  owner_iff : ∀ id S, arrays.ownerAt id = some S ↔ id ∈ scopes.registry S
  once : ∀ S, (scopes.registry S).Nodup
  unreleased : ∀ S, ∀ id ∈ scopes.registry S, retiring ≠ some id →
    (arrays.handleAt id).isNull = false
  shut : ∀ S, scopes.openAt S = false → closing ≠ some S → scopes.registry S = []

/-- What is open hangs below what is open. -/
structure Rooted (R : Regime σ) (orphans : List ScopeId) (leaving : Option ScopeId) (lastId : Nat)
    (scopes : Table (Scope σ)) (held : List ScopeId) : Prop where
  orphaned : ∀ S p, scopes.openAt S = true → scopes.parentAt S = some p →
    scopes.openAt p = false → S ∈ orphans
  child : ∀ S p, scopes.openAt p = true → scopes.parentAt S = some p → S ∈ scopes.childrenAt p
  held : ∀ S ∈ scopes.keys, leaving ≠ some S → S ∈ held
  barred : ∀ S, R.barred S → S ≤ lastId ∧ scopes.openAt S = false
  root : ∀ S ∈ scopes.keys, scopes.parentAt S = none → R.root S
  floor : R.floor ≤ lastId

structure Staffed (R : Regime σ) (scopes : Table (Scope σ)) (arrays : Table (Tensor σ)) : Prop where
  arrays : ∀ id a, arrays.get? id = some a → R.admits a.engine
  scopes : ∀ S c, scopes.get? S = some c → R.admits c.engine

/-- Held by a variable, by a scope, or as the gradient of an array. -/
def Holds (held : List ArrayId) (scopes : Table (Scope σ)) (arrays : Table (Tensor σ))
    (id : ArrayId) : Prop :=
  id ∈ held ∨ (∃ S, id ∈ scopes.registry S) ∨ ∃ j, arrays.gradientAt j = some id

/-- What variables and gradients name has been given out. -/
structure Named (lastId : Nat) (held : List ArrayId) (arrays : Table (Tensor σ)) : Prop where
  held_le : ∀ id ∈ held, id ≤ lastId
  gradient_le : ∀ id g : Nat, arrays.gradientAt id = some g → g ≤ lastId

structure Sound (R : Regime σ) (d : Debts) (s : Session σ) : Prop where
  numbered : Numbered s.lastId s.scopes s.arrays
  registered : Registered d.retiring d.closing s.scopes s.arrays
  rooted : Rooted R d.orphans d.leaving s.lastId s.scopes s.scopeHolds
  staffed : Staffed R s.scopes s.arrays
  held : d.loose = false → ∀ id ∈ s.arrays.keys, Holds s.arrayHolds s.scopes s.arrays id
  named : Named s.lastId s.arrayHolds s.arrays
  account : R.account s.native (d.handles ++ s.arrays.handles)

theorem isHeld_iff (h : Numbered s.lastId s.scopes s.arrays) (id : ArrayId) :
    s.isHeld id = true ↔ Holds s.arrayHolds s.scopes s.arrays id := by
  have hscope : s.scopes.entries.any (fun e => e.2.arrays.contains id) = true ↔
      ∃ S, id ∈ s.scopes.registry S := by
    rw [Table.any_entries_iff h.scopesDistinct]
    simp only [Table.mem_registry, List.contains_iff_mem]
  have hgrad : s.arrays.entries.any (fun e => e.2.gradient == some id) = true ↔
      ∃ j, s.arrays.gradientAt j = some id := by
    rw [Table.any_entries_iff h.arraysDistinct]
    simp only [Table.gradientAt, Option.bind_eq_some_iff, beq_iff_eq]
  unfold isHeld Holds
  rw [Bool.or_eq_true, Bool.or_eq_true, hscope, hgrad, List.contains_iff_mem, or_assoc]

theorem Numbered.fresh_array (h : Numbered lastId scopes arrays) :
    arrays.get? (lastId + 1) = none := by
  rw [← Table.not_mem_keys_iff]
  intro hm
  have := h.arrays_le _ hm
  omega

theorem Numbered.fresh_scope (h : Numbered lastId scopes arrays) :
    scopes.get? (lastId + 1) = none := by
  rw [← Table.not_mem_keys_iff]
  intro hm
  have := h.scopes_le _ hm
  omega

theorem Numbered.not_listed (h : Numbered lastId scopes arrays) (S : ScopeId) :
    lastId + 1 ∉ scopes.childrenAt S := fun hc => Nat.not_succ_le_self _ (h.child_le S _ hc)

theorem Holds.mono {held held' : List ArrayId} {scopes' : Table (Scope σ)}
    {arrays' : Table (Tensor σ)} {id : ArrayId} (h : Holds held scopes arrays id)
    (hheld : id ∈ held → id ∈ held')
    (hregistry : ∀ S, id ∈ scopes.registry S → id ∈ scopes'.registry S)
    (hgradient : ∀ j, arrays.gradientAt j = some id → arrays'.gradientAt j = some id) :
    Holds held' scopes' arrays' id := by
  rcases h with hv | ⟨S, hS⟩ | ⟨j, hj⟩
  · exact .inl (hheld hv)
  · exact .inr (.inl ⟨S, hregistry S hS⟩)
  · exact .inr (.inr ⟨j, hgradient j hj⟩)

theorem Registered.of_registry {retiring : Option ArrayId} {closing closing' : Option ScopeId}
    {scopes' : Table (Scope σ)} (h : Registered retiring closing scopes arrays)
    (hregistry : ∀ S, scopes'.registry S = scopes.registry S)
    (hshut : ∀ S, scopes'.openAt S = false → closing' ≠ some S → scopes.registry S = []) :
    Registered retiring closing' scopes' arrays where
  owner_iff id S := hregistry S ▸ h.owner_iff id S
  once S := hregistry S ▸ h.once S
  unreleased S id hid := h.unreleased S id (hregistry S ▸ hid)
  shut S hS hcl := (hregistry S).trans (hshut S hS hcl)

theorem Registered.of_arrays {retiring : Option ArrayId} {closing : Option ScopeId}
    {arrays' : Table (Tensor σ)} (h : Registered retiring closing scopes arrays)
    (howner : ∀ id, arrays'.ownerAt id = arrays.ownerAt id)
    (hhandle : ∀ id S, arrays.ownerAt id = some S → retiring ≠ some id →
      arrays'.handleAt id = arrays.handleAt id) :
    Registered retiring closing scopes arrays' where
  owner_iff id S := howner id ▸ h.owner_iff id S
  once := h.once
  unreleased S id hid hr := by
    rw [hhandle id S ((h.owner_iff id S).2 hid) hr]
    exact h.unreleased S id hid hr
  shut := h.shut

theorem Registered.open_of_owner {retiring : Option ArrayId}
    (h : Registered retiring none scopes arrays) {id : ArrayId} {S : ScopeId}
    (ho : arrays.ownerAt id = some S) : scopes.openAt S = true := by
  cases hn : scopes.openAt S with
  | true => rfl
  | false =>
    have hmem := (h.owner_iff id S).1 ho
    rw [h.shut S hn nofun] at hmem
    exact absurd hmem (by simp)

end Session
end ScopedTensor
