import ScopedTensor.Proofs.Ownership.Updates

/-! Arrays that come in and arrays that end, and what variables hold. -/

namespace ScopedTensor

variable {σ : Type}

namespace Table

variable {arrays : Table (Tensor σ)} {id : ArrayId} {a : Tensor σ}

theorem handles_insert (hid : arrays.get? id = none) (ha : a.owned.handle.isNull = false) :
    (arrays.insert id a).handles = arrays.handles ++ [a.owned.handle] := by
  unfold handles
  rw [insert_of_none a hid, List.map_append, List.filter_append]
  simp [ha]

theorem handles_erase (hkeys : arrays.keys.Nodup) (hid : arrays.get? id = some a)
    (ha : a.owned.handle.isNull = true) : (arrays.erase id).handles = arrays.handles := by
  obtain ⟨before, behind, he, _, herase⟩ := exists_split hkeys hid
  unfold handles
  rw [herase, he]
  simp [ha]

theorem handleAt_insert {j : ArrayId} (hj : j ≠ id) :
    (arrays.insert id a).handleAt j = arrays.handleAt j := by
  unfold handleAt
  rw [get?_insert, if_neg hj]

theorem handleAt_erase {j : ArrayId} (hj : j ≠ id) :
    (arrays.erase id).handleAt j = arrays.handleAt j := by
  unfold handleAt
  rw [get?_erase, if_neg hj]

end Table

namespace Session

variable {R : Regime σ} {d : Debts} {s : Session σ} {owed : List Handle} {retiring : Option ArrayId}
variable {closing leaving : Option ScopeId} {orphans : List ScopeId}

theorem Numbered.wrapped {lastId : Nat} {scopes : Table (Scope σ)} {arrays : Table (Tensor σ)}
    (h : Numbered lastId scopes arrays) {a : Tensor σ} (ha : a.gradient = none) :
    Numbered (lastId + 1) scopes (arrays.insert (lastId + 1) a) where
  arraysDistinct := Table.nodup_insert h.arraysDistinct a
  scopesDistinct := h.scopesDistinct
  arrays_le i hi := by
    rcases Table.mem_keys_insert.1 hi with hi | rfl
    · exact Nat.le_succ_of_le (h.arrays_le i hi)
    · exact Nat.le_refl _
  scopes_le S hS := Nat.le_succ_of_le (h.scopes_le S hS)
  gradient_gt i g hg := by
    unfold Table.gradientAt at hg
    rw [Table.bind_get?_insert i h.fresh_array ha] at hg
    exact h.gradient_gt i g hg
  parent_lt := h.parent_lt
  child_gt := h.child_gt
  child_le S c hc := Nat.le_succ_of_le (h.child_le S c hc)
  child_parent := h.child_parent

theorem Rooted.counted {orphans held : List ScopeId} {leaving : Option ScopeId} {lastId : Nat}
    {scopes : Table (Scope σ)} (h : Rooted R orphans leaving lastId scopes held) :
    Rooted R orphans leaving (lastId + 1) scopes held :=
  { h with
    barred := fun S hS => ⟨Nat.le_succ_of_le (h.barred S hS).1, (h.barred S hS).2⟩
    floor := Nat.le_succ_of_le h.floor }

theorem Sound.wrapped {hd : Handle}
    (h : Sound R ⟨hd :: owed, true, retiring, closing, orphans, leaving⟩ s) {a : Tensor σ}
    (hnull : hd.isNull = false) (howned : a.owned = ⟨hd⟩) (howner : a.owner = none)
    (hgradient : a.gradient = none) (hengine : R.admits a.engine) :
    Sound R ⟨owed, true, retiring, closing, orphans, leaving⟩
      { s with lastId := s.lastId + 1, arrays := s.arrays.insert (s.lastId + 1) a } := by
  have hfresh := h.numbered.fresh_array
  have hownerAt : ∀ j, (s.arrays.insert (s.lastId + 1) a).ownerAt j = s.arrays.ownerAt j :=
    fun j => Table.bind_get?_insert j hfresh howner
  constructor
  case numbered => exact h.numbered.wrapped hgradient
  case registered =>
    refine h.registered.of_arrays hownerAt fun j S hj _ => Table.handleAt_insert ?_
    rintro rfl
    exact (Table.not_mem_keys_iff _ _).2 hfresh (Table.mem_keys_of_ownerAt hj)
  case rooted => exact h.rooted.counted
  case staffed =>
    refine ⟨fun j b hb => ?_, h.staffed.scopes⟩
    rcases Table.get?_insert_eq_some.1 hb with ⟨-, rfl⟩ | ⟨-, hb⟩
    · exact hengine
    · exact h.staffed.arrays j b hb
  case held => exact nofun
  case named =>
    have hgrad : ∀ j, (s.arrays.insert (s.lastId + 1) a).gradientAt j = s.arrays.gradientAt j :=
      fun j => Table.bind_get?_insert j hfresh hgradient
    have hlater := h.named.later (Nat.le_succ _)
    exact ⟨hlater.held_le, fun j g hg => hlater.gradient_le j g ((hgrad j).symm.trans hg)⟩
  -- What is owed becomes what is owned, which the account does not tell apart but for the order.
  case account =>
    have hnull' : a.owned.handle.isNull = false := howned ▸ hnull
    rw [Table.handles_insert hfresh hnull', howned]
    refine R.perm ?_ h.account
    rw [List.cons_append, ← List.append_assoc]
    exact (List.perm_append_singleton hd _).symm

theorem Sound.counted (h : Sound R d s) : Sound R d { s with lastId := s.lastId + 1 } where
  numbered :=
    { h.numbered with
      arrays_le := fun id hid => Nat.le_succ_of_le (h.numbered.arrays_le id hid)
      scopes_le := fun S hS => Nat.le_succ_of_le (h.numbered.scopes_le S hS)
      child_le := fun S c hc => Nat.le_succ_of_le (h.numbered.child_le S c hc) }
  registered := h.registered
  rooted := h.rooted.counted
  staffed := h.staffed
  held := h.held
  named := h.named.later (Nat.le_succ _)
  account := h.account

theorem Numbered.erased {lastId : Nat} {scopes : Table (Scope σ)} {arrays : Table (Tensor σ)}
    (h : Numbered lastId scopes arrays) (id : ArrayId) :
    Numbered lastId scopes (arrays.erase id) where
  arraysDistinct := by
    rw [Table.keys_erase]
    exact h.arraysDistinct.filter _
  scopesDistinct := h.scopesDistinct
  arrays_le i hi := h.arrays_le i (Table.mem_keys_erase.1 hi).1
  scopes_le := h.scopes_le
  gradient_gt i g hg := by
    obtain ⟨b, hb, hbg⟩ := Option.bind_eq_some_iff.1 hg
    exact h.gradient_gt i g (Option.bind_eq_some_iff.2 ⟨b, (Table.get?_erase_eq_some.1 hb).2, hbg⟩)
  parent_lt := h.parent_lt
  child_gt := h.child_gt
  child_le := h.child_le
  child_parent := h.child_parent

theorem Sound.erased (h : Sound R d s) (hl : d.loose = true) {id : ArrayId} {a : Tensor σ}
    (ha : s.arrays.get? id = some a) (hnull : a.owned.handle.isNull = true)
    (howner : s.arrays.ownerAt id = none) :
    Sound R d { s with arrays := s.arrays.erase id } := by
  have hownerAt : ∀ j, (s.arrays.erase id).ownerAt j = s.arrays.ownerAt j :=
    fun j => Table.bind_get?_erase j howner
  constructor
  case numbered => exact h.numbered.erased id
  case registered =>
    refine h.registered.of_arrays hownerAt fun j S hj _ => Table.handleAt_erase ?_
    rintro rfl
    exact absurd (howner.symm.trans hj) (Option.some_ne_none S).symm
  case rooted => exact h.rooted
  case staffed =>
    exact ⟨fun j b hb => h.staffed.arrays j b (Table.get?_erase_eq_some.1 hb).2, h.staffed.scopes⟩
  case held => exact fun hl' => absurd (hl.symm.trans hl') nofun
  case named =>
    refine ⟨h.named.held_le, fun j g hg => ?_⟩
    obtain ⟨b, hb, hbg⟩ := Option.bind_eq_some_iff.1 hg
    exact h.named.gradient_le j g
      (Option.bind_eq_some_iff.2 ⟨b, (Table.get?_erase_eq_some.1 hb).2, hbg⟩)
  case account =>
    rw [Table.handles_erase h.numbered.arraysDistinct ha hnull]
    exact h.account

theorem Sound.hold (h : Sound R d s) {id : ArrayId} (hid : id ≤ s.lastId) :
    Sound R d { s with arrayHolds := id :: s.arrayHolds } where
  numbered := h.numbered
  registered := h.registered
  rooted := h.rooted
  staffed := h.staffed
  held hl j hj := (h.held hl j hj).mono (List.mem_cons_of_mem _) (fun _ hT => hT) fun _ hi => hi
  named := ⟨List.forall_mem_cons.2 ⟨hid, h.named.held_le⟩, h.named.gradient_le⟩
  account := h.account

theorem Sound.unhold (h : Sound R d s) (hl : d.loose = true) (id : ArrayId) :
    Sound R d { s with arrayHolds := s.arrayHolds.erase id } :=
  ⟨h.numbered, h.registered, h.rooted, h.staffed, fun hl' => absurd (hl.symm.trans hl') nofun,
    ⟨fun j hj => h.named.held_le j (List.mem_of_mem_erase hj), h.named.gradient_le⟩, h.account⟩

theorem Sound.tighten (h : Sound R ⟨owed, true, retiring, closing, orphans, leaving⟩ s)
    (hheld : ∀ id ∈ s.arrays.keys, Holds s.arrayHolds s.scopes s.arrays id) (loose : Bool) :
    Sound R ⟨owed, loose, retiring, closing, orphans, leaving⟩ s :=
  ⟨h.numbered, h.registered, h.rooted, h.staffed, fun _ => hheld, h.named, h.account⟩

theorem Sound.holdScope (h : Sound R d s) (S : ScopeId) :
    Sound R d { s with scopeHolds := S :: s.scopeHolds } where
  numbered := h.numbered
  registered := h.registered
  rooted := { h.rooted with held := fun T hT hl => List.mem_cons_of_mem _ (h.rooted.held T hT hl) }
  staffed := h.staffed
  held := h.held
  named := h.named
  account := h.account

end Session
end ScopedTensor
