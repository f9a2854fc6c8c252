import ScopedTensor.Proofs.Ownership.Soundness

/-! What the single updates of a session's tables do to its soundness. -/

namespace ScopedTensor

variable {σ : Type}

namespace Tensor

variable (a : Tensor σ)

def withOwned (owned : OwnedHandle) : Tensor σ := { a with owned }

def withOwner (owner : Option ScopeId) : Tensor σ := { a with owner }

def withGradient (gradient : Option ArrayId) : Tensor σ := { a with gradient }

end Tensor

def Scope.withArrays (S : Scope σ) (arrays : List ArrayId) : Scope σ := { S with arrays }

namespace Table

section Arrays

variable (arrays : Table (Tensor σ)) (id j : ArrayId) {f : Tensor σ → Tensor σ}

theorem ownerAt_modify (h : ∀ a, (f a).owner = a.owner) :
    (arrays.modify id f).ownerAt j = arrays.ownerAt j := bind_get?_modify _ _ _ _ _ h

theorem gradientAt_modify (h : ∀ a, (f a).gradient = a.gradient) :
    (arrays.modify id f).gradientAt j = arrays.gradientAt j := bind_get?_modify _ _ _ _ _ h

theorem handleAt_modify (h : ∀ a, (f a).owned = a.owned) :
    (arrays.modify id f).handleAt j = arrays.handleAt j :=
  congrArg (fun o => o.getD ⟨0⟩)
    (map_get?_modify _ _ _ _ (fun a : Tensor σ => a.owned.handle) fun a => by rw [h])

theorem handles_modify (h : ∀ a, (f a).owned = a.owned) :
    (arrays.modify id f).handles = arrays.handles := by
  unfold handles modify
  rw [List.map_map]
  congr 1
  refine List.map_congr_left fun e _ => ?_
  simp only [Function.comp_apply]
  split
  · rw [h]
  · rfl

theorem ownerAt_modify_self (o : Option ScopeId) (h : ∀ a, (f a).owner = o)
    (hid : id ∈ arrays.keys) :
    (arrays.modify id f).ownerAt j = if j = id then o else arrays.ownerAt j := by
  obtain ⟨a, ha⟩ := (mem_keys_iff _ _).1 hid
  unfold ownerAt
  rw [get?_modify]
  by_cases hj : j = id
  · subst hj
    simp [ha, h]
  · simp [hj]

end Arrays

section Scopes

variable (scopes : Table (Scope σ)) (S T : ScopeId) {f : Scope σ → Scope σ}

theorem registry_modify (h : ∀ c, (f c).arrays = c.arrays) :
    (scopes.modify S f).registry T = scopes.registry T :=
  congrArg (fun o => o.getD []) (map_get?_modify _ _ _ _ _ h)

theorem openAt_modify (h : ∀ c, (f c).closed = c.closed) :
    (scopes.modify S f).openAt T = scopes.openAt T :=
  congrArg (fun o => o.getD false)
    (map_get?_modify _ _ _ _ (fun c : Scope σ => !c.closed) fun c => by rw [h])

theorem parentAt_modify (h : ∀ c, (f c).parent = c.parent) :
    (scopes.modify S f).parentAt T = scopes.parentAt T := bind_get?_modify _ _ _ _ _ h

theorem childrenAt_modify (h : ∀ c, (f c).children = c.children) :
    (scopes.modify S f).childrenAt T = scopes.childrenAt T :=
  congrArg (fun o => o.getD []) (map_get?_modify _ _ _ _ _ h)

theorem registry_modify_self (g : List ArrayId → List ArrayId) (h : ∀ c, (f c).arrays = g c.arrays)
    (hS : S ∈ scopes.keys) :
    (scopes.modify S f).registry T = if T = S then g (scopes.registry S) else scopes.registry T := by
  obtain ⟨c, hc⟩ := (mem_keys_iff _ _).1 hS
  unfold registry
  rw [get?_modify]
  by_cases hT : T = S
  · subst hT
    simp [hc, h]
  · simp [hT]

end Scopes
end Table

namespace Session

variable {lastId : Nat} {scopes : Table (Scope σ)} {arrays : Table (Tensor σ)}
variable {R : Regime σ} {retiring : Option ArrayId} {closing leaving : Option ScopeId}
variable {orphans : List ScopeId} {d : Debts} {s : Session σ}

theorem Staffed.modifyArray (h : Staffed R scopes arrays) (id : ArrayId) {f : Tensor σ → Tensor σ}
    (hf : ∀ a, (f a).engine = a.engine) : Staffed R scopes (arrays.modify id f) where
  arrays j b hb := by
    have hmap : ((arrays.modify id f).get? j).map Tensor.engine = (arrays.get? j).map Tensor.engine :=
      Table.map_get?_modify _ _ _ _ _ hf
    rw [hb] at hmap
    obtain ⟨a, ha, hab⟩ := Option.map_eq_some_iff.1 hmap.symm
    exact hab ▸ h.arrays j a ha
  scopes := h.scopes

theorem Staffed.modifyScope (h : Staffed R scopes arrays) (S : ScopeId) {f : Scope σ → Scope σ}
    (hf : ∀ c, (f c).engine = c.engine) : Staffed R (scopes.modify S f) arrays where
  arrays := h.arrays
  scopes T c hc := by
    have hmap : ((scopes.modify S f).get? T).map Scope.engine = (scopes.get? T).map Scope.engine :=
      Table.map_get?_modify _ _ _ _ _ hf
    rw [hc] at hmap
    obtain ⟨b, hb, hbc⟩ := Option.map_eq_some_iff.1 hmap.symm
    exact hbc ▸ h.scopes T b hb

theorem Numbered.modifyArray (h : Numbered lastId scopes arrays) (id : ArrayId)
    {f : Tensor σ → Tensor σ}
    (hf : ∀ a g, (f a).gradient = some g → a.gradient = some g ∨ id < g) :
    Numbered lastId scopes (arrays.modify id f) where
  arraysDistinct := by
    rw [Table.keys_modify]
    exact h.arraysDistinct
  scopesDistinct := h.scopesDistinct
  arrays_le := by
    rw [Table.keys_modify]
    exact h.arrays_le
  scopes_le := h.scopes_le
  gradient_gt j g hg := by
    obtain ⟨b, hb, hbg⟩ := Option.bind_eq_some_iff.1 hg
    rcases Table.get?_modify_eq_some.1 hb with ⟨rfl, a, ha, rfl⟩ | ⟨-, hb⟩
    · rcases hf a g hbg with hag | hlt
      · exact h.gradient_gt j g (Option.bind_eq_some_iff.2 ⟨a, ha, hag⟩)
      · exact hlt
    · exact h.gradient_gt j g (Option.bind_eq_some_iff.2 ⟨b, hb, hbg⟩)
  parent_lt := h.parent_lt
  child_gt := h.child_gt
  child_le := h.child_le
  child_parent := h.child_parent

theorem Numbered.modifyScope (h : Numbered lastId scopes arrays) (S : ScopeId)
    {f : Scope σ → Scope σ} (hf : ∀ c, (f c).parent = c.parent)
    (hch : ∀ c, (f c).children ⊆ c.children) : Numbered lastId (scopes.modify S f) arrays := by
  have hkeep : ∀ T k, k ∈ (scopes.modify S f).childrenAt T → k ∈ scopes.childrenAt T := by
    intro T k hk
    obtain ⟨b, hb, hbk⟩ := Table.mem_childrenAt.1 hk
    rcases Table.get?_modify_eq_some.1 hb with ⟨-, c, hc, rfl⟩ | ⟨-, hb⟩
    · exact Table.mem_childrenAt.2 ⟨c, hc, hch c hbk⟩
    · exact Table.mem_childrenAt.2 ⟨b, hb, hbk⟩
  have hparent := fun T => Table.parentAt_modify scopes S T hf
  constructor
  case arraysDistinct => exact h.arraysDistinct
  case scopesDistinct =>
    rw [Table.keys_modify]
    exact h.scopesDistinct
  case arrays_le => exact h.arrays_le
  case scopes_le =>
    rw [Table.keys_modify]
    exact h.scopes_le
  case gradient_gt => exact h.gradient_gt
  case parent_lt => exact fun T p hp => h.parent_lt T p (hparent T ▸ hp)
  case child_gt => exact fun T k hk => h.child_gt T k (hkeep T k hk)
  case child_le => exact fun T k hk => h.child_le T k (hkeep T k hk)
  case child_parent =>
    intro T k hk hkey
    rw [Table.keys_modify] at hkey
    exact (hparent k).trans (h.child_parent T k (hkeep T k hk) hkey)

theorem Named.modifyArray {held : List ArrayId} (h : Named lastId held arrays) (id : ArrayId)
    {f : Tensor σ → Tensor σ} (hf : ∀ a, (f a).gradient = a.gradient) :
    Named lastId held (arrays.modify id f) where
  held_le := h.held_le
  gradient_le j g hg := h.gradient_le j g ((Table.gradientAt_modify arrays id j hf).symm.trans hg)

theorem Named.later {held : List ArrayId} {next : Nat} (h : Named lastId held arrays)
    (hle : lastId ≤ next) : Named next held arrays where
  held_le id hid := Nat.le_trans (h.held_le id hid) hle
  gradient_le id g hg := Nat.le_trans (h.gradient_le id g hg) hle

theorem Rooted.modifyScope {held : List ScopeId} (h : Rooted R orphans leaving lastId scopes held)
    (S : ScopeId) {f : Scope σ → Scope σ} (hc : ∀ c, (f c).closed = c.closed)
    (hp : ∀ c, (f c).parent = c.parent) (hch : ∀ c, (f c).children = c.children) :
    Rooted R orphans leaving lastId (scopes.modify S f) held where
  orphaned T p := by
    rw [Table.openAt_modify scopes S T hc, Table.openAt_modify scopes S p hc,
      Table.parentAt_modify scopes S T hp]
    exact h.orphaned T p
  child T p := by
    rw [Table.openAt_modify scopes S p hc, Table.parentAt_modify scopes S T hp,
      Table.childrenAt_modify scopes S p hch]
    exact h.child T p
  held T := by
    rw [Table.keys_modify]
    exact h.held T
  barred T hT := by
    rw [Table.openAt_modify scopes S T hc]
    exact h.barred T hT
  root T := by
    rw [Table.keys_modify, Table.parentAt_modify scopes S T hp]
    exact h.root T
  floor := h.floor

theorem Registered.modifyArray (h : Registered retiring closing scopes arrays) (id : ArrayId)
    {f : Tensor σ → Tensor σ} (ho : ∀ a, (f a).owner = a.owner) (hh : ∀ a, (f a).owned = a.owned) :
    Registered retiring closing scopes (arrays.modify id f) :=
  h.of_arrays (fun j => Table.ownerAt_modify arrays id j ho)
    fun j _ _ _ => Table.handleAt_modify arrays id j hh

theorem Holds.modifyArray {held : List ArrayId} {j : ArrayId} (h : Holds held scopes arrays j)
    (id : ArrayId) {f : Tensor σ → Tensor σ} (hf : ∀ a, (f a).gradient = a.gradient) :
    Holds held scopes (arrays.modify id f) j :=
  h.mono (fun hv => hv) (fun _ hT => hT)
    fun i hi => (Table.gradientAt_modify arrays id i hf).trans hi

theorem Sound.loosen (h : Sound R d s) : Sound R { d with loose := true } s :=
  ⟨h.numbered, h.registered, h.rooted, h.staffed, nofun, h.named, h.account⟩

theorem Sound.native {owed : List Handle} (h : Sound R d s) {n : σ}
    (hacc : R.account n (owed ++ s.arrays.handles)) :
    Sound R { d with handles := owed } { s with native := n } :=
  ⟨h.numbered, h.registered, h.rooted, h.staffed, h.held, h.named, hacc⟩

/-- An update that changes only what is remembered about an array. -/
structure Note (f : Tensor σ → Tensor σ) : Prop where
  owned : ∀ a, (f a).owned = a.owned
  engine : ∀ a, (f a).engine = a.engine
  owner : ∀ a, (f a).owner = a.owner
  gradient : ∀ a, (f a).gradient = a.gradient

theorem Sound.note (h : Sound R d s) (id : ArrayId) {f : Tensor σ → Tensor σ} (hf : Note f) :
    Sound R d { s with arrays := s.arrays.modify id f } where
  numbered := h.numbered.modifyArray id fun a _ hg => .inl (hf.gradient a ▸ hg)
  registered := h.registered.modifyArray id hf.owner hf.owned
  rooted := h.rooted
  staffed := h.staffed.modifyArray id hf.engine
  held hl j hj := (h.held hl j (Table.keys_modify s.arrays id f ▸ hj)).modifyArray id hf.gradient
  named := h.named.modifyArray id hf.gradient
  account := (Table.handles_modify s.arrays id hf.owned).symm ▸ h.account

theorem Sound.gradient (h : Sound R d s) (hl : d.loose = true) {id g : ArrayId} (hg : id < g)
    (hle : g ≤ s.lastId) :
    Sound R d { s with arrays := s.arrays.modify id fun a => a.withGradient (some g) } where
  numbered := h.numbered.modifyArray id (f := fun a => a.withGradient (some g)) fun _ _ hg' =>
    .inr (Option.some.inj hg' ▸ hg)
  registered := h.registered.modifyArray id (f := fun a => a.withGradient (some g)) (fun _ => rfl)
    fun _ => rfl
  rooted := h.rooted
  staffed := h.staffed.modifyArray id (f := fun a => a.withGradient (some g)) fun _ => rfl
  held hl' := absurd (hl.symm.trans hl') nofun
  named :=
    { held_le := h.named.held_le
      gradient_le := fun j k hk => by
        obtain ⟨b, hb, hbk⟩ := Option.bind_eq_some_iff.1 hk
        rcases Table.get?_modify_eq_some.1 hb with ⟨-, a, -, rfl⟩ | ⟨-, hb⟩
        · exact Option.some.inj hbk ▸ hle
        · exact h.named.gradient_le j k (Option.bind_eq_some_iff.2 ⟨b, hb, hbk⟩) }
  account := by
    rw [Table.handles_modify s.arrays id (f := fun a => a.withGradient (some g)) fun _ => rfl]
    exact h.account

theorem handles_perm_emptied (h : Numbered lastId scopes arrays) {id : ArrayId} {a : Tensor σ}
    (ha : arrays.get? id = some a) :
    arrays.handles.Perm
      (if a.owned.isReleased then (arrays.modify id fun a => a.withOwned ⟨⟨0⟩⟩).handles
      else a.owned.handle :: (arrays.modify id fun a => a.withOwned ⟨⟨0⟩⟩).handles) := by
  obtain ⟨before, behind, he, hm, _⟩ := Table.exists_split h.arraysDistinct ha
  have hn : (a.withOwned ⟨⟨0⟩⟩).owned.handle.isNull = true := rfl
  unfold Table.handles
  simp only [hm, he, List.map_append, List.map_cons, List.filter_append, List.filter_cons, hn]
  cases hr : a.owned.isReleased with
  | true =>
    have hn : a.owned.handle.isNull = true := hr
    simp [hn]
  | false =>
    have hn : a.owned.handle.isNull = false := hr
    simp only [hn, Bool.not_false, Bool.not_true, Bool.false_eq_true, ite_true, ite_false]
    exact List.perm_middle

theorem Sound.emptied (h : Sound R d s) (id : ArrayId) {n : σ}
    (hid : d.retiring = some id ∨ ∀ S, id ∉ s.scopes.registry S)
    (hacc : R.account n (d.handles ++ (s.arrays.modify id fun a => a.withOwned ⟨⟨0⟩⟩).handles)) :
    Sound R d { s with
      native := n
      arrays := s.arrays.modify id fun a => a.withOwned ⟨⟨0⟩⟩ } where
  numbered := h.numbered.modifyArray id (f := fun a => a.withOwned ⟨⟨0⟩⟩) fun _ _ hg => .inl hg
  registered := by
    refine h.registered.of_arrays (fun j => Table.ownerAt_modify s.arrays id j
      (f := fun a => a.withOwned ⟨⟨0⟩⟩) fun _ => rfl) fun j S hj hr => ?_
    have hne : j ≠ id := by
      rintro rfl
      exact hid.elim hr fun hid => hid S ((h.registered.owner_iff j S).1 hj)
    unfold Table.handleAt
    rw [Table.get?_modify, if_neg hne]
  rooted := h.rooted
  staffed := h.staffed.modifyArray id (f := fun a => a.withOwned ⟨⟨0⟩⟩) fun _ => rfl
  held hl j hj := (h.held hl j (Table.keys_modify s.arrays id _ ▸ hj)).modifyArray id
    (f := fun a => a.withOwned ⟨⟨0⟩⟩) fun _ => rfl
  named := h.named.modifyArray id (f := fun a => a.withOwned ⟨⟨0⟩⟩) fun _ => rfl
  account := hacc

theorem Registered.left (h : Registered retiring closing scopes arrays) {id : ArrayId} {S : ScopeId}
    (ho : arrays.ownerAt id = some S) (hr : retiring = none ∨ retiring = some id) :
    Registered none closing (scopes.modify S fun c => c.withArrays (c.arrays.erase id))
      (arrays.modify id fun a => a.withOwner none) := by
  have hS : S ∈ scopes.keys := Table.mem_keys_of_mem_registry ((h.owner_iff id S).1 ho)
  have howner := fun j => Table.ownerAt_modify_self arrays id j (f := fun a => a.withOwner none) none
    (fun _ => rfl) (Table.mem_keys_of_ownerAt ho)
  have hregistry := fun T => Table.registry_modify_self scopes S T
    (f := fun c => c.withArrays (c.arrays.erase id)) (fun ids => ids.erase id) (fun _ => rfl) hS
  constructor
  case owner_iff =>
    intro j T
    rw [howner, hregistry]
    by_cases hj : j = id
    · subst hj
      have hT : T ≠ S → j ∉ scopes.registry T := fun hne hm =>
        hne (Option.some.inj (((h.owner_iff j T).2 hm).symm.trans ho))
      by_cases hTS : T = S
      · simp [hTS, (h.once S).not_mem_erase]
      · simp [hTS, hT hTS]
    · by_cases hTS : T = S
      · simp [hTS, hj, List.mem_erase_of_ne hj, h.owner_iff]
      · simp [hTS, hj, h.owner_iff]
  case once =>
    intro T
    rw [hregistry]
    split
    · exact (h.once S).erase id
    · exact h.once T
  case unreleased =>
    intro T j hj _
    rw [hregistry] at hj
    rw [Table.handleAt_modify arrays id j (f := fun a => a.withOwner none) fun _ => rfl]
    have hne : j ≠ id ∧ j ∈ scopes.registry T := by
      split at hj
      · rename_i hT
        exact ⟨fun hje => (h.once S).not_mem_erase (hje ▸ hj), hT ▸ List.mem_of_mem_erase hj⟩
      · rename_i hT
        refine ⟨?_, hj⟩
        rintro rfl
        exact hT (Option.some.inj (((h.owner_iff j T).2 hj).symm.trans ho))
    refine h.unreleased T j hne.2 ?_
    rcases hr with hr | hr <;> simp [hr, Ne.symm hne.1]
  case shut =>
    intro T hT hcl
    rw [Table.openAt_modify scopes S T (f := fun c => c.withArrays (c.arrays.erase id))
      fun _ => rfl] at hT
    rw [hregistry]
    split
    · rename_i hTS
      rw [h.shut S (hTS ▸ hT) (hTS ▸ hcl)]
      rfl
    · exact h.shut T hT hcl

theorem Sound.left (h : Sound R d s) (hl : d.loose = true) {id : ArrayId} {S : ScopeId}
    (ho : s.arrays.ownerAt id = some S) (hr : d.retiring = none ∨ d.retiring = some id) :
    Sound R { d with retiring := none } { s with
      arrays := s.arrays.modify id fun a => a.withOwner none
      scopes := s.scopes.modify S fun c => c.withArrays (c.arrays.erase id) } where
  numbered := (h.numbered.modifyArray id (f := fun a => a.withOwner none)
    fun _ _ hg => .inl hg).modifyScope S (f := fun c => c.withArrays (c.arrays.erase id))
    (fun _ => rfl) fun _ => List.Subset.refl _
  registered := h.registered.left ho hr
  rooted := h.rooted.modifyScope S (f := fun c => c.withArrays (c.arrays.erase id)) (fun _ => rfl)
    (fun _ => rfl) fun _ => rfl
  staffed := (h.staffed.modifyArray id (f := fun a => a.withOwner none) fun _ => rfl).modifyScope S
    (f := fun c => c.withArrays (c.arrays.erase id)) fun _ => rfl
  held hl' := absurd (hl.symm.trans hl') nofun
  named := h.named.modifyArray id (f := fun a => a.withOwner none) fun _ => rfl
  account := by
    rw [Table.handles_modify s.arrays id (f := fun a => a.withOwner none) fun _ => rfl]
    exact h.account

theorem Registered.joined (h : Registered retiring closing scopes arrays) {id : ArrayId}
    {S : ScopeId} (hid : id ∈ arrays.keys) (ho : arrays.ownerAt id = none)
    (hn : (arrays.handleAt id).isNull = false) (hS : scopes.openAt S = true) :
    Registered retiring closing (scopes.modify S fun c => c.withArrays (c.arrays ++ [id]))
      (arrays.modify id fun a => a.withOwner (some S)) := by
  have howner := fun j => Table.ownerAt_modify_self arrays id j (f := fun a => a.withOwner (some S))
    (some S) (fun _ => rfl) hid
  have hregistry := fun T => Table.registry_modify_self scopes S T
    (f := fun c => c.withArrays (c.arrays ++ [id])) (fun ids => ids ++ [id]) (fun _ => rfl)
    (Table.mem_keys_of_openAt hS)
  have hnew : ∀ T, id ∉ scopes.registry T := fun T hm => by
    have := (h.owner_iff id T).2 hm
    rw [ho] at this
    exact absurd this nofun
  constructor
  case owner_iff =>
    intro j T
    rw [howner, hregistry]
    by_cases hj : j = id
    · subst hj
      by_cases hTS : T = S
      · simp [hTS]
      · simp [hTS, hnew T, Ne.symm hTS]
    · by_cases hTS : T = S
      · simp [hTS, hj, h.owner_iff]
      · simp [hTS, hj, h.owner_iff]
  case once =>
    intro T
    rw [hregistry]
    split
    · refine List.nodup_append.2 ⟨h.once S, by simp, fun a ha b hb => ?_⟩
      obtain rfl := List.mem_singleton.1 hb
      rintro rfl
      exact hnew S ha
    · exact h.once T
  case unreleased =>
    intro T j hj hr
    rw [hregistry] at hj
    rw [Table.handleAt_modify arrays id j (f := fun a => a.withOwner (some S)) fun _ => rfl]
    split at hj
    · rcases List.mem_append.1 hj with hj | hj
      · exact h.unreleased S j hj hr
      · exact List.mem_singleton.1 hj ▸ hn
    · exact h.unreleased T j hj hr
  case shut =>
    intro T hT hcl
    rw [Table.openAt_modify scopes S T (f := fun c => c.withArrays (c.arrays ++ [id]))
      fun _ => rfl] at hT
    rw [hregistry]
    split
    · rename_i hTS
      subst hTS
      exact absurd (hS.symm.trans hT) nofun
    · exact h.shut T hT hcl

theorem Sound.joined (h : Sound R d s) {id : ArrayId} {S : ScopeId} (hid : id ∈ s.arrays.keys)
    (ho : s.arrays.ownerAt id = none) (hn : (s.arrays.handleAt id).isNull = false)
    (hS : s.scopes.openAt S = true) :
    Sound R d { s with
      scopes := s.scopes.modify S fun c => c.withArrays (c.arrays ++ [id])
      arrays := s.arrays.modify id fun a => a.withOwner (some S) } where
  numbered := (h.numbered.modifyArray id (f := fun a => a.withOwner (some S))
    fun _ _ hg => .inl hg).modifyScope S (f := fun c => c.withArrays (c.arrays ++ [id]))
    (fun _ => rfl) fun _ => List.Subset.refl _
  registered := h.registered.joined hid ho hn hS
  rooted := h.rooted.modifyScope S (f := fun c => c.withArrays (c.arrays ++ [id])) (fun _ => rfl)
    (fun _ => rfl) fun _ => rfl
  staffed := (h.staffed.modifyArray id (f := fun a => a.withOwner (some S))
    fun _ => rfl).modifyScope S (f := fun c => c.withArrays (c.arrays ++ [id])) fun _ => rfl
  held hl j hj := by
    rw [Table.keys_modify] at hj
    have hgradient := fun i => Table.gradientAt_modify s.arrays id i
      (f := fun a => a.withOwner (some S)) fun _ => rfl
    refine (h.held hl j hj).mono (fun hv => hv) (fun T hT => ?_) fun i hi => (hgradient i).trans hi
    rw [Table.registry_modify_self s.scopes S T (f := fun c => c.withArrays (c.arrays ++ [id]))
      (fun ids => ids ++ [id]) (fun _ => rfl) (Table.mem_keys_of_openAt hS)]
    split
    · rename_i hTS
      exact List.mem_append_left _ (hTS ▸ hT)
    · exact hT
  named := h.named.modifyArray id (f := fun a => a.withOwner (some S)) fun _ => rfl
  account := by
    rw [Table.handles_modify s.arrays id (f := fun a => a.withOwner (some S)) fun _ => rfl]
    exact h.account

end Session
end ScopedTensor
