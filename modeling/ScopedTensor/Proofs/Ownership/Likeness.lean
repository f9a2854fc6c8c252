import ScopedTensor.Proofs.Ownership.Steps

/-! Sessions that are alike but for what is remembered about their arrays, and what makes a session
with one more array like the one before again. -/

namespace ScopedTensor

open ScopedTensor.Action

variable {σ : Type}

/-- An array without what is remembered about it. -/
def Tensor.bare (a : Tensor σ) : Tensor σ :=
  { a with
    shape := none
    type := none
    device := none
    storage := none
    name := none
    readiness := .pending }

section Bare

variable {a b : Tensor σ}

theorem Tensor.owned_of_bare (h : a.bare = b.bare) : a.owned = b.owned := by injection h

theorem Tensor.engine_of_bare (h : a.bare = b.bare) : a.engine = b.engine := by injection h

theorem Tensor.owner_of_bare (h : a.bare = b.bare) : a.owner = b.owner := by injection h

theorem Tensor.gradient_of_bare (h : a.bare = b.bare) : a.gradient = b.gradient := by injection h

end Bare

theorem Tensor.bare_around (engine : LoadedEngine σ) (h : Handle) (known known' : Option Description) :
    (around engine h known).bare = (around engine h known').bare := rfl

theorem Table.bare_withOwner (arrays : Table (Tensor σ)) (id : ArrayId) (owner : Option ScopeId) :
    (arrays.modify id fun a => a.withOwner owner).map Tensor.bare =
      (arrays.map Tensor.bare).modify id fun a => a.withOwner owner :=
  map_modify (f := Tensor.bare) (g := fun a => a.withOwner owner) (fun _ => rfl) arrays id

theorem Table.bare_withOwned (arrays : Table (Tensor σ)) (id : ArrayId) (owned : OwnedHandle) :
    (arrays.modify id fun a => a.withOwned owned).map Tensor.bare =
      (arrays.map Tensor.bare).modify id fun a => a.withOwned owned :=
  map_modify (f := Tensor.bare) (g := fun a => a.withOwned owned) (fun _ => rfl) arrays id

namespace Session

variable {R : Regime σ} {s t u : Session σ} {id : ArrayId} {a : Tensor σ} {h : Handle}
variable {engine : LoadedEngine σ}

theorem Note.bare {f : Tensor σ → Tensor σ} (hf : Note f) (a : Tensor σ) : (f a).bare = a.bare := by
  unfold Tensor.bare
  rw [hf.owned, hf.engine, hf.owner, hf.gradient]

/-- The same scopes, with the same arrays in them, held by as many variables: the sessions differ at
most in what is remembered about arrays, in their engines and in the numbers given out. -/
structure Alike (s t : Session σ) : Prop where
  scopes : t.scopes = s.scopes
  scopeHolds : t.scopeHolds = s.scopeHolds
  arrayHolds : t.arrayHolds = s.arrayHolds
  arrays : t.arrays.map Tensor.bare = s.arrays.map Tensor.bare

theorem Alike.refl (s : Session σ) : Alike s s := ⟨rfl, rfl, rfl, rfl⟩

theorem Alike.note (hs : Alike s t) (id : ArrayId) {f : Tensor σ → Tensor σ} (hf : Note f) :
    Alike s { t with arrays := t.arrays.modify id f } :=
  { hs with arrays := (Table.map_modify_of_eq hf.bare t.arrays id).trans hs.arrays }

theorem Alike.withNative (hs : Alike s t) (n : σ) : Alike s { t with native := n } :=
  ⟨hs.scopes, hs.scopeHolds, hs.arrayHolds, hs.arrays⟩

theorem Alike.get? (hs : Alike s t) (id : ArrayId) :
    (t.arrays.get? id).map Tensor.bare = (s.arrays.get? id).map Tensor.bare := by
  rw [← Table.get?_map, ← Table.get?_map, hs.arrays]

theorem Alike.array (hs : Alike s t) (ha : t.arrays.get? id = some a) :
    ∃ b, s.arrays.get? id = some b ∧ b.bare = a.bare := by
  have hget := hs.get? id
  rw [ha] at hget
  exact Option.map_eq_some_iff.1 hget.symm

theorem Alike.trans (hst : Alike s t) (htu : Alike t u) : Alike s u :=
  ⟨htu.scopes.trans hst.scopes, htu.scopeHolds.trans hst.scopeHolds,
    htu.arrayHolds.trans hst.arrayHolds, htu.arrays.trans hst.arrays⟩

theorem Alike.symm (hs : Alike s t) : Alike t s :=
  ⟨hs.scopes.symm, hs.scopeHolds.symm, hs.arrayHolds.symm, hs.arrays.symm⟩

theorem Alike.keys (hs : Alike s t) : t.arrays.keys = s.arrays.keys := by
  rw [← Table.keys_map Tensor.bare, hs.arrays, Table.keys_map]

theorem Alike.isHeld (hs : Alike s t) (id : ArrayId) : t.isHeld id = s.isHeld id := by
  have hbare : ∀ arrays : Table (Tensor σ), arrays.entries.any (fun e => e.2.gradient == some id) =
      (arrays.map Tensor.bare).entries.any fun e => e.2.gradient == some id := by
    intro arrays
    rw [Table.map, List.any_map]
    rfl
  unfold Session.isHeld
  rw [hs.scopes, hs.arrayHolds, hbare t.arrays, hbare s.arrays, hs.arrays]

theorem Alike.wrapped (hs : Alike s t) (hlast : t.lastId = s.lastId)
    (hfresh : s.arrays.get? (s.lastId + 1) = none) (engine : LoadedEngine σ) (h : Handle)
    (known known' : Option Description) :
    Alike (s.wrapped engine h known) (t.wrapped engine h known') := by
  refine ⟨hs.scopes, hs.scopeHolds, hs.arrayHolds, ?_⟩
  have hfresh' : t.arrays.get? (s.lastId + 1) = none := by
    rw [← Table.not_mem_keys_iff, hs.keys, Table.not_mem_keys_iff]
    exact hfresh
  show (t.arrays.insert (t.lastId + 1) _).map _ = (s.arrays.insert (s.lastId + 1) _).map _
  rw [hlast, Table.map_insert _ hfresh', Table.map_insert _ hfresh, hs.arrays,
    Tensor.bare_around engine h known' known]

theorem Alike.placed (hs : Alike s t) (owner : Option ScopeId) (id : ArrayId) :
    Alike (s.placed owner id) (t.placed owner id) := by
  cases owner with
  | none => exact hs
  | some S =>
    refine ⟨?_, hs.scopeHolds, hs.arrayHolds, ?_⟩
    · exact congrArg (·.modify S fun c => c.withArrays (c.arrays ++ [id])) hs.scopes
    · show (t.arrays.modify id _).map _ = (s.arrays.modify id _).map _
      rw [Table.bare_withOwner, Table.bare_withOwner, hs.arrays]

theorem Sound.isHeld (hu : Sound R {} u) (hid : id ∈ u.arrays.keys) : u.isHeld id = true :=
  (isHeld_iff hu.numbered id).2 (hu.held rfl id hid)

theorem Sound.isHeld_next (hu : Sound R {} u) : u.isHeld (u.lastId + 1) = false := by
  rw [← Bool.not_eq_true, isHeld_iff hu.numbered]
  rintro (hv | ⟨S, hS⟩ | ⟨j, hj⟩)
  · exact Nat.not_succ_le_self _ (hu.named.held_le _ hv)
  · have hkey := Table.mem_keys_of_ownerAt ((hu.registered.owner_iff _ S).2 hS)
    exact Nat.not_succ_le_self _ (hu.numbered.arrays_le _ hkey)
  · exact Nat.not_succ_le_self _ (hu.named.gradient_le j _ hj)

theorem Sound.admits_owner (hu : Sound R {} u) (ha : u.arrays.get? id = some a) :
    u.Admits a.owner := fun _ hS =>
  hu.registered.open_of_owner ((Table.ownerAt_of_get? ha).trans hS)

theorem Sound.owner_of_released (hu : Sound R {} u) (ha : u.arrays.get? id = some a)
    (hreleased : a.owned.isReleased = true) : a.owner = none := by
  cases ho : a.owner with
  | none => rfl
  | some S =>
    have howner := (Table.ownerAt_of_get? ha).trans ho
    have hnull := hu.registered.unreleased S id ((hu.registered.owner_iff id S).1 howner) nofun
    rw [Table.handleAt_of_get? ha] at hnull
    exact absurd (hreleased.symm.trans hnull) nofun

theorem isHeld_wrapped (hfresh : u.arrays.get? (u.lastId + 1) = none) (engine : LoadedEngine σ)
    (h : Handle) (known : Option Description) (id : ArrayId) :
    (u.wrapped engine h known).isHeld id = u.isHeld id := by
  unfold Session.isHeld wrapped
  rw [Table.insert_of_none _ hfresh, List.any_append]
  simp [Tensor.around]

/-- A session with a new array around a handle, in the scope of an array that is there. -/
def joined (u : Session σ) (a : Tensor σ) (h : Handle) : Session σ :=
  (u.wrapped a.engine h none).placed a.owner (u.lastId + 1)

theorem arrays_joined (hfresh : u.arrays.get? (u.lastId + 1) = none) (a : Tensor σ) (h : Handle) :
    (u.joined a h).arrays =
      u.arrays.insert (u.lastId + 1) ((Tensor.around a.engine h none).withOwner a.owner) := by
  unfold joined placed
  split
  · rename_i ho
    rw [ho]
    rfl
  · rename_i S ho
    rw [ho]
    exact Table.modify_insert_self (fun b => b.withOwner (some S)) (.around a.engine h none) hfresh

theorem lastId_placed (s : Session σ) (owner : Option ScopeId) (id : ArrayId) :
    (s.placed owner id).lastId = s.lastId := by
  cases owner <;> rfl

theorem native_placed (s : Session σ) (owner : Option ScopeId) (id : ArrayId) :
    (s.placed owner id).native = s.native := by
  cases owner <;> rfl

theorem keys_joined (hfresh : u.arrays.get? (u.lastId + 1) = none) (a : Tensor σ) (h : Handle) :
    (u.joined a h).arrays.keys = u.arrays.keys ++ [u.lastId + 1] := by
  rw [arrays_joined hfresh, Table.keys_insert_of_none _ hfresh]

theorem scopeHolds_joined (u : Session σ) (a : Tensor σ) (h : Handle) :
    (u.joined a h).scopeHolds = u.scopeHolds := by
  unfold joined
  cases a.owner <;> rfl

theorem arrayHolds_joined (u : Session σ) (a : Tensor σ) (h : Handle) :
    (u.joined a h).arrayHolds = u.arrayHolds := by
  unfold joined
  cases a.owner <;> rfl

theorem Alike.newest (hs : Alike (u.joined a h) s) (hfresh : u.arrays.get? (u.lastId + 1) = none) :
    ∃ b, s.arrays.get? (u.lastId + 1) = some b ∧ b.owned = ⟨h⟩ ∧ b.engine = a.engine ∧
      b.owner = a.owner ∧ b.gradient = none := by
  have hget : (s.arrays.get? (u.lastId + 1)).map Tensor.bare =
      some ((Tensor.around a.engine h none).withOwner a.owner).bare := by
    rw [hs.get?, arrays_joined hfresh, Table.get?_insert, if_pos rfl]
    rfl
  obtain ⟨b, hb, hbare⟩ := Option.map_eq_some_iff.1 hget
  exact ⟨b, hb, Tensor.owned_of_bare hbare, (Tensor.engine_of_bare hbare :),
    (Tensor.owner_of_bare hbare :), Tensor.gradient_of_bare hbare⟩

theorem isHeld_joined (hu : Sound R {} u) {S : ScopeId} (ho : a.owner = some S)
    (hS : u.scopes.openAt S = true) (hid : id ∈ (u.joined a h).arrays.keys) :
    (u.joined a h).isHeld id = true := by
  have hfresh := hu.numbered.fresh_array
  have hjoined : u.joined a h = (u.wrapped a.engine h none).entered S (u.lastId + 1) := by
    unfold joined placed
    rw [ho]
  have hregistry := fun T => Table.registry_modify_self u.scopes S T
    (f := fun c => c.withArrays (c.arrays ++ [u.lastId + 1])) (fun ids => ids ++ [u.lastId + 1])
    (fun _ => rfl) (Table.mem_keys_of_openAt hS)
  rw [keys_joined hfresh] at hid
  rw [hjoined]
  have hnumbered := ((hu.numbered.wrapped (a := .around a.engine h none) rfl).modifyArray
    (u.lastId + 1) (f := fun a => a.withOwner (some S)) fun _ _ hg => .inl hg).modifyScope S
    (f := fun c => c.withArrays (c.arrays ++ [u.lastId + 1])) (fun _ => rfl)
    fun _ => List.Subset.refl _
  refine (isHeld_iff (s := (u.wrapped a.engine h none).entered S (u.lastId + 1)) hnumbered id).2 ?_
  rcases List.mem_append.1 hid with hid | hid
  · refine (hu.held rfl id hid).mono (fun hv => hv) (fun T hT => ?_) fun j hj => ?_
    · show id ∈ (u.scopes.modify S _).registry T
      rw [hregistry]
      split
      · rename_i hTS
        exact List.mem_append_left _ (hTS ▸ hT)
      · exact hT
    · refine (Table.gradientAt_modify _ (u.lastId + 1) j (f := fun a => a.withOwner (some S))
        fun _ => rfl).trans ?_
      exact (Table.bind_get?_insert j hfresh rfl).trans hj
  · refine .inr (.inl ⟨S, ?_⟩)
    show id ∈ (u.scopes.modify S _).registry S
    rw [hregistry, if_pos rfl]
    exact List.mem_append_right _ hid

theorem arrays_givenBack (s : Session σ) (id : ArrayId) :
    (s.givenBack id).arrays = s.arrays.modify id fun a => a.withOwned ⟨⟨0⟩⟩ := by
  cases ha : s.arrays.get? id with
  | none => rw [givenBack_of_none ha, Table.modify_of_not_mem _ ((Table.not_mem_keys_iff _ _).2 ha)]
  | some a => rw [givenBack_of_some ha]

theorem native_givenBack (ha : s.arrays.get? id = some a) :
    (s.givenBack id).native = if a.owned.isReleased then s.native
      else (a.engine.library.free a.owned.handle).after s.native := by
  rw [givenBack_of_some ha]

theorem native_departed (s : Session σ) (id : ArrayId) : (s.departed id).native = s.native := by
  unfold departed
  split <;> rfl

theorem scopeHolds_givenBack (s : Session σ) (id : ArrayId) :
    (s.givenBack id).scopeHolds = s.scopeHolds := by
  unfold givenBack
  split <;> rfl

theorem Alike.givenBack (hs : Alike s t) (id : ArrayId) :
    Alike (s.givenBack id) (t.givenBack id) := by
  refine ⟨?_, ?_, ?_, ?_⟩
  · rw [scopes_givenBack, scopes_givenBack, hs.scopes]
  · rw [scopeHolds_givenBack, scopeHolds_givenBack, hs.scopeHolds]
  · rw [arrayHolds_givenBack, arrayHolds_givenBack, hs.arrayHolds]
  · rw [arrays_givenBack, arrays_givenBack, Table.bare_withOwned, Table.bare_withOwned, hs.arrays]

theorem Alike.ownerAt (hs : Alike s t) (id : ArrayId) :
    t.arrays.ownerAt id = s.arrays.ownerAt id := by
  have howner : ∀ arrays : Table (Tensor σ), arrays.ownerAt id =
      ((arrays.get? id).map Tensor.bare).bind Tensor.owner := by
    intro arrays
    unfold Table.ownerAt
    cases arrays.get? id <;> rfl
  rw [howner, howner, hs.get?]

theorem Alike.departed (hs : Alike s t) (id : ArrayId) :
    Alike (s.departed id) (t.departed id) := by
  unfold Session.departed
  rw [hs.ownerAt id]
  split
  · exact hs
  · rename_i S _
    refine ⟨?_, hs.scopeHolds, hs.arrayHolds, ?_⟩
    · exact congrArg
        (fun scopes => scopes.modify S fun c => c.withArrays (c.arrays.erase id)) hs.scopes
    · show (t.arrays.modify id _).map _ = (s.arrays.modify id _).map _
      rw [Table.bare_withOwner, Table.bare_withOwner, hs.arrays]

theorem alike_buried {known : Option Description} (hu : Sound R {} u)
    (hs : Alike (u.wrapped engine h known) s) (ha : s.arrays.get? (u.lastId + 1) = some a) :
    Alike u (s.buried (u.lastId + 1)) := by
  have hfresh := hu.numbered.fresh_array
  unfold buried
  rw [givenBack_of_some ha]
  refine ⟨hs.scopes, hs.scopeHolds, hs.arrayHolds, ?_⟩
  have harrays : s.arrays.map Tensor.bare =
      (u.arrays.map Tensor.bare).insert (u.lastId + 1) (Tensor.around engine h known).bare :=
    hs.arrays.trans (Table.map_insert _ hfresh)
  rw [Table.map_erase, Table.bare_withOwned, Table.erase_modify, harrays, Table.erase_insert]
  rw [Table.get?_map, hfresh]
  rfl

theorem sweep_wrapped {known : Option Description} (hu : Sound R {} u)
    (hs : Alike (u.wrapped engine h known) s) :
    ∃ t, sweep s = .ok ⟨⟩ t ∧ Alike u t ∧ t.native = if h.isNull then s.native
      else (engine.library.free h).after s.native := by
  have hfresh := hu.numbered.fresh_array
  have hget : (s.arrays.get? (u.lastId + 1)).map Tensor.bare =
      some (Tensor.around engine h known).bare := by
    rw [hs.get?]
    show ((u.arrays.insert (u.lastId + 1) _).get? (u.lastId + 1)).map _ = _
    rw [Table.get?_insert, if_pos rfl]
    rfl
  obtain ⟨a, ha, hbare⟩ := Option.map_eq_some_iff.1 hget
  have howned : a.owned = ⟨h⟩ := Tensor.owned_of_bare hbare
  have hengine : a.engine = engine := Tensor.engine_of_bare hbare
  have hafter := alike_buried hu hs ha
  have hheld := fun j => (hs.isHeld j).trans (isHeld_wrapped hfresh engine h known j)
  refine ⟨s.buried (u.lastId + 1), ?_, hafter, ?_⟩
  · refine sweep_one ((Table.mem_keys_iff _ _).2 ⟨a, ha⟩) ((hheld _).trans hu.isHeld_next)
      (fun j hj hne => (hheld j).trans (hu.isHeld ?_)) fun j hj => ?_
    · rw [hs.keys] at hj
      have hj : j ∈ (u.arrays.insert (u.lastId + 1) (.around engine h known)).keys := hj
      exact (Table.mem_keys_insert.1 hj).resolve_right hne
    · exact (hafter.isHeld j).trans (hu.isHeld (hafter.keys ▸ hj))
  · refine (native_givenBack ha).trans ?_
    rw [howned, hengine]
    rfl

theorem alike_departed_joined (hu : Sound R {} u) (hadmits : u.Admits a.owner) (h : Handle) :
    Alike (u.wrapped a.engine ⟨0⟩ none)
      (((u.joined a h).givenBack (u.lastId + 1)).departed (u.lastId + 1)) := by
  have hfresh := hu.numbered.fresh_array
  have harrays : ((u.joined a h).givenBack (u.lastId + 1)).arrays =
      u.arrays.insert (u.lastId + 1) ((Tensor.around a.engine ⟨0⟩ none).withOwner a.owner) := by
    rw [arrays_givenBack, arrays_joined hfresh, Table.modify_insert_self _ _ hfresh]
    rfl
  have hscopeHolds := (scopeHolds_givenBack (u.joined a h) (u.lastId + 1)).trans
    (scopeHolds_joined u a h)
  have harrayHolds := (arrayHolds_givenBack (u.joined a h) (u.lastId + 1)).trans
    (arrayHolds_joined u a h)
  have hscopes : ((u.joined a h).givenBack (u.lastId + 1)).scopes =
      ((u.wrapped a.engine h none).placed a.owner (u.lastId + 1)).scopes := scopes_givenBack _ _
  have howner : ((u.joined a h).givenBack (u.lastId + 1)).arrays.ownerAt (u.lastId + 1) =
      a.owner := by
    unfold Table.ownerAt
    rw [harrays, Table.get?_insert, if_pos rfl]
    rfl
  unfold departed
  rw [howner]
  cases ho : a.owner with
  | none =>
    rw [ho] at hscopes harrays
    exact ⟨hscopes, hscopeHolds, harrayHolds, congrArg (·.map Tensor.bare) harrays⟩
  | some S =>
    rw [ho] at hscopes
    refine ⟨?_, hscopeHolds, harrayHolds, ?_⟩
    · -- what was entered is taken out again
      obtain ⟨c, hc, -⟩ := Table.openAt_iff.1 (hadmits S ho)
      have hnew : u.lastId + 1 ∉ c.arrays := fun hmem =>
        Nat.not_succ_le_self _ (hu.numbered.arrays_le _ (Table.mem_keys_of_ownerAt
          ((hu.registered.owner_iff _ S).2 (Table.mem_registry.2 ⟨c, hc, hmem⟩))))
      have hleft := congrArg
        (fun scopes => scopes.modify S fun c => c.withArrays (c.arrays.erase (u.lastId + 1))) hscopes
      have htwice := Table.modify_modify u.scopes S
        (fun c => c.withArrays (c.arrays ++ [u.lastId + 1]))
        fun c => c.withArrays (c.arrays.erase (u.lastId + 1))
      refine (hleft.trans htwice).trans (Table.modify_of_fixed hu.numbered.scopesDistinct hc ?_)
      unfold Scope.withArrays
      rw [List.erase_append_right _ hnew]
      simp
    · have hleft := congrArg
        (fun arrays => (arrays.modify (u.lastId + 1) fun b => b.withOwner none).map Tensor.bare)
        harrays
      refine hleft.trans ?_
      rw [Table.modify_insert_self _ _ hfresh]
      rfl

theorem retire_joined (hu : Sound R {} u) (hadmits : u.Admits a.owner)
    (hs : Alike (u.joined a h) s) :
    ∃ t, retire (u.lastId + 1) s = .ok ⟨⟩ t ∧ Alike (u.wrapped a.engine ⟨0⟩ none) t ∧
      t.native = if h.isNull then s.native else (a.engine.library.free h).after s.native := by
  obtain ⟨b, hb, howned, hengine, -⟩ := hs.newest hu.numbered.fresh_array
  refine ⟨_, retire_eq s (u.lastId + 1), ?_, ?_⟩
  · exact (alike_departed_joined hu hadmits h).trans
      ((hs.givenBack (u.lastId + 1)).departed (u.lastId + 1))
  · rw [native_departed, native_givenBack hb, howned, hengine]
    rfl

end Session
end ScopedTensor
