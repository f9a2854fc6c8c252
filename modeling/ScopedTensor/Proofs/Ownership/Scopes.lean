import ScopedTensor.Proofs.Ownership.Steps
import ScopedTensor.Proofs.Ownership.Tree

/-! Scopes under operations: they are made, they close together with everything below them, and
they take arrays over from each other. -/

namespace ScopedTensor.Session

open ScopedTensor.Action

variable {σ : Type} {R : Regime σ} {d : Debts} {E : Session σ → Prop}
variable {leaving : Option ScopeId} {orphans : List ScopeId} {K : List ScopeId} {S : ScopeId}

theorem meets_newScope (engine : LoadedEngine σ) (device : Device) (parent : Option ScopeId)
    (closed : Bool) {t : Session σ} :
    Meets (· = t) (newScope engine device parent closed)
      (fun id s => id = t.lastId + 1 ∧ s = { t with
        lastId := t.lastId + 1
        scopes := t.scopes.insert (t.lastId + 1) ⟨device, engine, parent, closed, [], []⟩
        scopeHolds := (t.lastId + 1) :: t.scopeHolds }) E := by
  intro s hs
  subst hs
  exact ⟨rfl, rfl⟩

theorem meets_rootScope {engine : LoadedEngine σ} (he : R.admits engine) (device : Device)
    {t : Session σ} (ht : Sound R d t) (hroot : R.root (t.lastId + 1)) :
    Meets (· = t) (rootScope engine device)
      (fun id s => id = t.lastId + 1 ∧ s.lastId = t.lastId + 1 ∧ Sound R d s) E := by
  refine (meets_newScope engine device none false).to_imp fun id s hs => ?_
  obtain ⟨rfl, rfl⟩ := hs
  refine ⟨rfl, rfl, ht.counted.sprouted (ht.unsown rfl rfl) ?_ he fun _ => hroot⟩
  exact ⟨rfl, rfl, fun S hS => absurd hS (ht.numbered.not_listed S), nofun⟩

theorem keeps_subScope (parent : ScopeId) (device : Option Device) :
    Keeps (Sound R {}) (subScope parent device) := by
  unfold subScope
  refine (meets_scope parent fun _ hs => hs).bind fun p => .of_state fun t ⟨hp, ht⟩ => ?_
  have hkey : parent ∈ t.scopes.keys := (Table.mem_keys_iff _ _).2 ⟨p, hp⟩
  have hengine : R.admits p.engine := ht.staffed.scopes _ _ hp
  have hlt : parent < t.lastId + 1 := Nat.lt_succ_of_le (ht.numbered.scopes_le _ hkey)
  have hopen := Table.openAt_of_get? hp
  refine (meets_newScope _ _ _ _).bind fun child => ?_
  cases hclosed : p.closed with
  | true =>
    refine .pure fun s hs => ?_
    obtain ⟨rfl, rfl⟩ := hs
    refine ht.counted.sprouted (ht.unsown rfl rfl)
      ⟨rfl, rfl, fun S hS => absurd hS (ht.numbered.not_listed S), fun q hq => ?_⟩ hengine nofun
    obtain rfl := Option.some.inj hq
    exact ⟨hkey, by simp [hopen, hclosed], by simp [hopen, hclosed]⟩
  | false =>
    refine .get_bind fun u hu => .bind (Q := fun _ => Sound R {}) (.modify fun s hs => ?_)
      fun _ => .pure fun _ hs => hs
    obtain ⟨rfl, rfl⟩ := hu
    subst hs
    have hlisted := ht.listed hkey (fun T => ((t.lastId + 1) :: t.scopeHolds).contains T)
      fun T hT => by simp [hT]
    have hsprout : Sprout (t.scopes.modify parent fun b => b.listing
        (fun T => ((t.lastId + 1) :: t.scopeHolds).contains T) (t.lastId + 1)) (t.lastId + 1)
        ⟨device.getD p.device, p.engine, some parent, false, [], []⟩ := by
      refine ⟨rfl, rfl, fun S hS => ?_, fun q hq => ?_⟩
      · rcases (Table.mem_childrenAt_listing hkey _ _ _).1 hS with ⟨hS, -⟩ | ⟨rfl, -⟩
        · exact absurd hS (ht.numbered.not_listed S)
        · rfl
      · obtain rfl := Option.some.inj hq
        refine ⟨by rw [Table.keys_modify]; exact hkey, ?_, fun _ => ?_⟩
        · rw [Table.openAt_listing, hopen, hclosed]
          rfl
        · exact (Table.mem_childrenAt_listing hkey _ _ _).2 (.inr ⟨rfl, rfl⟩)
    have hsprouted := hlisted.sprouted (ht.unsown rfl (Table.keys_modify _ _ _)) hsprout hengine
      nofun
    rw [← Table.modify_insert _ _ ht.numbered.fresh_scope (Nat.ne_of_lt hlt)] at hsprouted
    exact hsprouted

/-- While a scope closes: it stays closed, and it still registers the arrays that are to come. -/
structure Closing (R : Regime σ) (id : ScopeId) (orphans : List ScopeId)
    (leaving : Option ScopeId) (K : List ScopeId) (left : List ArrayId) (s : Session σ) : Prop where
  sound : Sound (R.barring id) ⟨[], false, none, some id, orphans, leaving⟩ s
  registry : s.scopes.registry id = left
  keys : s.scopes.keys = K

theorem surrender_eq {t : Session σ} {S : ScopeId} {id : ArrayId}
    (howner : t.arrays.ownerAt id = some S) :
    surrender S id t = (release id >>= fun _ => sweep) (t.dismissed S id) := by
  have hgiven : surrender S id t =
      (if t.arrays.ownerAt id = some S then
        modifyArray id (fun a => a.withOwner none) >>= fun _ => release id >>= fun _ => sweep
      else sweep) { t with scopes := t.scopes.modify S fun c => c.withArrays (c.arrays.erase id) } := by
    rfl
  rw [hgiven, if_pos howner]
  rfl

theorem Sound.dismissed {s : Session σ}
    (h : Sound R ⟨[], true, none, some S, orphans, leaving⟩ s) {id : ArrayId}
    (howner : s.arrays.ownerAt id = some S) :
    Sound R ⟨[], true, none, some S, orphans, leaving⟩ (s.dismissed S id) ∧
      (s.dismissed S id).arrays.ownerAt id = none := by
  refine ⟨Sound.left h rfl howner (.inl rfl), ?_⟩
  exact (Table.ownerAt_modify_self s.arrays id id none (fun _ => rfl)
    (Table.mem_keys_of_ownerAt howner)).trans (if_pos rfl)

theorem Closing.ownerAt {id : ScopeId} {x : ArrayId} {xs : List ArrayId} {s : Session σ}
    (h : Closing R id orphans leaving K (x :: xs) s) : s.arrays.ownerAt x = some id :=
  (h.sound.registered.owner_iff x id).2 (h.registry ▸ List.mem_cons_self)

theorem meets_surrender {id : ScopeId} (x : ArrayId) (xs : List ArrayId) :
    Meets (Closing R id orphans leaving K (x :: xs)) (surrender id x)
      (fun _ => Closing R id orphans leaving K xs) E := by
  refine .of_state fun t ht => .of_step (surrender_eq ht.ownerAt) ?_
  obtain ⟨hleft, hnone⟩ := ht.sound.loosen.dismissed ht.ownerAt
  have hkey := Table.mem_keys_of_mem_registry
    ((ht.sound.registered.owner_iff x id).1 ht.ownerAt)
  refine (meets_release hleft x (.inr hnone)).bind fun _ => ?_
  refine .of_state fun s hs => ?_
  obtain ⟨hs, hscopes, -⟩ := hs
  refine ((meets_sweep false).start ⟨hs, rfl⟩).to_imp fun _ s' hs' => ?_
  have hT : s'.scopes = t.scopes.modify id fun c => c.withArrays (c.arrays.erase x) :=
    hs'.2.trans hscopes
  refine ⟨hs'.1, ?_, ?_⟩
  · rw [hT, Table.registry_modify_self t.scopes id id (fun ids => ids.erase x) (fun _ => rfl) hkey,
      if_pos rfl, ht.registry, List.erase_cons_head]
  · rw [hT, Table.keys_modify]
    exact ht.keys

theorem filter_ge_length_lt {id child : Nat} (hlt : id < child)
    (hid : id ∈ K.filter fun T : Nat => id ≤ T) :
    (K.filter fun T : Nat => child ≤ T).length < (K.filter fun T : Nat => id ≤ T).length := by
  have heq : (K.filter fun T : Nat => child ≤ T) =
      (K.filter fun T : Nat => id ≤ T).filter fun T : Nat => child ≤ T := by
    rw [List.filter_filter]
    refine List.filter_congr fun T _ => ?_
    have himp : child ≤ T → id ≤ T := fun h => Nat.le_trans (Nat.le_of_lt hlt) h
    by_cases h : child ≤ T
    · simp [h, himp h]
    · simp [h]
  rw [heq]
  exact List.length_filter_lt_length_iff_exists.2 ⟨id, hid, by simpa using hlt⟩

/-- What a walk over the scopes in `D` keeps on its way: they are marked as closed, and they
surrender their arrays. -/
structure Cascading (leaving : Option ScopeId) (K : List ScopeId) (D : ScopeId → Prop)
    (I : Session σ → Prop) : Prop where
  below : ∀ s S T, I s → D S → s.scopes.parentAt T = some S → D T
  shut : ∀ s S, I s → D S → s.scopes.openAt S = true →
    I { s with scopes := s.scopes.modify S Scope.shut }
  surrender : ∀ {R : Regime σ} {orphans : List ScopeId} {S : ScopeId} {x : ArrayId}
    {xs : List ArrayId} {E : Session σ → Prop}, D S →
    Meets (fun s => Closing R S orphans leaving K (x :: xs) s ∧ I s) (surrender S x) (fun _ => I) E

theorem Cascading.trivial : Cascading leaving K (fun _ => True) fun _ : Session σ => True where
  below _ _ _ _ _ _ := ⟨⟩
  shut _ _ _ _ _ := ⟨⟩
  surrender _ := (meets_surrender _ _).imp (fun _ hs => hs.1) (fun _ _ _ => ⟨⟩) fun _ hs => hs

/-- A session between two steps of a walk: what is sound about it, and what the walk keeps. -/
structure Walking (R : Regime σ) (orphans : List ScopeId) (leaving : Option ScopeId)
    (K : List ScopeId) (I : Session σ → Prop) (s : Session σ) : Prop where
  sound : Sound R ⟨[], false, none, none, orphans, leaving⟩ s
  keys : s.scopes.keys = K
  carried : I s

theorem Walking.settle_orphan {I : Session σ → Prop} {id : ScopeId} {s : Session σ}
    (h : Walking R (id :: orphans) leaving K I s) (hshut : s.scopes.openAt id = false) :
    Walking R orphans leaving K I s ∧ s.scopes.openAt id = false :=
  ⟨⟨h.sound.settle_orphan hshut, h.keys, h.carried⟩, hshut⟩

/-- The scope a walk is at, those still to be closed on the way back, and how far down it may go. -/
theorem meets_closeWithin {D : ScopeId → Prop} {I : Session σ → Prop}
    (hcascade : Cascading leaving K D I) (depth : Nat) (id : ScopeId) (hid : id ∈ K → D id)
    (hleaving : ∀ x : Nat, leaving = some x → x ≤ id)
    (hdepth : (K.filter fun T : Nat => id ≤ T).length ≤ depth) :
    Meets (Walking R (id :: orphans) leaving K I) (closeWithin depth id)
      (fun _ s => Walking R orphans leaving K I s ∧ s.scopes.openAt id = false) E := by
  induction depth generalizing R id orphans with
  | zero =>
    refine .pure fun s hs => hs.settle_orphan (Table.openAt_of_not_mem fun hkey => ?_)
    have hmem : id ∈ K.filter fun T : Nat => id ≤ T :=
      List.mem_filter.2 ⟨hs.keys ▸ hkey, by simp⟩
    rw [List.length_eq_zero_iff.1 (Nat.le_zero.1 hdepth)] at hmem
    exact absurd hmem (by simp)
  | succ depth ih =>
    unfold closeWithin
    refine .get_bind fun t ht => ?_
    cases hc : t.scopes.get? id with
    | none =>
      exact .done (ht.settle_orphan (Table.openAt_of_not_mem ((Table.not_mem_keys_iff _ _).2 hc)))
    | some c =>
      have hopen := Table.openAt_of_get? hc
      refine .ite (fun hclosed => ?_) fun hclosed => ?_
      case refine_2 => exact .done (ht.settle_orphan (by simpa [hopen] using hclosed))
      have hopen : t.scopes.openAt id = true := hopen.trans hclosed
      have hchildren := Table.childrenAt_of_get? hc
      have hregistry := Table.registry_of_get? hc
      have hkey : id ∈ K := ht.keys ▸ Table.mem_keys_of_openAt hopen
      have hmarked := ht.sound.shut hopen
      rw [hchildren] at hmarked
      unfold modifyScope
      refine .modify_bind
        (I := fun s => Closing R id (c.children ++ orphans) leaving K c.arrays s ∧ I s)
        (fun s hs => ?_) ?_
      · rw [hs]
        refine ⟨⟨hmarked, ?_, ?_⟩, hcascade.shut t id ht.carried (hid hkey) hopen⟩
        · rw [← hregistry]
          exact Table.registry_modify t.scopes id id (f := Scope.shut) fun _ => rfl
        · rw [← ht.keys]
          exact Table.keys_modify _ _ _
      have hsurrender := Meets.forM (f := surrender id) (E := E)
        (I := fun xs s => Closing R id (c.children ++ orphans) leaving K xs s ∧ I s)
        (fun x xs => ((meets_surrender x xs).and (hcascade.surrender (hid hkey))).of_imp
          fun s hs => ⟨hs.1, hs⟩) c.arrays
      refine hsurrender.bind fun _ => ?_
      have hbelow : ∀ child ∈ c.children, id < child ∧ (child ∈ K → D child) := by
        intro child hchild
        have hlisted : child ∈ t.scopes.childrenAt id := hchildren ▸ hchild
        refine ⟨ht.sound.numbered.child_gt id child hlisted, fun hmem => ?_⟩
        have hparent := ht.sound.numbered.child_parent id child hlisted (ht.keys ▸ hmem)
        exact hcascade.below t id child ht.carried (hid hkey) hparent
      refine ((Meets.forM (I := fun left s => (∀ child ∈ left, id < child ∧ (child ∈ K → D child)) ∧
        Walking (R.barring id) (left ++ orphans) leaving K I s)
        (fun child left => ?_) c.children).of_imp fun s hs => ⟨hbelow,
          hs.1.sound.settle_closing hs.1.registry, hs.1.keys, hs.2⟩).to_imp fun _ s hs => ?_
      · refine .get_bind fun u ⟨hleft, hu⟩ => ?_
        obtain ⟨hchild, hdown⟩ := hleft child List.mem_cons_self
        have hleft := fun x hx => hleft x (List.mem_cons_of_mem _ hx)
        refine .ite (fun _ => ?_) fun hheld => ?_
        · have hshorter : (K.filter fun T : Nat => child ≤ T).length ≤ depth := by
            have hmem : id ∈ K.filter fun T : Nat => id ≤ T := List.mem_filter.2 ⟨hkey, by simp⟩
            have hlt := filter_ge_length_lt hchild hmem
            omega
          refine ((ih child hdown
            (fun x hx => Nat.le_of_lt (Nat.lt_of_le_of_lt (hleaving x hx) hchild))
            hshorter).start hu).to_imp fun _ s hs => ?_
          exact ⟨hleft, hs.1⟩
        · -- a child that no variable holds is not there
          have hgone : child ∉ u.scopes.keys := by
            intro hmem
            refine hheld (List.contains_iff_mem.2 (hu.sound.rooted.held child hmem fun hl => ?_))
            exact absurd (hleaving child hl) (Nat.not_le.2 hchild)
          exact .done ⟨hleft, (hu.settle_orphan (Table.openAt_of_not_mem hgone)).1⟩
      · exact ⟨⟨hs.2.sound.unbarred, hs.2.keys, hs.2.carried⟩, hs.2.sound.openAt_barred⟩

theorem meets_closeScope {D : ScopeId → Prop} {I : Session σ → Prop}
    (hcascade : Cascading leaving K D I) (id : ScopeId) (hid : id ∈ K → D id)
    (hleaving : ∀ x : Nat, leaving = some x → x ≤ id) :
    Meets (Walking R [] leaving K I) (closeScope id)
      (fun _ s => Walking R [] leaving K I s ∧ s.scopes.openAt id = false) E := by
  unfold closeScope
  refine .get_bind fun t ht => ?_
  have hdepth : (K.filter fun T : Nat => id ≤ T).length ≤ t.scopes.size := by
    rw [← Table.length_keys, ht.keys]
    exact List.length_filter_le _ _
  have hmore : Walking R [id] leaving K I t :=
    ⟨ht.sound.more_orphans (List.nil_subset _), ht.keys, ht.carried⟩
  exact (meets_closeWithin hcascade t.scopes.size id hid hleaving hdepth).start hmore

theorem meets_closeScope_whole (id : ScopeId) :
    Meets (Sound R {}) (closeScope id) (fun _ => Sound R {}) E := by
  refine .of_state fun t ht => ?_
  refine ((meets_closeScope .trivial id (fun _ => ⟨⟩) fun x hx => ?_).start
    ⟨ht, rfl, ⟨⟩⟩).to_imp fun _ _ hs => hs.1.sound
  exact absurd hx nofun

theorem meets_dropScope (id : ScopeId) {t : Session σ} (ht : Sound R {} t) :
    Meets (· = t) (dropScope id)
      (fun _ s => Sound R {} s ∧ (t.scopes.openAt id = false → s.scopes.openAt id = false)) E := by
  unfold dropScope
  refine .modify_bind (I := (· = { t with scopeHolds := t.scopeHolds.erase id }))
    (fun s hs => by rw [hs]) ?_
  have hleaving := ht.unholdScope id
  refine .get_bind fun u hu => .ite (fun _ => ?_) fun hheld => ?_
  · subst hu
    refine ((meets_closeScope .trivial id (fun _ => ⟨⟩) fun x hx => ?_).start
      ⟨hleaving, rfl, ⟨⟩⟩).bind fun _ => .modify fun s hs => ?_
    · exact Nat.le_of_eq (Option.some.inj hx).symm
    · refine ⟨hs.1.sound.felled hs.2, fun _ => ?_⟩
      rw [Table.openAt_erase, if_pos rfl]
  · subst hu
    exact .done ⟨hleaving.settle_leaving (by simpa using hheld), fun hshut => hshut⟩

theorem dropScope_last {s t : Session σ} {S : ScopeId} (hlast : S ∉ s.scopeHolds.erase S)
    (hclose : closeScope S { s with scopeHolds := s.scopeHolds.erase S } = .ok () t) :
    dropScope S s = .ok () { t with scopes := t.scopes.erase S } := by
  have hcontains : (s.scopeHolds.erase S).contains S = false := by simpa using hlast
  show (if !(s.scopeHolds.erase S).contains S then _ else _ : Action (Session σ) Unit) _ = _
  rw [hcontains]
  exact bind_ok.2 ⟨⟨⟩, t, hclose, rfl⟩

theorem keeps_dropScope (id : ScopeId) : Keeps (Sound R {}) (dropScope id) :=
  .of_state fun _ ht => (meets_dropScope id ht).to_imp fun _ _ hs => hs.1

theorem Sound.unreleased {s : Session σ} (h : Sound R {} s) {id : ArrayId} {S : ScopeId}
    (ho : s.arrays.ownerAt id = some S) : (s.arrays.handleAt id).isNull = false :=
  h.registered.unreleased S id ((h.registered.owner_iff id S).1 ho) nofun

theorem Sound.moved {s : Session σ} (h : Sound R {} s) {id : ArrayId} {source target : ScopeId}
    (howner : s.arrays.ownerAt id = some source) (hopen : s.scopes.openAt target = true) :
    Sound R {} { s with
      scopes := (s.scopes.modify source fun c => c.withArrays (c.arrays.erase id)).modify target
        fun c => c.withArrays (c.arrays ++ [id])
      arrays := s.arrays.modify id fun a => a.withOwner (some target) } := by
  have hkey := Table.mem_keys_of_ownerAt howner
  have hsource : source ∈ s.scopes.keys :=
    Table.mem_keys_of_mem_registry ((h.registered.owner_iff id source).1 howner)
  have hjoined := (Sound.left h.loosen rfl howner (.inl rfl)).joined (S := target)
    (show id ∈ (s.arrays.modify id fun a => a.withOwner none).keys by
      rw [Table.keys_modify]
      exact hkey)
    (by rw [Table.ownerAt_modify_self s.arrays id id none (fun _ => rfl) hkey, if_pos rfl])
    (by
      rw [Table.handleAt_modify s.arrays id id (f := fun a => a.withOwner none) fun _ => rfl]
      exact h.unreleased howner)
    (by
      rw [Table.openAt_modify s.scopes source target
        (f := fun c => c.withArrays (c.arrays.erase id)) fun _ => rfl]
      exact hopen)
  dsimp only at hjoined
  rw [Table.modify_modify] at hjoined
  refine Sound.tighten hjoined (fun j hj => ?_) false
  rw [Table.keys_modify] at hj
  rcases h.held rfl j hj with hv | ⟨T, hT⟩ | ⟨i, hi⟩
  · exact .inl hv
  · refine .inr (.inl ?_)
    have hregistry := fun U => Table.registry_modify_self
      (s.scopes.modify source fun c => c.withArrays (c.arrays.erase id)) target U
      (f := fun c => c.withArrays (c.arrays ++ [id])) (fun ids => ids ++ [id]) (fun _ => rfl)
      (by rw [Table.keys_modify]; exact Table.mem_keys_of_openAt hopen)
    have hsourced := fun U => Table.registry_modify_self s.scopes source U
      (f := fun c => c.withArrays (c.arrays.erase id)) (fun ids => ids.erase id) (fun _ => rfl) hsource
    by_cases hjid : j = id
    · exact ⟨target, by rw [hregistry, if_pos rfl, hjid]; simp⟩
    · -- every other array stays where it was
      have hstays : j ∈ (s.scopes.modify source fun c =>
          c.withArrays (c.arrays.erase id)).registry T := by
        rw [hsourced]
        split
        · rename_i hTs
          exact (List.mem_erase_of_ne hjid).2 (hTs ▸ hT)
        · exact hT
      refine ⟨T, ?_⟩
      rw [hregistry]
      split
      · rename_i hTt
        exact List.mem_append_left _ (hTt ▸ hstays)
      · exact hstays
  · exact .inr (.inr ⟨i, (Table.gradientAt_modify s.arrays id i
      (f := fun a => a.withOwner (some target)) fun _ => rfl).trans hi⟩)

theorem keeps_adopt (target : ScopeId) (id : ArrayId) : Keeps (Sound R {}) (adopt target id) := by
  unfold adopt
  refine (meets_scope target fun _ hs => hs).bind fun c => (meets_array id fun _ hs => hs.2).bind
    fun a => .of_state fun t ⟨ha, hc, ht⟩ => ?_
  have hrefused : ∀ s : Session σ, s = t → Sound R {} s := fun s hs => by rw [hs]; exact ht
  have howner := Table.ownerAt_of_get? ha
  have hopen := Table.openAt_of_get? hc
  dsimp only
  refine .guard hrefused fun _ => .guard hrefused fun hreleased => ?_
  cases ho : a.owner with
  | none =>
    refine .guard hrefused fun hclosed => ?_
    refine .modify_bind (I := (· = _)) (fun s hs => by rw [hs]) (.modify fun s hs => ?_)
    subst hs
    have hreleased : a.owned.isReleased = false := by simpa using hreleased
    exact ht.joined ((Table.mem_keys_iff _ _).2 ⟨a, ha⟩) (howner.trans ho)
      ((congrArg Handle.isNull (Table.handleAt_of_get? ha)).trans hreleased)
      (by simp [hopen, hclosed])
  | some source =>
    refine .get_bind fun u hu => ?_
    subst hu
    cases hp : u.scopes.get? source with
    | none => exact .throw hrefused
    | some p =>
      refine .guard hrefused fun hclosed => .ite (fun _ => .done ht) fun _ => ?_
      refine .guard hrefused fun _ => ?_
      refine .modify_bind (I := (· = _)) (fun s hs => by rw [hs]) ?_
      refine .modify_bind (I := (· = _)) (fun s hs => by rw [hs]) (.modify fun s hs => ?_)
      subst hs
      -- The three updates together are one move; after either of the first two the registries and
      -- the owners disagree.
      exact ht.moved (howner.trans ho) (by simp [hopen, hclosed])

end ScopedTensor.Session
