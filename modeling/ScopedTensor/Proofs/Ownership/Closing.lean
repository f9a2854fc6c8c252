import Mathlib.Logic.Relation
import ScopedTensor.Element.Interchange
import ScopedTensor.Proofs.Ownership.Freeing
import ScopedTensor.Proofs.Ownership.Reachability

/-! Closing a scope, from the scope itself, by its last holder or with its engine: everything below
it closes and gives its arrays back with one free each, and nothing else changes. -/

namespace ScopedTensor

open ScopedTensor.Action Session Relation

section

variable {half : HalfPrecision}
variable {σ : Type}

/-- `T` is `S`, or hangs below it through scopes that are there. -/
def Session.Below (s : Session σ) (S T : ScopeId) : Prop :=
  ReflTransGen (fun p c => s.scopes.parentAt c = some p) S T

/-- From `s` to `t` the scope `S` has closed with everything below it, and the arrays in `ids` have
been released with one call of `free` each. -/
structure Session.ClosedDown (s : Session σ) (S : ScopeId) (ids : List ArrayId) (t : Session σ) :
    Prop where
  /-- At most `S` itself is gone. -/
  kept : ∀ T ∈ s.scopes.keys, T ≠ S → T ∈ t.scopes.keys
  closed : ∀ T c, s.Below S T → t.scopes.get? T = some c → c.closed = true ∧ c.arrays = []
  once : ids.Nodup
  native : t.native = s.arrays.freeing ids s.native
  owned : ∀ id a T, s.arrays.get? id = some a → a.owner = some T → s.Below S T → id ∈ ids
  only : ∀ id ∈ ids, ∃ a, s.arrays.get? id = some a ∧ a.owned.isReleased = false ∧
    ((∃ T, a.owner = some T ∧ s.Below S T) ∨ a.owner = none ∧ id ∉ s.arrayHolds)
  released : ∀ id ∈ ids, ∀ b, t.arrays.get? id = some b →
    b.owned.isReleased = true ∧ b.owner = none
  scopes : ∀ T, ¬ s.Below S T → t.scopes.get? T = s.scopes.get? T
  outside : ∀ id a T, s.arrays.get? id = some a → a.owner = some T → ¬ s.Below S T →
    t.arrays.get? id = some a ∧ a.owned.isReleased = false
  unowned : ∀ id a, s.arrays.get? id = some a → a.owner = none → id ∈ s.arrayHolds →
    t.arrays.get? id = some a
  contents : ∀ lib : Library σ, lib.FreesApart → s.arrays.handles.Nodup →
    (∀ id a, s.arrays.get? id = some a → a.engine.library = lib) →
    ∀ id a, s.arrays.get? id = some a → a.owned.isReleased = false → id ∉ ids →
    ∀ room length, (Library.Call.copyOut a.owned.handle room length).reply lib t.native =
      (Library.Call.copyOut a.owned.handle room length).reply lib s.native
  closeScope_again : ∀ T, s.Below S T → closeScope T t = .ok ⟨⟩ t
  closeArray_again : ∀ id ∈ ids, closeArray id t = .ok ⟨⟩ t

namespace Session

variable {R : Regime σ} {d : Debts} {s t : Session σ} {D : ScopeId → Prop} {S T : ScopeId}
variable {id : ArrayId} {ids : List ArrayId} {E : Session σ → Prop} {orphans : List ScopeId}
variable {leaving : Option ScopeId} {K : List ScopeId}

theorem sheds_shut (hD : D S) : Sheds D s { s with scopes := s.scopes.modify S Scope.shut } := by
  refine ⟨{ Spares.refl s with scopes := ?_, parent := ?_ }, [],
    .nothing rfl (fun _ => rfl) fun _ b hb => ⟨b, hb, rfl⟩⟩
  · intro T hT
    have hne : T ≠ S := fun hTS => hT (hTS ▸ hD)
    exact (Table.get?_modify ..).trans (if_neg hne)
  · intro T hT
    rw [Table.keys_modify] at hT
    exact ⟨hT, Table.parentAt_modify s.scopes S T (f := Scope.shut) fun _ => rfl⟩

theorem sheds_dismissed (hD : D S) (howner : s.arrays.ownerAt id = some S) :
    Sheds D s ((s.dismissed S id).givenBack id) := by
  have hscopes : ((s.dismissed S id).givenBack id).scopes =
      s.scopes.modify S fun c => c.withArrays (c.arrays.erase id) := scopes_givenBack _ _
  have hhandle := fun j => Table.handleAt_modify s.arrays id j (f := fun a => a.withOwner none)
    fun _ => rfl
  have hother : ∀ j, j ≠ id →
      ((s.dismissed S id).givenBack id).arrays.get? j = s.arrays.get? j := fun j hj =>
    (get?_givenBack_of_ne hj).trans ((Table.get?_modify ..).trans (if_neg hj))
  have hotherOwner : ∀ j, j ≠ id →
      ((s.dismissed S id).givenBack id).arrays.ownerAt j = s.arrays.ownerAt j := fun j hj =>
    congrArg (·.bind Tensor.owner) (hother j hj)
  have hnone : ((s.dismissed S id).givenBack id).arrays.ownerAt id = none := by
    have hdismissed : (s.dismissed S id).arrays.ownerAt id = none :=
      (Table.ownerAt_modify_self s.arrays id id none (fun _ => rfl)
        (Table.mem_keys_of_ownerAt howner)).trans (if_pos rfl)
    unfold givenBack
    split
    · exact hdismissed
    · exact (Table.ownerAt_modify _ id id (f := fun a => a.withOwned ⟨⟨0⟩⟩) fun _ => rfl).trans
        hdismissed
  refine ⟨?_, _, Frees.trans (t := s.dismissed S id) (.nothing rfl hhandle fun j b hb => ?_)
    (frees_givenBack _ id)⟩
  · constructor
    case scopes =>
      intro T hT
      have hne : T ≠ S := fun hTS => hT (hTS ▸ hD)
      rw [hscopes, Table.get?_modify, if_neg hne]
    case parent =>
      intro T hT
      rw [hscopes, Table.keys_modify] at hT
      rw [hscopes]
      exact ⟨hT, Table.parentAt_modify s.scopes S T
        (f := fun c => c.withArrays (c.arrays.erase id)) fun _ => rfl⟩
    case holds => exact arrayHolds_givenBack _ id
    case owner =>
      intro j T hj
      by_cases hid : j = id
      · rw [hid, hnone] at hj
        exact absurd hj nofun
      · rwa [hotherOwner j hid] at hj
    case outside =>
      intro j T hj hT
      refine hother j ?_
      rintro rfl
      exact hT (Option.some.inj (howner.symm.trans hj) ▸ hD)
    case unowned =>
      intro j hj
      refine .inl (hother j ?_)
      rintro rfl
      exact absurd (howner.symm.trans hj) nofun
    case lost =>
      -- Nobody else lost an owner, and the array that did has given its handle back.
      intro j T hj hlost
      rw [handleAt_givenBack]
      by_cases hid : j = id
      · rw [if_pos hid]
      · exact absurd (hj.symm.trans ((hotherOwner j hid).symm.trans hlost)) nofun
    case null =>
      intro j hj
      rw [handleAt_givenBack]
      split
      · rfl
      · exact (hhandle j).trans hj
  · obtain hb := (Table.get?_modify ..).symm.trans hb
    split at hb
    · obtain ⟨a, ha, rfl⟩ := Option.map_eq_some_iff.1 hb
      exact ⟨a, ha, rfl⟩
    · exact ⟨b, hb, rfl⟩

theorem sheds_surrender {s₀ : Session σ} {x : ArrayId} {xs : List ArrayId} (hD : D S) :
    Meets (fun s => Closing R S orphans leaving K (x :: xs) s ∧ Sheds D s₀ s) (surrender S x)
      (fun _ => Sheds D s₀) E := by
  refine .of_state fun t ⟨ht, hshed⟩ => .of_step (surrender_eq ht.ownerAt) ?_
  obtain ⟨hleft, hnone⟩ := ht.sound.loosen.dismissed ht.ownerAt
  have hgiven := (meets_release hleft x (.inr hnone)).and (E := E)
    (.of_eq (Q := fun _ => Sheds D t) (release_eq _ x) (sheds_dismissed hD ht.ownerAt))
  refine (hgiven.of_imp fun _ hs => ⟨hs, hs⟩).bind fun _ => .of_state fun u ⟨hu, hgone⟩ => ?_
  exact (sheds_sweep hu.1).to_imp fun _ _ hswept => (hshed.trans hgone).trans hswept

theorem cascading_sheds (s : Session σ) (S : ScopeId) :
    Cascading leaving K (s.Below S) (Sheds (s.Below S) s) where
  below _ _ c ht hp hc :=
    hp.tail ((ht.1.parent c (Table.mem_keys_of_parentAt hc)).2.symm.trans hc)
  shut _ _ ht hT _ := ht.trans (sheds_shut hT)
  surrender hT := sheds_surrender hT

theorem closeScope_shut (hS : s.scopes.openAt S = false) : closeScope S s = .ok ⟨⟩ s := by
  have hwithin : ∀ n, closeWithin n S s = .ok ⟨⟩ s := by
    intro n
    cases n with
    | zero => rfl
    | succ n =>
      unfold closeWithin
      refine bind_ok.2 ⟨s, s, rfl, ?_⟩
      cases hc : s.scopes.get? S with
      | none => rfl
      | some c =>
        have hclosed := Table.openAt_eq_false_iff.1 hS c hc
        simp only [hclosed]
        rfl
  exact bind_ok.2 ⟨s, s, rfl, hwithin _⟩

theorem sweep_held (hs : Sound R d s) (htight : d.loose = false) : sweep s = .ok ⟨⟩ s :=
  sweep_of_held fun id hid => (isHeld_iff hs.numbered id).2 (hs.held htight id hid)

theorem givenBack_null (hs : Sound R d s) (hnull : s.arrays.handleAt id = ⟨0⟩) :
    s.givenBack id = s := by
  cases ha : s.arrays.get? id with
  | none => exact givenBack_of_none ha
  | some a =>
    rw [Table.handleAt_of_get? ha] at hnull
    have hreleased : a.owned.isReleased = true := by
      unfold OwnedHandle.isReleased
      rw [hnull]
      rfl
    have howned : a.withOwned ⟨⟨0⟩⟩ = a := by
      unfold Tensor.withOwned
      rw [← hnull]
    rw [givenBack_of_some ha, if_pos hreleased,
      Table.modify_of_fixed hs.numbered.arraysDistinct ha howned]

theorem closeArray_released (hs : Sound R d s) (htight : d.loose = false)
    (howner : s.arrays.ownerAt id = none) (hnull : s.arrays.handleAt id = ⟨0⟩) :
    closeArray id s = .ok ⟨⟩ s := by
  refine settled_ok (bind_ok.2 ⟨⟨⟩, s, ?_, ?_⟩) (sweep_held hs htight)
  · rw [release_eq, givenBack_null hs hnull]
  · refine bind_ok.2 ⟨s, s, rfl, ?_⟩
    have hnone : (s.arrays.get? id).bind Tensor.owner = none := howner
    simp only [hnone]
    rfl

theorem shut_below (ht : Sound R {} t) (hspares : Spares D s t) (hS : t.scopes.openAt S = false)
    (hT : s.Below S T) : t.scopes.openAt T = false := by
  induction hT with
  | refl => exact hS
  | @tail p c _ hc ih =>
    cases hopen : t.scopes.openAt c with
    | false => rfl
    | true =>
      have hparent := (hspares.parent c (Table.mem_keys_of_openAt hopen)).2.trans hc
      exact absurd (ht.rooted.orphaned c p hopen hparent ih) List.not_mem_nil

theorem Frees.not_mem (hfrees : Frees ids s t) (hget : t.arrays.get? id = s.arrays.get? id) :
    id ∉ ids := by
  intro hid
  have hhandle : t.arrays.handleAt id = s.arrays.handleAt id := by
    unfold Table.handleAt
    rw [hget]
  have hnull := hfrees.owned id hid
  rw [← hhandle, hfrees.handle, if_pos hid] at hnull
  exact absurd hnull nofun

section Subtree

variable (ht : Sound R {} t) (hspares : Spares (s.Below S) s t) (hfrees : Frees ids s t)
variable (hS : t.scopes.openAt S = false)

include ht hspares hS

theorem registry_below (hT : s.Below S T) : t.scopes.registry T = [] :=
  ht.registered.shut T (shut_below ht hspares hS hT) nofun

theorem owner_before (ho : t.arrays.ownerAt id = some T) :
    s.arrays.ownerAt id = some T ∧ ¬ s.Below S T := by
  refine ⟨hspares.owner id T ho, fun hT => ?_⟩
  have hmem := (ht.registered.owner_iff id T).1 ho
  rw [registry_below ht hspares hS hT] at hmem
  exact absurd hmem List.not_mem_nil

include hfrees

theorem ownerAt_freed (hid : id ∈ ids) : t.arrays.ownerAt id = none := by
  cases ho : t.arrays.ownerAt id with
  | none => rfl
  | some T =>
    obtain ⟨hbefore, hT⟩ := owner_before ht hspares hS ho
    exact absurd hid (hfrees.not_mem (hspares.outside id T hbefore hT))

theorem freed_of_below (hs : Sound R {} s) (ho : s.arrays.ownerAt id = some T)
    (hT : s.Below S T) : id ∈ ids := by
  have hafter : t.arrays.ownerAt id = none := by
    cases ho' : t.arrays.ownerAt id with
    | none => rfl
    | some T' =>
      obtain ⟨hbefore, hT'⟩ := owner_before ht hspares hS ho'
      exact absurd (Option.some.inj (ho.symm.trans hbefore) ▸ hT) hT'
  have hnull := hspares.lost id T ho hafter
  have hhandle := hs.unreleased ho
  by_contra hid
  rw [hfrees.handle, if_neg hid] at hnull
  rw [hnull] at hhandle
  exact absurd hhandle nofun

end Subtree

/-- Nothing else has been freed but what no scope owned and no variable held. -/
theorem below_of_freed (hspares : Spares D s t) (hfrees : Frees ids s t) (hid : id ∈ ids) :
    ∃ a, s.arrays.get? id = some a ∧ a.owned.isReleased = false ∧
      ((∃ T, a.owner = some T ∧ D T) ∨ a.owner = none ∧ id ∉ s.arrayHolds) := by
  have hhandle := hfrees.owned id hid
  cases ha : s.arrays.get? id with
  | none =>
    unfold Table.handleAt at hhandle
    rw [ha] at hhandle
    exact absurd hhandle nofun
  | some a =>
    rw [Table.handleAt_of_get? ha] at hhandle
    refine ⟨a, rfl, hhandle, ?_⟩
    have hbefore := Table.ownerAt_of_get? ha
    cases ho : a.owner with
    | none =>
      rcases hspares.unowned id (hbefore.trans ho) with hkept | ⟨-, hheld⟩
      · exact absurd hid (hfrees.not_mem hkept)
      · exact .inr ⟨rfl, hheld⟩
    | some T =>
      refine .inl ⟨T, rfl, ?_⟩
      by_contra hT
      exact absurd hid (hfrees.not_mem (hspares.outside id T (hbefore.trans ho) hT))

theorem closedDown (hs : Sound R {} s) (ht : Sound R {} t) (hsheds : Sheds (s.Below S) s t)
    (hS : t.scopes.openAt S = false) (hkept : ∀ T ∈ s.scopes.keys, T ≠ S → T ∈ t.scopes.keys) :
    ∃ ids, s.ClosedDown S ids t := by
  obtain ⟨hspares, ids, hfrees⟩ := hsheds
  refine ⟨ids, ?_⟩
  have hshut : ∀ T, s.Below S T → t.scopes.openAt T = false := fun T => shut_below ht hspares hS
  have hfreed : ∀ id ∈ ids, t.arrays.handleAt id = ⟨0⟩ := fun id hid =>
    (hfrees.handle id).trans (if_pos hid)
  constructor
  case kept => exact hkept
  case closed =>
    intro T c hT hc
    exact ⟨Table.openAt_eq_false_iff.1 (hshut T hT) c hc,
      (Table.registry_of_get? hc).symm.trans (registry_below ht hspares hS hT)⟩
  case once => exact hfrees.once
  case native => exact hfrees.native
  case owned =>
    intro id a T ha hT
    exact freed_of_below ht hspares hfrees hS hs ((Table.ownerAt_of_get? ha).trans hT)
  case only => exact fun id => below_of_freed hspares hfrees
  case released =>
    intro id hid b hb
    have hhandle := hfreed id hid
    have howner := ownerAt_freed ht hspares hfrees hS hid
    rw [Table.handleAt_of_get? hb] at hhandle
    refine ⟨?_, (Table.ownerAt_of_get? hb).symm.trans howner⟩
    unfold OwnedHandle.isReleased
    rw [hhandle]
    rfl
  case scopes => exact hspares.scopes
  case outside =>
    intro id a T ha hT hbelow
    have hbefore : s.arrays.ownerAt id = some T := (Table.ownerAt_of_get? ha).trans hT
    have hhandle := hs.unreleased hbefore
    rw [Table.handleAt_of_get? ha] at hhandle
    exact ⟨(hspares.outside id T hbefore hbelow).trans ha, hhandle⟩
  case unowned =>
    intro id a ha ho hheld
    have hbefore := (Table.ownerAt_of_get? ha).trans ho
    exact ((hspares.unowned id hbefore).resolve_right fun hgone => hgone.2 hheld).trans ha
  case contents =>
    intro lib hlib honce hengines id a ha hreleased hid room length
    rw [hfrees.native]
    exact reply_freeing hlib honce hengines ha hreleased room length hid s.native
  case closeScope_again => exact fun T hT => closeScope_shut (hshut T hT)
  case closeArray_again =>
    intro id hid
    exact closeArray_released ht rfl (ownerAt_freed ht hspares hfrees hS hid) (hfreed id hid)

theorem closeScope_sheds (hs : Sound R ⟨[], false, none, none, [], leaving⟩ s) (S : ScopeId)
    (hleaving : ∀ x : Nat, leaving = some x → x ≤ S) :
    ∃ t, closeScope S s = .ok ⟨⟩ t ∧ Sound R ⟨[], false, none, none, [], leaving⟩ t ∧
      t.scopes.keys = s.scopes.keys ∧ t.scopes.openAt S = false ∧ Sheds (s.Below S) s t := by
  obtain ⟨⟨⟩, t, ht, hwalk, hS⟩ := (meets_closeScope (R := R) (E := fun _ => False)
    (cascading_sheds s S) S (fun _ => .refl) hleaving).ok ⟨hs, rfl, .refl s⟩
  exact ⟨t, ht, hwalk.sound, hwalk.keys, hS, hwalk.carried⟩

theorem Sheds.of_eq {s' t' : Session σ} (h : Sheds D s t)
    (hs : { s' with lastId := s.lastId, scopeHolds := s.scopeHolds } = s)
    (ht : { t' with lastId := t.lastId, scopeHolds := t.scopeHolds } = t) : Sheds D s' t' := by
  rw [← hs, ← ht] at h
  obtain ⟨hspares, ids, hfrees⟩ := h
  exact ⟨⟨hspares.scopes, hspares.parent, hspares.holds, hspares.owner, hspares.outside,
    hspares.unowned, hspares.lost, hspares.null⟩,
    ids, hfrees.once, hfrees.owned, hfrees.native, hfrees.handle, hfrees.engine⟩

theorem Sheds.felled (h : Sheds D s t) (hD : D S) :
    Sheds D s { t with scopes := t.scopes.erase S } := by
  obtain ⟨hspares, ids, hfrees⟩ := h
  refine ⟨?_, ids, hfrees.once, hfrees.owned, hfrees.native, hfrees.handle, hfrees.engine⟩
  refine ⟨fun T hT => ?_, fun T hT => ?_, hspares.holds, hspares.owner, hspares.outside,
    hspares.unowned, hspares.lost, hspares.null⟩
  · have hne : T ≠ S := fun hTS => hT (hTS ▸ hD)
    exact (Table.get?_erase ..).trans ((if_neg hne).trans (hspares.scopes T hT))
  · obtain ⟨hmem, hne⟩ := Table.mem_keys_erase.1 hT
    have hparent : (t.scopes.erase S).parentAt T = t.scopes.parentAt T :=
      Table.parentAt_erase.trans (if_neg hne)
    exact ⟨(hspares.parent T hmem).1, hparent.trans (hspares.parent T hmem).2⟩

theorem closeScope_closesDown (hs : Sound R {} s) (S : ScopeId) :
    ∃ t ids, closeScope S s = .ok ⟨⟩ t ∧ t.scopes.keys = s.scopes.keys ∧ s.ClosedDown S ids t := by
  obtain ⟨t, hclose, ht, hkeys, hS, hsheds⟩ := closeScope_sheds hs S nofun
  obtain ⟨ids, hdown⟩ := closedDown hs ht hsheds hS fun T hT _ => hkeys.symm ▸ hT
  exact ⟨t, ids, hclose, hkeys, hdown⟩

theorem dropScope_closesDown (hs : Sound R {} s) (hlast : S ∉ s.scopeHolds.erase S) :
    ∃ t ids, dropScope S s = .ok ⟨⟩ t ∧ S ∉ t.scopes.keys ∧ s.ClosedDown S ids t := by
  obtain ⟨t, hclose, ht, hkeys, hS, hsheds⟩ := closeScope_sheds (hs.unholdScope S) S
    fun x hx => Nat.le_of_eq (Option.some.inj hx).symm
  obtain ⟨ids, hdown⟩ := closedDown hs (ht.felled hS) ((hsheds.of_eq rfl rfl).felled .refl)
    (Table.openAt_erase.trans (if_pos rfl))
    fun T hT hne => Table.mem_keys_erase.2 ⟨hkeys.symm ▸ hT, hne⟩
  exact ⟨_, ids, dropScope_last hlast hclose, fun hmem => (Table.mem_keys_erase.1 hmem).2 rfl, hdown⟩

theorem drop_closesDown (hs : Sound R {} s) (e : Engine σ) :
    ∃ t ids, e.drop s = .ok ⟨⟩ t ∧ s.ClosedDown e.system ids t := by
  obtain ⟨t, hclose, ht, hkeys, hS, hsheds⟩ := closeScope_sheds hs e.system nofun
  have hdrop : ∀ u, dropScope e.system t = .ok ⟨⟩ u → e.drop s = .ok ⟨⟩ u := fun u hu =>
    bind_ok.2 ⟨⟨⟩, t, hclose, hu⟩
  have hunheld := ht.unholdScope e.system
  by_cases hlast : e.system ∈ t.scopeHolds.erase e.system
  · have hkept : dropScope e.system t = .ok ⟨⟩
        { t with scopeHolds := t.scopeHolds.erase e.system } := by
      refine bind_ok.2 ⟨⟨⟩, _, rfl, bind_ok.2 ⟨_, _, rfl, ?_⟩⟩
      simp only [List.contains_iff_mem.2 hlast]
      rfl
    obtain ⟨ids, hdown⟩ := closedDown hs (hunheld.settle_leaving hlast) (hsheds.of_eq rfl rfl) hS
      fun T hT _ => hkeys.symm ▸ hT
    exact ⟨_, ids, hdrop _ hkept, hdown⟩
  · -- the scope is closed, so closing it with its last holder comes to nothing
    have hgone := dropScope_last hlast (closeScope_shut hS)
    obtain ⟨ids, hdown⟩ := closedDown hs (hunheld.felled hS) ((hsheds.felled .refl).of_eq rfl rfl)
      (Table.openAt_erase.trans (if_pos rfl))
      fun T hT hne => Table.mem_keys_erase.2 ⟨hkeys.symm ▸ hT, hne⟩
    exact ⟨_, ids, hdrop _ hgone, hdown⟩

theorem adopt_owner {target : ScopeId} {u : Session σ} (h : adopt target id s = .ok ⟨⟩ u) :
    u.arrays.ownerAt id = some target := by
  have hmeets : Meets (· = s) (adopt target id) (fun _ u => u.arrays.ownerAt id = some target)
      fun _ => True := by
    have hgiven : ∀ {arrays : Table (Tensor σ)} {a : Tensor σ}, arrays.get? id = some a →
        (arrays.modify id fun a => a.withOwner (some target)).ownerAt id = some target := fun ha =>
      (Table.ownerAt_modify_self _ id id (some target) (fun _ => rfl)
        ((Table.mem_keys_iff _ _).2 ⟨_, ha⟩)).trans (if_pos rfl)
    unfold adopt
    refine (meets_scope target fun _ _ => ⟨⟩).bind fun c =>
      (meets_array id fun _ _ => ⟨⟩).bind fun a => .of_state fun t ⟨ha, _, ht⟩ => ?_
    refine .guard (fun _ _ => ⟨⟩) fun _ => .guard (fun _ _ => ⟨⟩) fun _ => ?_
    cases ho : a.owner with
    | none =>
      refine .guard (fun _ _ => ⟨⟩) fun _ => ?_
      refine .modify_bind (I := (· = _)) (fun s hs => by rw [hs]) (.modify fun s hs => ?_)
      subst hs
      exact hgiven ha
    | some source =>
      refine .get_bind fun u hu => ?_
      subst hu
      cases hp : u.scopes.get? source with
      | none => exact .throw fun _ _ => ⟨⟩
      | some p =>
        refine .guard (fun _ _ => ⟨⟩) fun _ => .ite (fun hst => ?_) fun _ => ?_
        · exact .done ((Table.ownerAt_of_get? ha).trans (ho.trans (congrArg some hst)))
        refine .guard (fun _ _ => ⟨⟩) fun _ => ?_
        -- Between two scopes the array leaves the one before it enters the other; only the last of
        -- the three updates sets its owner.
        refine .modify_bind (I := (· = _)) (fun s hs => by rw [hs]) ?_
        refine .modify_bind (I := (· = _)) (fun s hs => by rw [hs]) (.modify fun s hs => ?_)
        subst hs
        exact hgiven ha
  have := hmeets s rfl
  rw [h] at this
  exact this

theorem detach_ok (hs : Sound R {} s) {a : Tensor σ} (ha : s.arrays.get? id = some a)
    (hheld : id ∈ s.arrayHolds) :
    ∃ t, detach id s = .ok ⟨⟩ t ∧ Sound R {} t ∧ id ∈ t.arrayHolds ∧
      t.arrays.get? id = some (a.withOwner none) := by
  have hleave : Meets (· = s) (leave id) (fun _ u => u.arrayHolds = s.arrayHolds ∧
      u.arrays.get? id = some (a.withOwner none)) fun _ => False := by
    have howner : (s.arrays.get? id).bind Tensor.owner = a.owner := by
      rw [ha]
      rfl
    unfold leave
    refine .get_bind fun u hu => ?_
    subst hu
    split
    · rename_i ho
      have hsame : a.withOwner none = a := by
        unfold Tensor.withOwner
        rw [← howner.symm.trans ho]
      exact .done ⟨rfl, hsame.symm ▸ ha⟩
    · refine .modify_bind (I := (· = _)) (fun s hs => by rw [hs]) (.modify fun s hs => ?_)
      subst hs
      exact ⟨rfl, (Table.get?_modify ..).trans ((if_pos rfl).trans (congrArg _ ha))⟩
  have hsound : Meets (Sound R ⟨[], true, none, none, [], none⟩) (leave id)
      (fun _ => Sound R ⟨[], true, none, none, [], none⟩) fun _ => False :=
    (meets_leave id).of_imp fun _ hs => hs.retiring id
  obtain ⟨⟨⟩, u, hleft, hu, hholds, hget⟩ := (hsound.and hleave).ok ⟨hs.loosen, rfl⟩
  have hswept := ((meets_sweep (R := R) (E := fun _ => False) false).start ⟨hu, rfl⟩).and
    (sheds_sweep (D := fun _ => False) hu)
  obtain ⟨⟨⟩, t, hsweep, ht, hspares, -⟩ := hswept.ok ⟨rfl, rfl⟩
  have howner : u.arrays.ownerAt id = none := Table.ownerAt_of_get? hget
  have hheld' : id ∈ u.arrayHolds := hholds ▸ hheld
  refine ⟨t, settled_ok hleft hsweep, ht.1, hspares.holds ▸ hheld', ?_⟩
  exact ((hspares.unowned id howner).resolve_right fun hgone => hgone.2 hheld').trans hget

end Session

/-- Whichever way a scope closes, it closes with everything below it, every array owned there is
released with one call of `free`, and scopes and arrays elsewhere stay as they were; an array that
was detached or adopted out before is one of those. The reference engine's calls of `free` leave the
contents behind other handles alone. -/
theorem closing_exact [HalfPrecision] {n : σ} {s : Session σ} (h : ReflTransGen Next (.start n) s)
    (S : ScopeId) :
    (∃ t ids, closeScope S s = .ok ⟨⟩ t ∧ t.scopes.keys = s.scopes.keys ∧ s.ClosedDown S ids t) ∧
    (S ∉ s.scopeHolds.erase S →
      ∃ t ids, dropScope S s = .ok ⟨⟩ t ∧ S ∉ t.scopes.keys ∧ s.ClosedDown S ids t) ∧
    (∀ e : Engine σ, e.system = S → ∃ t ids, e.drop s = .ok ⟨⟩ t ∧ s.ClosedDown S ids t) ∧
    (∀ id a, s.arrays.get? id = some a → id ∈ s.arrayHolds →
      ∃ u t ids, detach id s = .ok ⟨⟩ u ∧ closeScope S u = .ok ⟨⟩ t ∧ u.ClosedDown S ids t ∧
        t.arrays.get? id = some { a with owner := none }) ∧
    (∀ target id u, adopt target id s = .ok ⟨⟩ u → ¬ u.Below S target →
      ∃ t ids a, closeScope S u = .ok ⟨⟩ t ∧ u.ClosedDown S ids t ∧
        t.arrays.get? id = some a ∧ a.owner = some target ∧ a.owned.isReleased = false) ∧
    ∀ gpus, (Reference.library gpus).FreesApart := by
  have hs := sound_reached h
  refine ⟨closeScope_closesDown hs S, dropScope_closesDown hs, fun e he => he ▸ drop_closesDown hs e,
    fun id a ha hheld => ?_, fun target id u hadopt hbelow => ?_, Reference.freesApart⟩
  · obtain ⟨u, hdetach, hu, hheld, hget⟩ := detach_ok hs ha hheld
    obtain ⟨t, ids, hclose, -, hdown⟩ := closeScope_closesDown hu S
    exact ⟨u, t, ids, hdetach, hclose, hdown, hdown.unowned id _ hget rfl hheld⟩
  · have hu : Sound (.lenient fun _ => False) {} u := by
      have := keeps_adopt target id s hs
      rwa [hadopt] at this
    obtain ⟨t, ids, hclose, -, hdown⟩ := closeScope_closesDown hu S
    obtain ⟨a, ha, howner⟩ := Option.bind_eq_some_iff.1 (adopt_owner hadopt)
    obtain ⟨hkept, hreleased⟩ := hdown.outside id a target ha howner hbelow
    exact ⟨t, ids, a, hclose, hdown, hkept, howner, hreleased⟩

end

open Interchange

/-- A scope with another one below it, each with an array, and an array that was detached. -/
theorem closing_exact_below :
    let ops : List Operation := [.baseScope none, .subScope 3 none, .filled "_ones" 3 ⟨[2]⟩ .f32,
      .filled "_ones" 4 ⟨[2]⟩ .f32, .filled "_zeros" 4 ⟨[3]⟩ .f64, .detach 7]
    ∃ e s₀ t ids, Engine.build (Reference.library 0) .standard .cpu (.start .initial) = .ok e s₀ ∧
      closeScope 3 (Operation.run e s₀ ops) = .ok ⟨⟩ t ∧
      (Operation.run e s₀ ops).ClosedDown 3 ids t ∧ 5 ∈ ids ∧ 6 ∈ ids ∧ 7 ∉ ids := by
  intro ops
  have hrun : (match Engine.build (Reference.library 0) .standard .cpu (.start .initial) with
      | .ok e s₀ =>
        let s := Operation.run e s₀ ops
        decide (s.arrays.ownerAt 5 = some 3 ∧ s.arrays.ownerAt 6 = some 4 ∧
          s.scopes.parentAt 4 = some 3 ∧ (s.arrays.get? 7).isSome ∧ s.arrays.ownerAt 7 = none ∧
          7 ∈ s.arrayHolds)
      | .error _ _ => false) = true := by decide +kernel
  cases hbuild : Engine.build (Reference.library 0) .standard .cpu (.start .initial) with
  | error x s => rw [hbuild] at hrun; exact absurd hrun nofun
  | ok e s₀ =>
    rw [hbuild] at hrun
    obtain ⟨h5, h6, h4, h7, hfree, hheld⟩ := of_decide_eq_true hrun
    have hreached := reached_run (Reference.neverNull 0) hbuild ops
    obtain ⟨t, ids, hclose, -, hdown⟩ := (closing_exact hreached 3).1
    obtain ⟨a, ha, hao⟩ := Option.bind_eq_some_iff.1 h5
    obtain ⟨b, hb, hbo⟩ := Option.bind_eq_some_iff.1 h6
    obtain ⟨c, hc⟩ := Option.isSome_iff_exists.1 h7
    have hco := (Table.ownerAt_of_get? hc).symm.trans hfree
    refine ⟨e, s₀, t, ids, rfl, hclose, hdown, hdown.owned 5 a 3 ha hao .refl,
      hdown.owned 6 b 4 hb hbo (.single h4), fun hmem => ?_⟩
    obtain ⟨a', ha', -, ⟨T, hT, -⟩ | ⟨-, hunheld⟩⟩ := hdown.only 7 hmem
    · obtain rfl := Option.some.inj (hc.symm.trans ha')
      exact absurd (hT.symm.trans hco) nofun
    · exact hunheld hheld

end ScopedTensor
