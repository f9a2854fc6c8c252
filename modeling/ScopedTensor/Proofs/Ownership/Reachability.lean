import Mathlib.Logic.Relation
import ScopedTensor.Element.Interchange
import ScopedTensor.Proofs.Ownership.Ledger
import ScopedTensor.Proofs.Ownership.Runs

/-! Sessions that programs reach with any number of engines, in any order of operations: arrays and
scopes always agree on who owns what, and what is closed stays closed. -/

namespace ScopedTensor

open ScopedTensor.Action Session Relation

section

variable {half : HalfPrecision}
variable {σ : Type}

/-- What may happen to a session next. Engines never answer with the handle that stands for none,
and no such handle is given to a scope. -/
inductive Session.Next [HalfPrecision] : Session σ → Session σ → Prop
  | build (library : Library σ) (hlib : library.NeverNull) (c : Configuration) (device : Device)
      (s : Session σ) : Next s ((Engine.build library c device).after s)
  | perform {e : Engine σ} (he : e.loaded.library.NeverNull) (op : Operation) (s : Session σ) :
      Next s (op.step e s)
  | fromHandle (S : ScopeId) {h : Handle} (hnull : h.isNull = false) (known : Option Description)
      (s : Session σ) : Next s ((fromHandle S h known).after s)
  /-- The engines do something of their own. -/
  | outside (n : σ) (s : Session σ) : Next s { s with native := n }

/-- Owners and registries say the same, and closing goes downwards. -/
structure Session.Consistent (s : Session σ) : Prop where
  owner_iff : ∀ id S, (∃ a, s.arrays.get? id = some a ∧ a.owner = some S) ↔
    ∃ c, s.scopes.get? S = some c ∧ id ∈ c.arrays
  one_registry : ∀ id S T c c', s.scopes.get? S = some c → s.scopes.get? T = some c' →
    id ∈ c.arrays → id ∈ c'.arrays → S = T
  once : ∀ S c, s.scopes.get? S = some c → c.arrays.Nodup
  closed_empty : ∀ S c, s.scopes.get? S = some c → c.closed = true → c.arrays = []
  unreleased : ∀ S c, s.scopes.get? S = some c → ∀ id ∈ c.arrays,
    ∃ a, s.arrays.get? id = some a ∧ a.owned.isReleased = false
  closed_below : ∀ S c p, s.scopes.get? S = some c → c.parent = some p →
    (∀ b, s.scopes.get? p = some b → b.closed = true) → c.closed = true
  held : ∀ S c, s.scopes.get? S = some c → S ∈ s.scopeHolds

def Regime.lenient (barred : ScopeId → Prop) : Regime σ where
  account _ _ := True
  admits e := e.library.NeverNull
  barred := barred
  root _ := True
  floor := 0
  perm _ h := h
  accounted h := h

variable {barred : ScopeId → Prop} {s t : Session σ}

theorem Session.Next.sound (hnext : Next s t) (h : Sound (.lenient barred) {} s) :
    Sound (.lenient barred) {} t := by
  cases hnext with
  | build library hlib c device =>
    have hadmits : ∀ e : LoadedEngine σ, e.library = library → (Regime.lenient barred).admits e := by
      rintro e rfl
      exact hlib
    have hbuild := meets_build (R := .lenient barred) hlib hadmits c device (n := s.lastId) trivial
    exact (hbuild.to_imp fun _ _ h => h.2).after ⟨h, rfl⟩
  | perform he op => exact Operation.sound_step (R := .lenient barred) he h op
  | fromHandle S hnull known =>
    exact (keeps_fromHandle (R := .lenient barred) (fun h => h) S hnull known).after h
  | outside n => exact h.native trivial

theorem sound_of_next (h : Sound (.lenient barred) {} s) (hnext : ReflTransGen Next s t) :
    Sound (.lenient barred) {} t := by
  induction hnext with
  | refl => exact h
  | tail _ hnext ih => exact hnext.sound ih

theorem Session.Sound.consistent {R : Regime σ} (h : Sound R {} s) : s.Consistent where
  owner_iff id S := by
    rw [← Table.mem_registry, ← h.registered.owner_iff]
    exact Option.bind_eq_some_iff.symm
  one_registry id S T c c' hS hT hc hc' := by
    have hS := (h.registered.owner_iff id S).2 (Table.registry_of_get? hS ▸ hc)
    have hT := (h.registered.owner_iff id T).2 (Table.registry_of_get? hT ▸ hc')
    exact Option.some.inj (hS.symm.trans hT)
  once S c hS := Table.registry_of_get? hS ▸ h.registered.once S
  closed_empty S c hS hclosed :=
    Table.registry_of_get? hS ▸ h.registered.shut S (Table.openAt_of_closed hS hclosed) nofun
  unreleased S c hS id hid := by
    have hid : id ∈ s.scopes.registry S := Table.registry_of_get? hS ▸ hid
    obtain ⟨a, ha, -⟩ := Option.bind_eq_some_iff.1 ((h.registered.owner_iff id S).2 hid)
    have hhandle := h.registered.unreleased S id hid nofun
    rw [Table.handleAt_of_get? ha] at hhandle
    exact ⟨a, ha, hhandle⟩
  closed_below S c p hS hp hclosed := by
    -- An open scope below a closed one would be an orphan, and between operations there are none.
    have hpshut := Table.openAt_eq_false_iff.2 hclosed
    have hparent : s.scopes.parentAt S = some p := (Table.parentAt_of_get? hS).trans hp
    cases hopen : c.closed with
    | true => rfl
    | false =>
      have hopen : s.scopes.openAt S = true := Table.openAt_iff.2 ⟨c, hS, hopen⟩
      exact absurd (h.rooted.orphaned S p hopen hparent hpshut) (by simp)
  held S c hS := h.rooted.held S ((Table.mem_keys_iff _ _).2 ⟨c, hS⟩) nofun

theorem dropScope_closes {R : Regime σ} (h : Sound R {} s) {S : ScopeId} {c : Scope σ}
    (hS : s.scopes.get? S = some c) (hlast : S ∉ s.scopeHolds.erase S) :
    ∃ t b, closeScope S { s with scopeHolds := s.scopeHolds.erase S } = .ok () t ∧
      t.scopes.get? S = some b ∧ b.closed = true ∧ b.arrays = [] ∧
      dropScope S s = .ok () { t with scopes := t.scopes.erase S } := by
  have hclose := meets_closeScope (R := R) (K := s.scopes.keys) (E := fun _ => False) .trivial S
    (fun _ => ⟨⟩) fun x (hx : some S = some x) => Nat.le_of_eq (Option.some.inj hx).symm
  obtain ⟨⟨⟩, t, ht, hwalk, hshut⟩ := hclose.ok ⟨h.unholdScope S, rfl, ⟨⟩⟩
  have hkey : S ∈ t.scopes.keys := hwalk.keys ▸ (Table.mem_keys_iff _ _).2 ⟨c, hS⟩
  obtain ⟨b, hb⟩ := (Table.mem_keys_iff _ _).1 hkey
  have hclosed := Table.openAt_eq_false_iff.1 hshut b hb
  have hempty : b.arrays = [] :=
    Table.registry_of_get? hb ▸ hwalk.sound.registered.shut S hshut nofun
  exact ⟨t, b, ht, hb, hclosed, hempty, dropScope_last hlast ht⟩

theorem adopt_refusals {R : Regime σ} (h : Sound R {} s) {target : ScopeId} {id : ArrayId}
    {x : Error} (hadopt : adopt target id s = .error x t) :
    x ∈ [Error.invalid .scopeClosed, .invalid .released, .invalid .foreignArray,
      .invalid .adoptingReleased, .invalid .adoptingScopeClosed] := by
  have hthrow : ∀ {e : Error} {k : PUnit → Action (Session σ) Unit},
      EStateM.bind (throw e) k s = .error x t → x = e := by
    intro e k hx
    injection hx with hx
    exact hx.symm
  cases hc : s.scopes.get? target with
  | none =>
    simp only [adopt, scope, Action.query, bind, EStateM.bind, hc] at hadopt
    injection hadopt with hx
    simp [← hx]
  | some c =>
    cases ha : s.arrays.get? id with
    | none =>
      simp only [adopt, scope, array, Action.query, bind, EStateM.bind, hc, ha] at hadopt
      injection hadopt with hx
      simp [← hx]
    | some a =>
      simp only [adopt, scope, array, Action.query, bind, EStateM.bind, hc, ha] at hadopt
      by_cases hengine : c.engine.id ≠ a.engine.id
      · rw [if_pos hengine] at hadopt
        simp [hthrow hadopt]
      rw [if_neg hengine] at hadopt
      by_cases hreleased : a.owned.isReleased = true
      · rw [if_pos hreleased] at hadopt
        simp [hthrow hadopt]
      rw [if_neg hreleased] at hadopt
      cases ho : a.owner with
      | none =>
        simp only [ho] at hadopt
        by_cases hclosed : c.closed = true
        · rw [if_pos hclosed] at hadopt
          simp [hthrow hadopt]
        · rw [if_neg hclosed] at hadopt
          injection hadopt
      | some source =>
        have howner : s.arrays.ownerAt id = some source := Option.bind_eq_some_iff.2 ⟨a, ha, ho⟩
        obtain ⟨p, hp, hid⟩ := Table.mem_registry.1 ((h.registered.owner_iff id source).1 howner)
        have hget : (get : Action (Session σ) (Session σ)) s = .ok s s := rfl
        simp only [ho, EStateM.bind, hget, hp] at hadopt
        by_cases hclosed : c.closed = true
        · rw [if_pos hclosed] at hadopt
          injection hadopt with hx
          simp [← hx]
        rw [if_neg hclosed] at hadopt
        by_cases hsame : source = target
        · rw [if_pos hsame] at hadopt
          injection hadopt
        · rw [if_neg hsame, if_neg (by simpa using hid)] at hadopt
          injection hadopt

theorem wrapAll_succeeds {engine : LoadedEngine σ} {owner : Option ScopeId}
    (howner : ∀ S, owner = some S → s.scopes.openAt S = true) (known : Option Description)
    (handles : List Handle) : ∃ ids t, wrapAll engine owner known handles s = .ok ids t :=
  let ⟨ids, t, ht, _⟩ := (meets_wrapAll_open engine owner known handles).ok howner
  ⟨ids, t, ht⟩

theorem sound_reached {n : σ} (h : ReflTransGen Next (.start n) s) :
    Sound (.lenient fun _ => False) {} s :=
  sound_of_next (sound_start trivial (fun _ h => h) rfl) h

/-- Arrays and scopes agree in every session that is reached; a closed scope stays closed and empty;
a scope that no variable holds any more has been closed; adopting an array never finds the scope it
is in closing, nor the array released with it; and outputs always find the scope of their operand
open. -/
theorem reached_consistent [HalfPrecision] {n : σ} (h : ReflTransGen Next (.start n) s) :
    s.Consistent ∧
    (∀ S c t, s.scopes.get? S = some c → c.closed = true → ReflTransGen Next s t →
      ∀ b, t.scopes.get? S = some b → b.closed = true ∧ b.arrays = []) ∧
    (∀ S c, s.scopes.get? S = some c → S ∉ s.scopeHolds.erase S →
      ∃ t b, closeScope S { s with scopeHolds := s.scopeHolds.erase S } = .ok () t ∧
        t.scopes.get? S = some b ∧ b.closed = true ∧ b.arrays = [] ∧
        dropScope S s = .ok () { t with scopes := t.scopes.erase S }) ∧
    (∀ target id x t, adopt target id s = .error x t →
      x ≠ .invalid .previousScopeClosing ∧ x ≠ .invalid .releasedWithScope) ∧
    (∀ id a n known handles, s.arrays.get? id = some a →
      ∃ ids t, wrapAll a.engine a.owner known handles { s with native := n } = .ok ids t) := by
  have hs := sound_reached h
  refine ⟨hs.consistent, fun S c t hS hclosed hnext b hb => ?_, fun S c hS => dropScope_closes hs hS,
    fun target id x t hadopt => ?_, fun id a n known handles ha => ?_⟩
  · have hshut : s.scopes.openAt S = false := Table.openAt_of_closed hS hclosed
    have hle : S ≤ s.lastId := hs.numbered.scopes_le S ((Table.mem_keys_iff _ _).2 ⟨c, hS⟩)
    have ht : Sound (.lenient fun T => False ∨ T = S) {} t :=
      sound_of_next (hs.barring hle hshut) hnext
    have hshut' := Sound.openAt_barred (R := .lenient fun _ => False) ht
    exact ⟨Table.openAt_eq_false_iff.1 hshut' b hb,
      Table.registry_of_get? hb ▸ ht.registered.shut S hshut' nofun⟩
  · have hmem := adopt_refusals hs hadopt
    constructor <;> rintro rfl <;> exact absurd hmem (by simp)
  · refine wrapAll_succeeds (fun S hS => ?_) known handles
    have howner : s.arrays.ownerAt id = some S := Option.bind_eq_some_iff.2 ⟨a, ha, hS⟩
    exact hs.registered.open_of_owner howner

theorem reached_run [HalfPrecision] {library : Library σ} (hlib : library.NeverNull)
    {c : Configuration} {device : Device} {n : σ} {e : Engine σ} {s₀ : Session σ}
    (hbuild : Engine.build library c device (.start n) = .ok e s₀) (ops : List Operation) :
    ReflTransGen Next (.start n) (Operation.run e s₀ ops) := by
  have hadmits : ∀ e : LoadedEngine σ, e.library = library →
      (Regime.lenient fun _ => False).admits e := by
    rintro e rfl
    exact hlib
  have hbuilt := meets_build (R := .lenient fun _ => False) hlib hadmits c device (n := 0) trivial
    (.start n) ⟨sound_start trivial (fun _ h => h) rfl, rfl⟩
  rw [hbuild] at hbuilt
  have he : e.loaded.library.NeverNull := hbuilt.1.2.2 ▸ hlib
  have hstep : (Engine.build library c device).after (.start n) = s₀ := after_ok hbuild
  have hrun : ∀ s : Session σ, ReflTransGen Next s (Operation.run e s ops) := by
    induction ops with
    | nil => exact fun s => .refl
    | cons op ops ih => exact fun s => .head (.perform he op s) (ih _)
  exact .head (hstep ▸ Next.build library hlib c device (.start n)) (hrun s₀)

end

open Interchange

/-- An array that moves to a scope below and is closed with it. -/
theorem reached_consistent_moved :
    let ops : List Operation := [.baseScope none, .subScope 3 none, .filled "_ones" 3 ⟨[2]⟩ .f32,
      .adopt 4 5, .closeScope 3]
    ∃ e s₀, Engine.build (Reference.library 0) .standard .cpu (.start .initial) = .ok e s₀ ∧
      (Operation.run e s₀ ops).Consistent := by
  intro ops
  have hok : (match Engine.build (Reference.library 0) .standard .cpu (.start .initial) with
      | .ok _ _ => true
      | .error _ _ => false) = true := by decide +kernel
  cases hbuild : Engine.build (Reference.library 0) .standard .cpu (.start .initial) with
  | error x s => rw [hbuild] at hok; exact absurd hok nofun
  | ok e s₀ =>
    exact ⟨e, s₀, rfl, (reached_consistent (reached_run (Reference.neverNull 0) hbuild ops)).1⟩

end ScopedTensor
