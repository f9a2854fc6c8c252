import ScopedTensor.Proofs.Operations.Work

/-! What sessions make of their engines' calls. Only when a gradient is attached are variables marked,
so whatever all other calls keep is kept by every other operation. -/

namespace ScopedTensor

open ScopedTensor.Action Relation

variable {half : HalfPrecision}

/-- Engines of one kind, and what holds of their state as long as they mark no variables. -/
structure Guide (σ : Type) where
  admits : Library σ → Prop
  holds : σ → Prop
  call : ∀ {lib : Library σ}, admits lib → ∀ c : Library.Call, c.marks = false →
    Keeps holds (c.perform lib)

variable {σ α β : Type} {G : Guide σ} {lib : Library σ}

namespace Guide

theorem invoke (h : G.admits lib) (t : OperatorTable) (name : String) (inputs : List Handle)
    (outputs : Option (List Handle)) (params : Params) :
    Keeps G.holds (t.invoke lib name inputs outputs params) :=
  (keeps_ofExcept _).bind fun op =>
    (G.call h (.invoke op inputs outputs params) rfl).of_map

def mandate (G : Guide σ) : Mandate σ where
  admits e := G.admits e.library
  asks c := c.marks = false
  fills _ := True
  others _ h := h

theorem holds_of_reach (h : G.admits lib) {n m : σ} (hreach : G.mandate.Reach lib n m)
    (hn : G.holds n) : G.holds m := by
  induction hreach with
  | refl => exact hn
  | tail _ hstep ih =>
    obtain ⟨c, hc, rfl⟩ := hstep
    exact (G.call h c hc).after ih

end Guide

namespace Session

/-- All engines of a session are of the kind, and what holds of their state holds. -/
structure Guided (G : Guide σ) (s : Session σ) : Prop where
  arrays : ∀ id a, s.arrays.get? id = some a → G.admits a.engine.library
  scopes : ∀ S c, s.scopes.get? S = some c → G.admits c.engine.library
  native : G.holds s.native

variable {s t : Session σ}

theorem Move.holds (h : Move G.mandate s t) (hs : G.holds s.native) : G.holds t.native := by
  cases h with
  | tidied h => exact h.native ▸ hs
  | called he h => exact Guide.holds_of_reach he h hs
  | @learned id a ha he hopen k hk x n hx =>
    have hcall := (G.call he (k.call a.owned.handle) (k.marks_call _)).after hs
    exact after_ok hx ▸ hcall
  | wrapped => exact hs

theorem Guided.work (hs : Guided G s) (h : Work G.mandate s t) : Guided G t := by
  have hmoves : ∀ u, ReflTransGen (Move G.mandate) s u → G.holds u.native := by
    intro u hu
    induction hu with
    | refl => exact hs.native
    | tail _ hmove ih => exact hmove.holds ih
  exact ⟨h.arrays, h.scopes, hmoves t h.moves⟩

theorem guided_of_works {a : Action (Session σ) α} (ha : ∀ s, Keeps (Work G.mandate s) a) :
    Keeps (Guided G) a :=
  .of_state fun s hs => ((ha s).start ⟨hs.arrays, hs.scopes, .refl⟩).imp (fun _ h => h)
    (fun _ _ ht => hs.work ht) fun _ ht => hs.work ht

theorem guided_array (id : ArrayId) :
    Meets (Guided G) (array id) (fun a s => G.admits a.engine.library ∧ Guided G s) (Guided G) :=
  (meets_array id fun _ hs => hs).to_imp fun a _ hs => ⟨hs.2.arrays id a hs.1, hs.2⟩

theorem guided_of_array {f : Tensor σ → Action (Session σ) β}
    (hf : ∀ a, G.admits a.engine.library → Keeps (Guided G) (f a)) (id : ArrayId) :
    Keeps (Guided G) (array id >>= f) :=
  (guided_array id).bind fun a s hs => hf a hs.1 s hs.2

theorem guided_of_scope {f : Scope σ → Action (Session σ) β}
    (hf : ∀ c, G.admits c.engine.library → Keeps (Guided G) (f c)) (S : ScopeId) :
    Keeps (Guided G) (scope S >>= f) :=
  (meets_scope S fun _ hs => hs).bind fun c s hs => hf c (hs.2.scopes S c hs.1) s hs.2

theorem guided_modifyArray (id : ArrayId) {f : Tensor σ → Tensor σ}
    (hf : ∀ a, (f a).facts = a.facts) : Keeps (Guided G) (modifyArray id f) :=
  guided_of_works fun _ => works_modifyArray id hf

theorem guided_letGo (id : ArrayId) : Keeps (Guided G) (letGo id) :=
  guided_of_works fun _ => works_letGo id

theorem guided_sweep : Keeps (Guided G) sweep := guided_of_works fun _ => works_sweep

theorem guided_attach (owner : Option ScopeId) (id : ArrayId) :
    Keeps (Guided G) (attach owner id) := guided_of_works fun _ => works_attach owner id

theorem guided_retire (id : ArrayId) : Keeps (Guided G) (retire id) :=
  guided_of_works fun _ => works_retire id

theorem guided_shape (id : ArrayId) : Keeps (Guided G) (shape id) :=
  guided_of_works fun _ => works_shape id

theorem guided_type (id : ArrayId) : Keeps (Guided G) (type id) :=
  guided_of_works fun _ => works_type id

theorem guided_device (id : ArrayId) : Keeps (Guided G) (device id) :=
  guided_of_works fun _ => works_device id

theorem guided_operands (id : ArrayId) (inputs : List ArrayId) :
    Keeps (Guided G) (inputs.mapM fun input => do
      requireSameEngine .foreignOperand id input
      handle input) :=
  guided_of_works fun _ => works_operands id inputs

theorem guided_wrap {engine : LoadedEngine σ} (he : G.admits engine.library) (h : Handle)
    (known : Option Description) : Keeps (Guided G) (wrap engine h known) := by
  refine .of_state fun s hs => .of_eq (wrap_eq s engine h known) ⟨fun id a ha => ?_, hs.scopes,
    hs.native⟩
  rcases Table.get?_insert_eq_some.1 ha with ⟨-, rfl⟩ | ⟨-, ha⟩
  · exact he
  · exact hs.arrays id a ha

theorem guided_wrapAll {engine : LoadedEngine σ} (he : G.admits engine.library)
    (owner : Option ScopeId) (known : Option Description) (handles : List Handle) :
    Keeps (Guided G) (wrapAll engine owner known handles) :=
  (Keeps.mapM (fun h => guided_wrap he h known) handles).bind fun ids =>
    (Keeps.forM (guided_attach owner) ids).bind fun _ => keeps_pure _

theorem guided_joinScope (id : ArrayId) (h : Handle) (known : Option Description) :
    Keeps (Guided G) (joinScope id h known) :=
  guided_of_array (fun a ha => (guided_wrap ha h known).bind fun new =>
    (guided_attach a.owner new).bind fun _ => keeps_pure _) id

theorem guided_fromHandle (S : ScopeId) (h : Handle) (known : Option Description) :
    Keeps (Guided G) (fromHandle S h known) := by
  have hheld : ∀ id, Keeps (Guided G) (do
      holdArray id
      return id) := fun id =>
    guided_of_works fun _ => (works_holdArray id).bind fun _ => keeps_pure _
  have htaken : Keeps (Guided G) (do
      let c ← scope S
      let new ← wrap c.engine h known
      attach (some S) new
      return new) := guided_of_scope (fun c hc => (guided_wrap hc h known).bind fun new =>
    (guided_attach (some S) new).bind fun _ => keeps_pure _) S
  exact meets_settled_of_keeps (htaken.bind hheld) guided_sweep

end Session

open Session

theorem guided_build (hlib : G.admits lib) (configuration : Configuration) (device : Device) :
    Keeps (Guided G) (Engine.build lib configuration device) :=
  guided_of_works fun _ => (works_build (e := ⟨0, lib, .empty⟩) (M := G.mandate) hlib
    (fun _ _ _ _ _ => hlib) configuration device).to_imp fun _ _ hs => hs.2

def Operation.attaches : Operation → Bool
  | .attachGrad .. => true
  | _ => false

theorem Operation.guided_perform {e : Engine σ} (he : G.admits e.loaded.library) (op : Operation)
    (hop : op.attaches = false) : Keeps (Guided G) (op.perform e) := by
  have hallowed : G.mandate.allows op := by
    cases op with
    | attachGrad => exact absurd hop nofun
    | _ => trivial
  exact guided_of_works fun _ => op.works_perform he hallowed

end ScopedTensor
