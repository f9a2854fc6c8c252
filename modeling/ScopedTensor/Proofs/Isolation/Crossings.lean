import ScopedTensor.Element.Interchange
import ScopedTensor.Proofs.Isolation.Provenance
import ScopedTensor.Proofs.Isolation.References
import ScopedTensor.Proofs.Ownership.Likeness

/-! Operations on arrays, scopes and recording sections of two engines. They are refused before
either engine is changed; at most shapes and types of their arrays were asked for. -/

namespace ScopedTensor

open ScopedTensor.Action Session Relation

section

variable {half : HalfPrecision}
variable {σ α β : Type}

namespace Session

variable {C : Custody σ} {W : Watch σ} {R : Regime σ} {s t : Session σ} {i j : ArrayId}

/-- Nothing was changed in the engines, and of arrays at most what is remembered about them. -/
structure Asked (s t : Session σ) : Prop where
  native : t.native = s.native
  alike : Alike s t

/-- The arguments are refused before anything is done. -/
def Refuses (s : Session σ) (a : Action (Session σ) α) : Prop :=
  ∃ r t, a s = .error (.invalid r) t ∧ Asked s t

def Describable (s : Session σ) : Prop :=
  ∀ id a h, s.arrays.get? id = some a → a.owned.get = .ok h →
    (∃ x, a.engine.library.shape h s.native = .ok x s.native) ∧
      ∃ x, a.engine.library.type h s.native = .ok x s.native

def Apart (s : Session σ) (i j : ArrayId) : Prop :=
  ∃ a b, s.arrays.get? i = some a ∧ s.arrays.get? j = some b ∧ a.engine ≠ b.engine

/-- The operation takes arrays, scopes or a recording section of two engines. -/
inductive Mixes (s : Session σ) (e : Engine σ) : Operation → Prop
  | arithmetic (op : String) {i j : ArrayId} (h : s.Apart i j) : Mixes s e (.arithmetic op i j)
  | invoke {i j : ArrayId} (op : String) {inputs : List ArrayId} (params : Params)
      (hj : j ∈ inputs) (h : s.Apart i j) : Mixes s e (.invoke i op inputs params)
  | copyTo {i j : ArrayId} (h : s.Apart i j) : Mixes s e (.copyTo i j)
  | adopt {S : ScopeId} {i : ArrayId} {c : Scope σ} {a : Tensor σ}
      (hc : s.scopes.get? S = some c) (ha : s.arrays.get? i = some a)
      (h : c.engine ≠ a.engine) : Mixes s e (.adopt S i)
  | backward {i j : ArrayId} (retain training : Bool) (h : s.Apart i j) :
      Mixes s e (.backward i (some j) retain training)
  | recordedTarget {i : ArrayId} (seed : Option ArrayId) (retain : Bool) {a : Tensor σ}
      (ha : s.arrays.get? i = some a) (h : e.loaded ≠ a.engine) :
      Mixes s e (.recordedBackward i seed retain)
  | recordedSeed {i j : ArrayId} (retain : Bool) (h : s.Apart i j) :
      Mixes s e (.recordedBackward i (some j) retain)

theorem Asked.refl (s : Session σ) : Asked s s := ⟨rfl, .refl s⟩

theorem Alike.together (h : Alike s t) (ht : t.Together i j) : s.Together i j := by
  obtain ⟨a, b, ha, hb, hid⟩ := ht
  obtain ⟨a', ha', hae⟩ := h.array ha
  obtain ⟨b', hb', hbe⟩ := h.array hb
  rw [← Tensor.engine_of_bare hae, ← Tensor.engine_of_bare hbe] at hid
  exact ⟨a', b', ha', hb', hid⟩

theorem screens_remembered {known : Tensor σ → Option α} {remember : α → Tensor σ → Tensor σ}
    {load : Library σ → Handle → Action σ α} (hnote : ∀ x, Note (remember x))
    (hload : ∀ id a h, s.arrays.get? id = some a → a.owned.get = .ok h →
      ∃ x, load a.engine.library h s.native = .ok x s.native) (id : ArrayId) :
    Screens (Asked s) (remembered known remember load id) (fun _ => Asked s) (Asked s) := by
  refine (screens_array id fun _ ht => ht).bind fun a => ?_
  cases known a with
  | some x => exact (Meets.pure fun t ht => ht.2).screens
  | none =>
    refine (screens_handle id fun _ ht => ht.2).bind fun h t ⟨⟨b, hb, hh⟩, _, ht⟩ => ?_
    obtain ⟨b', hb', hbare⟩ := ht.alike.array hb
    obtain ⟨x, hx⟩ := hload id b' h hb' (Tensor.owned_of_bare hbare ▸ hh)
    have hcall : callFor id (fun lib => load lib h) t = .ok x t := by
      refine (bind_of_ok (array_eq hb)).trans ((onNative_ok (n := t.native) ?_).trans rfl)
      rw [ht.native, ← Tensor.engine_of_bare hbare]
      exact hx
    rw [bind_of_ok hcall]
    exact ⟨ht.native, ht.alike.note id (hnote x)⟩

theorem screens_shape (hs : s.Describable) (id : ArrayId) :
    Screens (Asked s) (shape id) (fun _ => Asked s) (Asked s) :=
  screens_remembered (fun _ => by exact ⟨fun _ => rfl, fun _ => rfl, fun _ => rfl, fun _ => rfl⟩)
    (fun id a h ha hh => (hs id a h ha hh).1) id

theorem screens_type (hs : s.Describable) (id : ArrayId) :
    Screens (Asked s) (type id) (fun _ => Asked s) (Asked s) :=
  screens_remembered (fun _ => by exact ⟨fun _ => rfl, fun _ => rfl, fun _ => rfl, fun _ => rfl⟩)
    (fun id a h ha hh => (hs id a h ha hh).2) id

theorem screens_apart (hs : Tended C W s) (h : s.Apart i j) (refusal : Refusal) :
    Screens (Asked s) (requireSameEngine refusal i j) (fun _ _ => False) (Asked s) := by
  refine (screens_requireSameEngine refusal i j).to_imp fun _ t ⟨htogether, ht⟩ => ?_
  obtain ⟨a, b, ha, hb, hid⟩ := ht.alike.together htogether
  obtain ⟨a', b', ha', hb', hne⟩ := h
  obtain rfl : a' = a := Option.some.inj (ha'.symm.trans ha)
  obtain rfl : b' = b := Option.some.inj (hb'.symm.trans hb)
  exact hne (hs.together ha hb hid).symm

theorem screens_outputsOf (hs : Tended C W s) (h : s.Apart i j) (op : String)
    {inputs : List ArrayId} (hj : j ∈ inputs) (params : Params) :
    Screens (Asked s) (outputsOf i op inputs params) (fun _ _ => False) (Asked s) := by
  refine Screens.bind (R := fun _ _ => False) (Screens.mapM_refuses (fun input => ?_) hj
    ((screens_apart hs h .foreignOperand).bind fun _ _ ht => ht.elim)) fun _ _ ht => ht.elim
  refine (screens_requireSameEngine .foreignOperand i input).bind fun _ => ?_
  exact (screens_handle input fun _ ht => ht.2).to_imp fun _ _ ht => ht.2.2

theorem refuses_of_screens {f : Action (Session σ) α}
    (hf : Screens (Asked s) f (fun _ _ => False) (Asked s)) : Refuses s f := by
  have hend := hf s (.refl s)
  cases hr : f s with
  | ok x t => rw [hr] at hend; exact hend.elim
  | error e t =>
    rw [hr] at hend
    obtain ⟨⟨r, rfl⟩, ht⟩ := hend
    exact ⟨r, t, hr, ht⟩

theorem Refuses.bind {f : Action (Session σ) α} {g : α → Action (Session σ) β}
    (h : Refuses s f) : Refuses s (f >>= g) :=
  let ⟨r, t, hr, ht⟩ := h
  ⟨r, t, bind_error hr, ht⟩

theorem Refuses.settled {R : Regime σ} (hs : Sound R {} s) {f : Action (Session σ) α}
    (h : Refuses s f) : Refuses s (settled f) := by
  obtain ⟨r, t, hr, ht⟩ := h
  have hsweep : sweep t = .ok ⟨⟩ t := sweep_of_held fun id hid =>
    (ht.alike.isHeld id).trans (hs.isHeld (ht.alike.keys ▸ hid))
  exact ⟨r, t, settled_error hr hsweep, ht⟩

theorem refuses_arithmetic (hs : Tended C W s) (hsound : Sound R {} s)
    (hdescribed : s.Describable) (h : s.Apart i j) (op : String) :
    Refuses s (arithmetic op i j) := by
  refine Refuses.settled hsound (Refuses.bind (refuses_of_screens ?_))
  refine (screens_shape hdescribed i).bind fun s => (screens_shape hdescribed j).bind fun s' =>
    .guard (fun _ ht => ht) ?_
  refine (screens_type hdescribed i).bind fun t => (screens_type hdescribed j).bind fun t' =>
    .guard (fun _ ht => ht) ?_
  exact (screens_outputsOf hs h op (List.mem_cons_of_mem i List.mem_cons_self) .empty).bind
    fun _ _ ht => ht.elim

theorem refuses_adopt (hs : Tended C W s) {S : ScopeId} {c : Scope σ} {a : Tensor σ}
    (hc : s.scopes.get? S = some c) (ha : s.arrays.get? i = some a) (h : c.engine ≠ a.engine) :
    Refuses s (adopt S i) := by
  have hid : c.engine.id ≠ a.engine.id := fun hid =>
    h (hs.unique _ (hs.scopes S c hc) _ (hs.arrays i a ha) hid)
  refine ⟨.foreignArray, s, ?_, .refl s⟩
  unfold adopt
  rw [bind_of_ok (scope_eq hc), bind_of_ok (array_eq ha), if_pos hid]
  rfl

theorem refuses_backward (hs : Tended C W s) (h : s.Apart i j) (retain training : Bool) :
    Refuses s (backward i (some j) retain training) :=
  Refuses.bind (f := requireSameEngine .foreignHeadGradient i j)
    (refuses_of_screens (screens_apart hs h .foreignHeadGradient))

theorem refuses_recorded {c : RecordingSection σ} {a : Tensor σ} (ha : s.arrays.get? i = some a)
    {seed : Option ArrayId} {retain : Bool}
    (h : c.engine.id = a.engine.id → Refuses s (backward i seed retain true)) :
    Refuses s (c.backward i seed retain) := by
  unfold RecordingSection.backward
  by_cases hid : c.engine.id = a.engine.id
  · obtain ⟨r, t, hr, ht⟩ := h hid
    refine ⟨r, t, ?_, ht⟩
    rw [bind_of_ok (array_eq ha), if_neg (not_not.2 hid)]
    exact hr
  · refine ⟨.foreignArray, s, ?_, .refl s⟩
    rw [bind_of_ok (array_eq ha), if_pos hid]
    rfl

theorem Mixes.refuses {e : Engine σ} {op : Operation} (hs : Tended C W s) (he : e.loaded ∈ W.roster)
    (hsound : Sound R {} s) (hdescribed : s.Describable) (h : s.Mixes e op) :
    Refuses s (op.perform e) := by
  cases h with
  | arithmetic op h => exact (refuses_arithmetic hs hsound hdescribed h op).bind
  | invoke op params hj h =>
    exact ((refuses_of_screens (screens_outputsOf hs h op hj params)).bind.settled hsound).bind
  | copyTo h =>
    exact (refuses_of_screens (screens_apart hs h .foreignDestination)).bind.settled hsound
  | adopt hc ha h => exact refuses_adopt hs hc ha h
  | backward retain training h => exact refuses_backward hs h retain training
  | recordedTarget seed retain ha h =>
    exact refuses_recorded ha fun hid => absurd (hs.unique _ he _ (hs.arrays _ _ ha) hid) h
  | recordedSeed retain h =>
    -- the target may be of the section's own engine, and only the seed of another
    obtain ⟨a, -, ha, -⟩ := id h
    exact refuses_recorded ha fun _ => refuses_backward hs h retain true

end Session

namespace Backends

variable {load : Foreign.Loader} {p : Program Backends}

theorem referenceLibrary_describes {b : Backends} {i gpus : Nat} {h : Handle}
    (hi : i < b.references.length) (hlive : h.id ∈ (b.reference i).entries.keys) :
    (∃ x, (referenceLibrary i gpus).shape h b = .ok x b) ∧
      ∃ x, (referenceLibrary i gpus).type h b = .ok x b := by
  obtain ⟨entry, hentry⟩ := (Table.mem_keys_iff _ _).1 hlive
  have hview : Reference.viewOf h (b.reference i) = .ok entry.view (b.reference i) := by
    unfold Reference.viewOf
    rw [bind_of_ok (a := Reference.entryOf h) (query_ok.2 ⟨by
      unfold Reference.State.entry
      rw [hentry], rfl⟩)]
    rfl
  have htell : ∀ {α : Type} (f : View → α),
      Action.zoom (fun b => Backends.reference b i)
        (fun s b => { b with references := b.references.set i s })
        (do return f (← Reference.viewOf h)) b = .ok (f entry.view) b := by
    intro α f
    unfold Action.zoom
    rw [bind_of_ok hview]
    exact congrArg _ (set_reference_self hi)
  exact ⟨⟨_, htell View.shape⟩, _, htell View.type⟩

theorem describable_reached
    (hp : ReflTransGen (Program.Next (openLibrary load)) (.start .initial) p) :
    p.session.Describable := by
  obtain ⟨W, -, hs⟩ := employs_reached hp
  intro id a h ha hh
  obtain ⟨i, gpus, e, hi, hlib, he⟩ := exists_entry hs ha hh
  rw [hlib]
  exact referenceLibrary_describes hi ((Table.mem_keys_iff _ _).2 ⟨e, he⟩)

end Backends

/-- Engines are kept apart. Whatever the libraries are that a program opens, and whether or not their
handles tell where they come from, each is given no handles but those that it brought itself. What
mixes reference engines, whose handles are all numbered from one, is refused before either is
changed. -/
theorem engines_isolated [HalfPrecision] :
    (∀ (σ : Type) (opener : Configuration → Action σ (Library σ)) (n : σ) (p : Program (Traced σ)),
      ReflTransGen (Program.Next (Traced.openLibrary opener)) (.start (.start n)) p →
        Returned p.session.native.calls) ∧
    ∀ (load : Foreign.Loader) (p : Program Backends),
      ReflTransGen (Program.Next (Backends.openLibrary load)) (.start .initial) p →
        ∀ e ∈ p.engines, ∀ op, p.session.Mixes e op → p.session.Refuses (op.perform e) := by
  refine ⟨fun σ opener n p hp => Traced.returned_reached hp, fun load p hp e he op hop => ?_⟩
  obtain ⟨W, hW, hs⟩ := Backends.employs_reached hp
  exact hop.refuses hs (hW.roster (List.mem_map_of_mem he)) (Backends.sound_reached hp)
    (Backends.describable_reached hp)

end

open Interchange

/-- Two engines, and arrays that own the first handle of each. -/
theorem engines_isolated_pair :
    let load : Foreign.Loader := fun _ => .ok []
    (∃ p : Program (Traced Backends),
      ReflTransGen (Program.Next (Traced.openLibrary (Backends.openLibrary load)))
        (.start (.start .initial)) p ∧
      (∃ r ∈ p.session.native.calls, r.call.passes ≠ []) ∧ Returned p.session.native.calls) ∧
    ∃ (p : Program Backends) (e : Engine Backends) (a b : Tensor Backends),
      ReflTransGen (Program.Next (Backends.openLibrary load)) (.start .initial) p ∧ e ∈ p.engines ∧
      p.session.arrays.get? 5 = some a ∧ p.session.arrays.get? 6 = some b ∧
      a.engine ≠ b.engine ∧ a.owned = ⟨⟨1⟩⟩ ∧ b.owned = ⟨⟨1⟩⟩ ∧
      p.session.Refuses ((Operation.arithmetic "elemwise_add" 5 6).perform e) := by
  intro load
  constructor
  · obtain ⟨p, hp, -, htest⟩ := Program.exists_reached
      (Traced.openLibrary (Backends.openLibrary load)) (.start .initial) (c := .standard) rfl
      [.create 2 ⟨[1]⟩ .f32, .arithmetic "elemwise_add" 5 5]
      (fun s => s.native.calls.any fun r => !r.call.passes.isEmpty) (by decide +kernel)
    obtain ⟨r, hr, hpasses⟩ := List.any_eq_true.1 htest
    exact ⟨p, hp, ⟨r, hr, by simpa using hpasses⟩, engines_isolated.1 _ _ _ _ hp⟩
  · obtain ⟨p, hp, hengines, htest⟩ := Program.exists_reached
      (Backends.openLibrary load) .initial (c := .standard) rfl
      [.create 2 ⟨[1]⟩ .f32, .create 4 ⟨[2]⟩ .i8]
      (fun s => (s.arrays.get? 5).any fun a : Tensor Backends =>
        (s.arrays.get? 6).any fun b : Tensor Backends =>
          decide (a.engine.id ≠ b.engine.id ∧ a.owned = ⟨⟨1⟩⟩ ∧ b.owned = ⟨⟨1⟩⟩))
      (by decide +kernel)
    obtain ⟨e, he⟩ := List.exists_mem_of_ne_nil _ hengines
    obtain ⟨a, ha, hboth⟩ := (Option.any_eq_true _ _).1 htest
    obtain ⟨b, hb, hone⟩ := (Option.any_eq_true _ _).1 hboth
    obtain ⟨hid, howned, howned'⟩ := of_decide_eq_true hone
    have hne : a.engine ≠ b.engine := fun h => hid (congrArg LoadedEngine.id h)
    exact ⟨p, e, a, b, hp, he, ha, hb, hne, howned, howned', engines_isolated.2 load p hp e he _
      (.arithmetic _ ⟨a, b, ha, hb, hne⟩)⟩

end ScopedTensor
