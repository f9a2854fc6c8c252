import ScopedTensor.Proofs.Agreement.Acceptance
import ScopedTensor.Proofs.Agreement.Checks
import ScopedTensor.Proofs.Agreement.Reached
import ScopedTensor.Proofs.Isolation.Crossings
import ScopedTensor.Proofs.Knowledge.Fidelity

/-! What an operation reads before it calls an engine, and calls that cannot fail then. An array
that has its handle stands for an entry of its engine, and what the array is remembered as is what
the entry says. -/

namespace ScopedTensor

open ScopedTensor.Action Session Backends Relation

variable {half : HalfPrecision}
variable {α β : Type} {gpus : Nat → Nat} {W W' : Watch Backends} {s t u : Session Backends}
variable {id j : ArrayId} {a b : Tensor Backends} {h : Handle} {i : Nat} {e : Reference.Entry}
variable {k : Trait} {x : Library.Answer}

namespace Session

/-- While the array has its handle its engine answers this about it. -/
def Tells [HalfPrecision] (s : Session Backends) (id : ArrayId) (k : Trait) (x : Library.Answer) :
    Prop :=
  ∀ a, s.arrays.get? id = some a → a.owned.isReleased = false →
    s.native.Vouches a.engine.library a.owned.handle k x

def Knows {σ : Type} (s : Session σ) (id : ArrayId) (k : Trait) (x : Library.Answer) : Prop :=
  ∃ a, s.arrays.get? id = some a ∧ k.known a = some x

/-- The array has a handle, and this is the entry under it in the `i`th engine. -/
structure Stands [HalfPrecision] (gpus : Nat → Nat) (s : Session Backends) (id : ArrayId)
    (h : Handle) (i : Nat) (e : Reference.Entry) : Prop where
  array : ∃ a, s.arrays.get? id = some a ∧ a.owned.get = .ok h ∧
    a.engine.library = referenceLibrary i (gpus i)
  place : i < s.native.references.length
  entry : (s.native.reference i).entries.get? h.id = some e

theorem Stands.answer (hst : Stands gpus s id h i e) (hx : s.Tells id k x) : e.answer k = x := by
  obtain ⟨a, ha, hh, hlib⟩ := hst.array
  obtain ⟨hopen, rfl⟩ := OwnedHandle.get_eq_ok.1 hh
  obtain ⟨j, gpus', hj, hlib', hv⟩ := hx a ha hopen
  obtain rfl := place_inj hst.place (hlib.symm.trans hlib')
  exact hv.told e hst.entry

theorem Stands.shape_eq (hst : Stands gpus s id h i e) {y : Shape}
    (hy : s.Tells id .shape (.shape y)) : e.view.shape = y :=
  Library.Answer.shape.inj (hst.answer hy)

theorem Stands.type_eq (hst : Stands gpus s id h i e) {y : ElementType}
    (hy : s.Tells id .type (.type y)) : e.view.type = y :=
  Library.Answer.type.inj (hst.answer hy)

theorem Stands.perform (hst : Stands gpus s id h i e) (k : Trait) :
    (k.call h).perform (referenceLibrary i (gpus i)) s.native = .ok (e.answer k) s.native := by
  rw [referenceLibrary, Library.perform_zoom]
  exact zoom_ok.2 ⟨_, Reference.perform_trait _ k hst.entry, set_reference_self hst.place⟩

theorem Stands.unique {h' : Handle} {i' : Nat} {e' : Reference.Entry}
    (hst : Stands gpus s id h i e) (hst' : Stands gpus s id h' i' e') : h' = h ∧ i' = i ∧ e' = e := by
  obtain ⟨a, ha, hh, hlib⟩ := hst.array
  obtain ⟨a', ha', hh', hlib'⟩ := hst'.array
  obtain rfl : a' = a := Option.some.inj (ha'.symm.trans ha)
  obtain rfl : h' = h := Except.ok.inj (hh'.symm.trans hh)
  obtain rfl := place_inj hst.place (hlib.symm.trans hlib')
  exact ⟨rfl, rfl, Option.some.inj (hst'.entry.symm.trans hst.entry)⟩

theorem InStep.stands (hs : InStep gpus W s) (ha : s.arrays.get? id = some a)
    (hh : a.owned.get = .ok h) : ∃ i e, Stands gpus s id h i e := by
  obtain ⟨i, hlib⟩ := (hs.equipped.arrays id a ha).library
  obtain ⟨j, gpus', e, hj, hlib', he⟩ := exists_entry hs.tended ha hh
  obtain rfl := place_inj hj (hlib'.symm.trans hlib)
  exact ⟨i, e, ⟨a, ha, hh, hlib⟩, hj, he⟩

theorem Asked.symm (h : Asked s t) : Asked t s := ⟨h.native.symm, h.alike.symm⟩

theorem Tells.asked (h : Asked s t) (hx : t.Tells id k x) : s.Tells id k x := by
  intro a ha hopen
  obtain ⟨b, hb, hbare⟩ := h.symm.alike.array ha
  rw [← Tensor.engine_of_bare hbare, ← Tensor.owned_of_bare hbare, ← h.native]
  exact hx b hb (Tensor.owned_of_bare hbare ▸ hopen)

/-- Since `s` at most questions were asked, and the session is in step with its engines. -/
structure Reads [HalfPrecision] (gpus : Nat → Nat) (W : Watch Backends) (s t : Session Backends) :
    Prop where
  asked : Asked s t
  inStep : InStep gpus W t

theorem InStep.reads (hs : InStep gpus W s) : Reads gpus W s s := ⟨.refl s, hs⟩

theorem Reads.tells (ht : Reads gpus W s t) (hx : t.Knows id k x) : s.Tells id k x := by
  refine Tells.asked ht.asked fun a ha hopen => ?_
  obtain ⟨b, hb, hx⟩ := hx
  obtain rfl : b = a := Option.some.inj (hb.symm.trans ha)
  exact ht.inStep.faithful id b ha List.not_mem_nil hopen k x hx

theorem Reads.lodges (ht : Reads gpus W s t) {d : Device} (hd : t.Knows id .device (.device d))
    (ha : s.arrays.get? id = some a) : Lodges a.engine.library d := by
  obtain ⟨b, hb, hd⟩ := hd
  obtain ⟨a', ha', hbare⟩ := ht.asked.alike.array hb
  obtain rfl : a' = a := Option.some.inj (ha'.symm.trans ha)
  rw [Tensor.engine_of_bare hbare]
  exact ht.inStep.lodged id b d hb hd

theorem InStep.keeps {f : Action (Session Backends) α}
    (hworks : ∀ (M : Mandate Backends) s, Keeps (Work M s) f)
    (htended : Keeps (Tended custody W) f) : Keeps (InStep gpus W) f := by
  refine .of_after fun s hs => ?_
  have hleads := leads_after hs.tended hs.equipped (hworks _ s)
  exact hs.leads hleads (htended.after hs.tended)

theorem works_lookup {σ : Type} {M : Mandate σ} {s : Session σ} (k : Trait) (id : ArrayId) :
    Keeps (Work M s) (k.lookup id) := by
  cases k with
  | shape => exact .map (works_shape id)
  | type => exact .map (works_type id)
  | device => exact .map (works_device id)
  | storage => exact .map (works_storage id)

theorem asked_lookup (hs : InStep gpus W s) (k : Trait) (id : ArrayId) :
    Screens (Asked s) (k.lookup id) (fun _ => Asked s) (Asked s) := by
  have hasked : ∀ {γ : Type} {known : Tensor Backends → Option γ}
      {remember : γ → Tensor Backends → Tensor Backends}
      {load : Library Backends → Handle → Action Backends γ} {answer : γ → Library.Answer},
      (∀ x, Note (remember x)) →
      (∀ (lib : Library Backends) h, (k.call h).perform lib = answer <$> load lib h) →
      Screens (Asked s) (answer <$> remembered known remember load id) (fun _ => Asked s)
        (Asked s) := by
    intro γ known remember load answer hnote hcall
    refine (screens_remembered hnote (fun id a h ha hh => ?_) id).bind fun _ _ ht => ht
    obtain ⟨i, e, hst⟩ := hs.stands ha hh
    obtain ⟨a', ha', -, hlib⟩ := hst.array
    obtain rfl : a' = a := Option.some.inj (ha'.symm.trans ha)
    have hperform := hst.perform k
    rw [← hlib, hcall] at hperform
    obtain ⟨x, n, hx, hpure⟩ := bind_ok.1 hperform
    obtain ⟨-, rfl⟩ := EStateM.Result.ok.inj hpure
    exact ⟨x, hx⟩
  cases k with
  | shape | type | device | storage =>
    exact hasked (fun _ => ⟨fun _ => rfl, fun _ => rfl, fun _ => rfl, fun _ => rfl⟩) fun _ _ => rfl

theorem reads_lookup (hs : InStep gpus W s) (k : Trait) (id : ArrayId) :
    Checks (Reads gpus W s) (k.lookup id) fun x t => Reads gpus W s t ∧ t.Knows id k x := by
  intro t ht
  have hasked := asked_lookup hs k id t ht.asked
  have hinStep : Keeps (InStep gpus W) (k.lookup id) :=
    InStep.keeps (fun _ _ => works_lookup k id) (tended_lookup k id)
  have hkept := hinStep t ht.inStep
  cases hr : k.lookup id t with
  | ok x u =>
    rw [hr] at hasked hkept
    exact ⟨⟨hasked, hkept⟩, (lookup_told hr).array⟩
  | error e u =>
    rw [hr] at hasked
    obtain ⟨⟨r, rfl⟩, -⟩ := hasked
    exact .invalid r

theorem reads_shape (hs : InStep gpus W s) (id : ArrayId) :
    Checks (Reads gpus W s) (shape id)
      fun y t => Reads gpus W s t ∧ s.Tells id .shape (.shape y) :=
  (Checks.of_map (reads_lookup hs .shape id)).imp (fun _ ht => ht) fun _ _ ht => ⟨ht.1, ht.1.tells ht.2⟩

theorem reads_type (hs : InStep gpus W s) (id : ArrayId) :
    Checks (Reads gpus W s) (type id) fun y t => Reads gpus W s t ∧ s.Tells id .type (.type y) :=
  (Checks.of_map (reads_lookup hs .type id)).imp (fun _ ht => ht) fun _ _ ht => ⟨ht.1, ht.1.tells ht.2⟩

theorem reads_device (hs : InStep gpus W s) (id : ArrayId) :
    Checks (Reads gpus W s) (device id) fun d t => Reads gpus W s t ∧
      ∀ a, s.arrays.get? id = some a → Lodges a.engine.library d :=
  (Checks.of_map (reads_lookup hs .device id)).imp (fun _ ht => ht)
    fun _ _ ht => ⟨ht.1, fun _ ha => ht.1.lodges ht.2 ha⟩

theorem reads_storage (hs : InStep gpus W s) (id : ArrayId) :
    Checks (Reads gpus W s) (storage id) fun _ => Reads gpus W s :=
  (Checks.of_map (reads_lookup hs .storage id)).imp (fun _ ht => ht) fun _ _ ht => ht.1

theorem reads_size (hs : InStep gpus W s) (id : ArrayId) :
    Checks (Reads gpus W s) (size id)
      fun n t => Reads gpus W s t ∧ ∃ y : Shape, n = y.size ∧ s.Tells id .shape (.shape y) :=
  (reads_shape hs id).bind fun y => checks_pure fun _ ht => ⟨ht.1, y, rfl, ht.2⟩

theorem reads_array (id : ArrayId) :
    Checks (Reads gpus W s) (array id) fun b t => Reads gpus W s t ∧
      ∃ a, s.arrays.get? id = some a ∧ a.engine = b.engine := by
  refine (checks_array id).imp (fun _ ht => ht) fun b t ⟨hb, ht⟩ => ⟨ht, ?_⟩
  obtain ⟨a, ha, hbare⟩ := ht.asked.alike.array hb
  exact ⟨a, ha, Tensor.engine_of_bare hbare⟩

theorem reads_handle (hs : InStep gpus W s) (id : ArrayId) :
    Checks (Reads gpus W s) (handle id)
      fun h t => Reads gpus W s t ∧ ∃ i e, Stands gpus s id h i e := by
  refine (checks_handle id).imp (fun _ ht => ht) fun h t ⟨⟨b, hb, hh⟩, ht⟩ => ⟨ht, ?_⟩
  obtain ⟨a, ha, hbare⟩ := ht.asked.alike.array hb
  exact hs.stands ha (Tensor.owned_of_bare hbare ▸ hh)

theorem reads_requireSameEngine (refusal : Refusal) (i j : ArrayId) :
    Checks (Reads gpus W s) (requireSameEngine refusal i j)
      fun _ t => Reads gpus W s t ∧ s.Together i j :=
  (screens_requireSameEngine refusal i j).checks.imp (fun _ ht => ht)
    fun _ _ ht => ⟨ht.2, ht.2.asked.alike.together ht.1⟩

theorem Stands.callFor_eq (hst : Stands gpus s id h i e) (ht : Asked s t)
    {f : Library Backends → Action Backends α} {y : α} {n : Backends}
    (hf : f (referenceLibrary i (gpus i)) s.native = .ok y n) :
    callFor id f t = .ok y { t with native := n } := by
  obtain ⟨a, ha, -, hlib⟩ := hst.array
  obtain ⟨b, hb, hbare⟩ := ht.symm.alike.array ha
  have hcall : f b.engine.library t.native = .ok y n := by
    rw [Tensor.engine_of_bare hbare, hlib, ht.native]
    exact hf
  exact (bind_of_ok (array_eq hb)).trans (onNative_ok hcall)

theorem reads_callFor (hst : Stands gpus s id h i e) {f : Library Backends → Action Backends α}
    {y : α} {n : Backends} (hf : f (referenceLibrary i (gpus i)) s.native = .ok y n) :
    Checks (Reads gpus W s) (callFor id f) fun _ _ => True := by
  intro t ht
  rw [hst.callFor_eq ht.asked hf]
  trivial

end Session
end ScopedTensor
