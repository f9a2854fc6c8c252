import ScopedTensor.Proofs.Conversions.Copies
import ScopedTensor.Proofs.Rendering.Translations
import ScopedTensor.Proofs.Rendering.Views

/-! Arrays that are shown. The header line and the contents are those of the entry behind the array,
unless something else was said of the array when it was made around its handle. -/

namespace ScopedTensor

open ScopedTensor.Action Session Reference

variable {half : HalfPrecision}

section Sessions

variable {σ α β : Type} {lib : Library σ} {id : ArrayId} {h : Handle} {e : Entry} {k : Trait}
variable {s t : Session σ} {I : σ → Prop}

def Dump.header (shape : Shape) (device : Device) (type : ElementType) : String :=
  "ND: " ++ shape.text ++ " " ++ device.text ++ " " ++ type.name ++ "\n"

namespace Session

/-- The array has its handle, and whatever is remembered of it is what the entry says. -/
def Represents (s : Session σ) (lib : Library σ) (id : ArrayId) (h : Handle) (e : Entry) : Prop :=
  ∃ a, s.arrays.get? id = some a ∧ a.owned.get = .ok h ∧ a.engine.library = lib ∧
    ∀ (k : Trait) x, k.known a = some x → e.answer k = x

/-- At most questions were asked, and the engine answers what the entry says. -/
structure Asks (lib : Library σ) (id : ArrayId) (h : Handle) (e : Entry) (s t : Session σ) :
    Prop where
  asked : Asked s t
  represents : t.Represents lib id h e
  told : ∀ k : Trait, (k.call h).perform lib s.native = .ok (e.answer k) s.native

theorem note_learn (x : Library.Answer) : Note (Tensor.learn (σ := σ) x) where
  owned a := Tensor.owned_learn x a
  engine a := Tensor.engine_learn x a
  owner a := by cases x <;> rfl
  gradient a := by cases x <;> rfl

theorem asks_remembered {known : Tensor σ → Option α} {remember : α → Tensor σ → Tensor σ}
    {load : Library σ → Handle → Action σ α} {answer : α → Library.Answer} {y : α}
    (hknown : ∀ a, k.known a = (known a).map answer)
    (hremember : ∀ x, remember x = Tensor.learn (answer x))
    (hload : ∀ (lib : Library σ) h, (k.call h).perform lib = answer <$> load lib h)
    (hinj : Function.Injective answer) (hy : e.answer k = answer y) :
    Meets (Asks lib id h e s) (remembered known remember load id)
      (fun x t => x = y ∧ Asks lib id h e s t) fun _ => False := by
  intro t ht
  obtain ⟨a, ha, hh, rfl, htrue⟩ := ht.represents
  obtain ⟨hopen, rfl⟩ := OwnedHandle.get_eq_ok.1 hh
  cases hk : known a with
  | some x =>
    have hx : k.known a = some (answer x) := by rw [hknown, hk, Option.map_some]
    have hr : remembered known remember load id t = .ok x t := by
      refine (bind_of_ok (array_eq ha)).trans ?_
      rw [hk]
      rfl
    rw [hr]
    exact ⟨hinj ((htrue k _ hx).symm.trans hy), ht⟩
  | none =>
    have htold := ht.told k
    rw [hload, hy] at htold
    obtain ⟨x, n, hx, hpure⟩ := bind_ok.1 htold
    obtain ⟨hxy, rfl⟩ := EStateM.Result.ok.inj hpure
    obtain rfl := hinj hxy
    have hcall : callFor id (fun lib => load lib a.owned.handle) t = .ok x t := by
      refine (bind_of_ok (array_eq ha)).trans ((onNative_ok (n := t.native) ?_).trans rfl)
      rw [ht.asked.native]
      exact hx
    have hr : remembered known remember load id t =
        .ok x { t with arrays := t.arrays.modify id (Tensor.learn (answer x)) } := by
      refine (bind_of_ok (array_eq ha)).trans ?_
      rw [hk, ← hremember]
      exact (bind_of_ok (handle_eq ha hopen)).trans ((bind_of_ok hcall).trans rfl)
    rw [hr]
    refine ⟨rfl, ⟨ht.asked.native, ht.asked.alike.note id (note_learn _)⟩, ?_, ht.told⟩
    refine ⟨a.learn (answer x), Table.get?_modify_eq_some.2 (.inl ⟨rfl, a, ha, rfl⟩), ?_, ?_, ?_⟩
    · rw [Tensor.owned_learn]
      exact hh
    · rw [Tensor.engine_learn]
    · intro k' z hz
      -- What has just been learnt is true by the answer, and the rest was true before.
      have hanswer := ht.told k
      rw [hy] at hanswer
      rw [Trait.known_learn hanswer] at hz
      split at hz
      · obtain rfl : k' = k := ‹_›
        exact hy.trans (Option.some.inj hz)
      · exact htrue k' z hz

theorem asks_shape : Meets (Asks lib id h e s) (shape id)
    (fun y t => y = e.view.shape ∧ Asks lib id h e s t) fun _ => False :=
  asks_remembered (k := .shape) (fun _ => rfl) (fun _ => rfl) (fun _ _ => rfl)
    (fun _ _ => Library.Answer.shape.inj) rfl

theorem asks_type : Meets (Asks lib id h e s) (type id)
    (fun y t => y = e.view.type ∧ Asks lib id h e s t) fun _ => False :=
  asks_remembered (k := .type) (fun _ => rfl) (fun _ => rfl) (fun _ _ => rfl)
    (fun _ _ => Library.Answer.type.inj) rfl

theorem asks_device : Meets (Asks lib id h e s) (device id)
    (fun y t => y = e.device ∧ Asks lib id h e s t) fun _ => False :=
  asks_remembered (k := .device) (fun _ => rfl) (fun _ => rfl) (fun _ _ => rfl)
    (fun _ _ => Library.Answer.device.inj) rfl

theorem Represents.shown (hrep : s.Represents lib id h e)
    (htold : ∀ k : Trait, (k.call h).perform lib s.native = .ok (e.answer k) s.native)
    (hrank : e.view.shape.rank < Dump.maxRank) {text : String} {n : σ}
    (hlevel : Dump.level lib e.view.type e.view.shape.dims 0 h s.native = .ok text n) :
    ∃ t, dump id s = .ok (Dump.header e.view.shape e.device e.view.type ++ text) t ∧
      Alike s t ∧ t.native = n := by
  have hmeets : Meets (Asks lib id h e s) (dump id) (fun x t =>
      x = Dump.header e.view.shape e.device e.view.type ++ text ∧ Alike s t ∧ t.native = n)
      fun _ => False := by
    refine Meets.bind_told asks_shape (.bind_told asks_type (.bind_told asks_device ?_))
    rw [if_neg (Nat.not_le.2 hrank)]
    intro t ht
    obtain ⟨a, ha, hh, hlib, -⟩ := ht.represents
    obtain ⟨hopen, rfl⟩ := OwnedHandle.get_eq_ok.1 hh
    have hlevel' : Dump.level a.engine.library e.view.type e.view.shape.dims 0 a.owned.handle
        t.native = .ok text n := by
      rw [hlib, ht.asked.native]
      exact hlevel
    have hcall : callFor id (fun lib => Dump.level lib e.view.type e.view.shape.dims 0
        a.owned.handle) t = .ok text { t with native := n } :=
      (bind_of_ok (array_eq ha)).trans (onNative_ok hlevel')
    rw [bind_of_ok (handle_eq ha hopen), bind_of_ok hcall]
    exact ⟨rfl, ht.asked.alike.withNative n, rfl⟩
  obtain ⟨x, t, hr, rfl, ht⟩ := hmeets.ok ⟨.refl s, hrep, htold⟩
  exact ⟨t, hr, ht⟩

/-- Called on the library of the array, `f` keeps `I`. -/
def Steers (s : Session σ) (id : ArrayId) (I : σ → Prop) (f : Library σ → Action σ α) : Prop :=
  ∀ a, s.arrays.get? id = some a → Keeps I (f a.engine.library)

theorem Steers.callFor {f : Library σ → Action σ α} (hf : s.Steers id I f) :
    Keeps (fun t => Alike s t ∧ I t.native) (callFor id f) := by
  refine (meets_array id fun _ ht => ht).bind fun b => .zoom fun t ⟨hb, ht⟩ => ?_
  obtain ⟨a, ha, hbare⟩ := ht.1.array hb
  have hkept := hf a ha t.native ht.2
  rw [Tensor.engine_of_bare hbare] at hkept
  cases hr : f b.engine.library t.native with
  | ok x n | error x n =>
    rw [hr] at hkept
    exact ⟨ht.1.withNative n, hkept⟩

theorem kept_handle : Keeps (fun t => Alike s t ∧ I t.native) (handle id) :=
  (meets_handle id).to_imp fun _ _ ht => ht.2

theorem Steers.remembered {known : Tensor σ → Option α} {remember : α → Tensor σ → Tensor σ}
    {load : Library σ → Handle → Action σ α} {answer : α → Library.Answer}
    (hremember : ∀ x, remember x = Tensor.learn (answer x))
    (hload : ∀ (lib : Library σ) h, (k.call h).perform lib = answer <$> load lib h)
    (hk : ∀ h, s.Steers id I fun lib => (k.call h).perform lib) :
    Keeps (fun t => Alike s t ∧ I t.native) (remembered known remember load id) := by
  refine (meets_array id fun _ ht => ht).bind fun a => ?_
  cases known a with
  | some x => exact .pure fun _ ht => ht.2
  | none =>
    refine (kept_handle.of_imp fun _ ht => ht.2).bind fun h => ?_
    have hasked : s.Steers id I fun lib => load lib h := fun a ha => by
      have hkept : Keeps I ((k.call h).perform a.engine.library) := hk h a ha
      rw [hload] at hkept
      exact hkept.of_map
    refine hasked.callFor.bind fun x => ?_
    have hlearnt : Keeps (fun t => Alike s t ∧ I t.native) (modifyArray id (remember x)) := by
      rw [hremember]
      exact .modify fun _ ht => ⟨ht.1.note id (note_learn _), ht.2⟩
    exact hlearnt.bind fun _ => .pure fun _ ht => ht

end Session
end Sessions
end ScopedTensor
