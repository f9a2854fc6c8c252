import ScopedTensor.Proofs.Knowledge.Answers
import ScopedTensor.Proofs.Operations.Work

/-! What is remembered of arrays. It is never forgotten, and it is what the engine would answer:
what a call was given is what it made, and what the engine answered once it answers for good. -/

namespace ScopedTensor

open ScopedTensor.Action Session Relation Library

variable {half : HalfPrecision}
variable {σ : Type}

theorem Trait.known_learn {lib : Library σ} {t : Trait} {h : Handle} {n m : σ} {x : Answer}
    (hx : (t.call h).perform lib n = .ok x m) (a : Tensor σ) (t' : Trait) :
    t'.known (a.learn x) = if t' = t then some x else t'.known a := by
  cases t <;> obtain ⟨y, u, -, hy⟩ := bind_ok.1 hx <;> cases hy <;> cases t' <;> rfl

namespace Session

variable {s t u : Session σ} {M : Mandate σ}

/-- From `s` to `t` arrays that are still there are remembered as they were, and better perhaps. -/
structure Recalls (s t : Session σ) : Prop where
  lastId : s.lastId ≤ t.lastId
  arrays : ∀ id b, t.arrays.get? id = some b → s.lastId < id ∨
    ∃ a, s.arrays.get? id = some a ∧ ∀ (k : Trait) x, k.known a = some x → k.known b = some x

theorem Recalls.refl (s : Session σ) : Recalls s s :=
  ⟨Nat.le_refl _, fun _ b hb => .inr ⟨b, hb, fun _ _ hx => hx⟩⟩

theorem Recalls.trans (h : Recalls s t) (hu : Recalls t u) : Recalls s u where
  lastId := Nat.le_trans h.lastId hu.lastId
  arrays id c hc := by
    rcases hu.arrays id c hc with hlt | ⟨b, hb, hbc⟩
    · exact .inl (Nat.lt_of_le_of_lt h.lastId hlt)
    · rcases h.arrays id b hb with hlt | ⟨a, ha, hab⟩
      · exact .inl hlt
      · exact .inr ⟨a, ha, fun k x hx => hbc k x (hab k x hx)⟩

theorem recalls_wrapped (s : Session σ) (e : LoadedEngine σ) (h : Handle)
    (known : Option Description) : Recalls s (s.wrapped e h known) where
  lastId := Nat.le_succ _
  arrays id b hb := by
    rcases Table.get?_insert_eq_some.1 hb with ⟨rfl, -⟩ | ⟨-, hb⟩
    · exact .inl (Nat.lt_succ_self _)
    · exact .inr ⟨b, hb, fun _ _ hx => hx⟩

theorem Move.recalls (h : Move M s t) : Recalls s t := by
  cases h with
  | tidied h =>
    refine ⟨h.lastId, fun id b hb => .inr ?_⟩
    obtain ⟨a, ha, hheir⟩ := h.arrays id b hb
    exact ⟨a, ha, fun k x hx => (hheir.known k).trans hx⟩
  | called => exact ⟨Nat.le_refl _, fun _ b hb => .inr ⟨b, hb, fun _ _ hx => hx⟩⟩
  | @learned id a ha he hopen t ht x n hx =>
    refine ⟨Nat.le_refl _, fun j b hb => .inr ?_⟩
    rcases Table.get?_modify_eq_some.1 hb with ⟨rfl, a', ha', rfl⟩ | ⟨-, hb⟩
    · obtain rfl : a' = a := Option.some.inj (ha'.symm.trans ha)
      refine ⟨a', ha', fun k y hy => ?_⟩
      rw [Trait.known_learn hx, if_neg ?_]
      · exact hy
      · rintro rfl
        exact absurd (ht.symm.trans hy) nofun
    · exact ⟨b, hb, fun _ _ hx => hx⟩
  | wrapped he h hknown => exact recalls_wrapped s _ h _

theorem recalls_of_moves (h : ReflTransGen (Move M) s t) : Recalls s t := by
  induction h with
  | refl => exact .refl s
  | tail _ h ih => exact ih.trans h.recalls

end Session

theorem Action.zoom_ok {τ α : Type} {get : τ → σ} {put : σ → τ → τ} {a : Action σ α} {t u : τ}
    {x : α} : a.zoom get put t = .ok x u ↔ ∃ s, a (get t) = .ok x s ∧ put s t = u := by
  unfold Action.zoom
  cases a (get t) with
  | ok y s =>
    exact ⟨fun h => by cases h; exact ⟨s, rfl, rfl⟩, fun ⟨_, h, hu⟩ => by cases h; exact hu ▸ rfl⟩
  | error e s => exact ⟨nofun, fun ⟨_, h, _⟩ => absurd h nofun⟩

namespace Backends

open Reference

variable {b b' c : Backends} {lib : Library Backends} {h : Handle} {t : Trait} {x : Answer}
variable {i gpus : Nat} {K : LoadedEngine Backends → Prop}

/-- From `b` to `b'` engines may have been opened, and none numbers two arrays alike. -/
structure Grows (b b' : Backends) : Prop where
  length : b.references.length ≤ b'.references.length
  numbers : ∀ i < b.references.length, (b.reference i).Numbers (b'.reference i)

theorem Grows.refl (b : Backends) : b.Grows b := ⟨Nat.le_refl _, fun _ _ => .refl _⟩

theorem Grows.trans (h : b.Grows b') (h' : b'.Grows c) : b.Grows c where
  length := Nat.le_trans h.length h'.length
  numbers i hi := (h.numbers i hi).trans (h'.numbers i (Nat.lt_of_lt_of_le hi h.length))

theorem step_referenceLibrary (i gpus : Nat) (c : Call) (b : Backends) :
    c.step (referenceLibrary i gpus) b =
      { b with references := b.references.set i (c.step (library gpus) (b.reference i)) } := by
  unfold Call.step
  rw [referenceLibrary, Library.perform_zoom]
  exact after_zoom _ _ _ _

theorem grows_step (i gpus : Nat) (c : Call) (b : Backends) :
    b.Grows (c.step (referenceLibrary i gpus) b) := by
  rw [step_referenceLibrary]
  refine ⟨Nat.le_of_eq (List.length_set ..).symm, fun j hj => ?_⟩
  by_cases hji : j = i
  · subst hji
    rw [reference_set_self hj]
    exact numbers_step gpus _ c
  · rw [reference_set_of_ne hji]
    exact .refl _

theorem grows_opened (b : Backends) :
    b.Grows { b with references := b.references ++ [.initial] } := by
  refine ⟨by simp, fun i hi => ?_⟩
  have hsame : Backends.reference { b with references := b.references ++ [.initial] } i =
      b.reference i := by
    unfold Backends.reference
    rw [List.getD_append _ _ _ _ hi]
  rw [hsame]
  exact .refl _

/-- The engine that the library stands in front of answers like this about the handle, if the handle
is live. -/
def Vouches [HalfPrecision] (b : Backends) (lib : Library Backends) (h : Handle) (t : Trait)
    (x : Answer) : Prop :=
  ∃ i gpus, i < b.references.length ∧ lib = referenceLibrary i gpus ∧ (b.reference i).Vouches h t x

theorem Vouches.grows (hv : b.Vouches lib h t x) (hb : b.Grows b') : b'.Vouches lib h t x :=
  let ⟨i, gpus, hi, hlib, hv⟩ := hv
  ⟨i, gpus, Nat.lt_of_lt_of_le hi hb.length, hlib, hv.numbers (hb.numbers i hi)⟩

def Numbered (b : Backends) : Prop := ∀ i < b.references.length, (b.reference i).Numbered

theorem vouches_of_call {α : Type} {a : Action State α} {y : α} (hi : i < b'.references.length)
    (hcall : a.zoom (fun b : Backends => b.reference i)
      (fun s b => { b with references := b.references.set i s }) b = .ok y b')
    (ha : ∀ s u, a s = .ok y u → u.Vouches h t x) : b'.Vouches (referenceLibrary i gpus) h t x := by
  obtain ⟨u, hu, rfl⟩ := zoom_ok.1 hcall
  refine ⟨i, gpus, hi, rfl, ?_⟩
  rw [reference_set_self (by simpa using hi)]
  exact ha _ u hu

def mandate [HalfPrecision] (b : Backends) (K : LoadedEngine Backends → Prop) :
    Mandate Backends where
  admits e := b.Fronts e.library ∧ K e
  asks _ := True
  fills := Shape.Sized
  others _ _ := trivial

theorem Fronts.step (hlib : b.Fronts lib) (c : Call) (b' : Backends) : b'.Grows (c.step lib b') := by
  obtain ⟨i, gpus, -, rfl⟩ := hlib
  exact grows_step i gpus c b'

theorem grows_of_reach (hlib : b.Fronts lib) (h : (b.mandate K).Reach lib b' c) : b'.Grows c := by
  induction h with
  | refl => exact .refl b'
  | tail _ hstep ih =>
    obtain ⟨call, -, rfl⟩ := hstep
    exact ih.trans (hlib.step call _)

theorem vouches_minted {e : LoadedEngine Backends} {d : Description} (he : b.Fronts e.library)
    (hc : b.Grows c) (hminted : (b.mandate K).Minted e d h c) (t : Trait) :
    c.Vouches e.library h t (d.answer t) := by
  obtain ⟨i, gpus, hi, hlib⟩ := he
  have hic := Nat.lt_of_lt_of_le hi hc.length
  cases hminted with
  | created hcreate =>
    rw [hlib] at hcreate ⊢
    exact vouches_of_call hic hcreate fun s u hu => vouches_create hu t
  | filled hstorage hshape hfill hh =>
    obtain ⟨k, m, -, hinvoke⟩ := bind_ok.1 hfill
    rw [hlib] at hinvoke ⊢
    exact vouches_of_call hic hinvoke fun s u hu => vouches_invoke hstorage hshape hu hh t

end Backends

namespace Session

open Backends

variable {s t : Session Backends} {b : Backends} {described : List ArrayId}
variable {K : LoadedEngine Backends → Prop}

/-- What is remembered of arrays that still have handles is what their engines answer, the arrays
apart that the program itself described. -/
def Faithful [HalfPrecision] (described : List ArrayId) (s : Session Backends) : Prop :=
  ∀ id a, s.arrays.get? id = some a → id ∉ described → a.owned.isReleased = false →
    ∀ t x, t.known a = some x → s.native.Vouches a.engine.library a.owned.handle t x

theorem Faithful.grows (hs : s.Faithful described) {n : Backends} (hn : s.native.Grows n) :
    Faithful described { s with native := n } :=
  fun id a ha hid hopen t x hx => (hs id a ha hid hopen t x hx).grows hn

theorem faithful_tidied {M : Mandate Backends} (h : s.Tidied M t) (hs : s.Faithful described) :
    t.Faithful described := by
  intro id b hb hid hopen k x hx
  obtain ⟨a, ha, hheir⟩ := h.arrays id b hb
  rcases hheir.owned with howned | hgone
  · rw [h.native, hheir.engine, howned]
    rw [howned] at hopen
    rw [hheir.known] at hx
    exact hs id a ha hid hopen k x hx
  · rw [hgone] at hopen
    exact absurd hopen nofun

theorem faithful_learned (hb : b.Numbered) (hgrown : b.Grows s.native) (hs : s.Faithful described)
    {id : ArrayId} {a : Tensor Backends} (ha : s.arrays.get? id = some a)
    (he : b.Fronts a.engine.library) {k : Trait} {x : Library.Answer} {n : Backends}
    (hx : (k.call a.owned.handle).perform a.engine.library s.native = .ok x n) :
    Faithful described { s with native := n, arrays := s.arrays.modify id (Tensor.learn x) } := by
  have hn : s.native.Grows n := after_ok hx ▸ he.step (k.call a.owned.handle) s.native
  obtain ⟨i, gpus, hi, hlib⟩ := he
  intro j b' hb' hj hopen k' y hy
  rcases Table.get?_modify_eq_some.1 hb' with ⟨rfl, a', ha', rfl⟩ | ⟨-, hb'⟩
  · obtain rfl : a' = a := Option.some.inj (ha'.symm.trans ha)
    rw [Tensor.owned_learn] at hopen ⊢
    rw [Tensor.engine_learn]
    rw [Trait.known_learn hx] at hy
    split at hy
    · obtain rfl : k' = k := ‹_›
      obtain rfl := Option.some.inj hy
      have hnumbered := (hgrown.numbers i hi).numbered (hb i hi)
      rw [hlib, referenceLibrary, Library.perform_zoom] at hx
      obtain ⟨u, hu, rfl⟩ := zoom_ok.1 hx
      have his := Nat.lt_of_lt_of_le hi hgrown.length
      refine ⟨i, gpus, by simpa using his, hlib, ?_⟩
      rw [reference_set_self his]
      exact Reference.vouches_asked hnumbered hu
    · exact (hs j a' ha hj hopen k' y hy).grows hn
  · exact (hs j b' hb' hj hopen k' y hy).grows hn

theorem faithful_wrapped {e : LoadedEngine Backends} {h : Handle} {known : Option Description}
    (hs : s.Faithful described)
    (hknown : ∀ d ∈ known, ∀ k, s.native.Vouches e.library h k (d.answer k)) :
    (s.wrapped e h known).Faithful described := by
  intro id a ha hid hopen k x hx
  rcases Table.get?_insert_eq_some.1 ha with ⟨-, rfl⟩ | ⟨-, ha⟩
  · rw [Trait.known_around] at hx
    obtain ⟨d, hd, rfl⟩ := Option.map_eq_some_iff.1 hx
    exact hknown d hd k
  · exact hs id a ha hid hopen k x hx

theorem Move.grows (hmove : Move (b.mandate K) s t) : s.native.Grows t.native := by
  cases hmove with
  | tidied h => exact h.native ▸ .refl _
  | called he h => exact grows_of_reach he.1 h
  | learned ha he hopen ht hx => exact after_ok hx ▸ he.1.step _ s.native
  | wrapped => exact .refl _

theorem Move.faithful (hmove : Move (b.mandate K) s t) (hb : b.Numbered) (hgrown : b.Grows s.native)
    (hs : s.Faithful described) : t.Faithful described := by
  have hgrows := hmove.grows
  cases hmove with
  | tidied h => exact faithful_tidied h hs
  | called => exact hs.grows hgrows
  | learned ha he hopen ht hx => exact faithful_learned hb hgrown hs ha he.1 hx
  | wrapped he h hknown =>
    exact faithful_wrapped hs fun d hd k => vouches_minted he.1 hgrown (hknown d hd) k

theorem Work.faithful (hwork : Work (s.native.mandate K) s t) (hb : s.native.Numbered)
    (hs : s.Faithful described) : s.native.Grows t.native ∧ t.Faithful described := by
  have hmoves : ∀ u, ReflTransGen (Move (s.native.mandate K)) s u →
      s.native.Grows u.native ∧ u.Faithful described := by
    intro u hu
    induction hu with
    | refl => exact ⟨.refl _, hs⟩
    | tail _ hmove ih => exact ⟨ih.1.trans hmove.grows, hmove.faithful hb ih.1 ih.2⟩
  exact hmoves t hwork.moves

end Session
end ScopedTensor
