import ScopedTensor.Proofs.Isolation.References
import ScopedTensor.Proofs.Operations.Moves
import ScopedTensor.Proofs.Store.Handles

/-! What the reference engine answers about arrays. A handle stands for one array, and no other
array is ever numbered like it, so an answer that was given once is given for as long as there is
one. -/

namespace ScopedTensor

open ScopedTensor.Action Library

variable {half : HalfPrecision}

def Description.answer (d : Description) : Trait → Answer
  | .shape => .shape d.shape
  | .type => .type d.type
  | .device => .device d.device
  | .storage => .storage d.storage

theorem Trait.known_around {σ : Type} (t : Trait) (e : LoadedEngine σ) (h : Handle)
    (known : Option Description) :
    t.known (.around e h known) = known.map fun d => d.answer t := by
  cases known <;> cases t <;> rfl

namespace Reference

open State

variable {gpus : Nat} {s u : State} {h : Handle} {t : Trait} {x : Answer}

def Entry.answer (e : Entry) : Trait → Answer
  | .shape => .shape e.view.shape
  | .type => .type e.view.type
  | .device => .device e.device
  | .storage => .storage e.storage

theorem perform_trait (gpus : Nat) (t : Trait) {e : Entry} (he : s.entries.get? h.id = some e) :
    (t.call h).perform (library gpus) s = .ok (e.answer t) s := by
  have hentry : entryOf h s = .ok e s := query_ok.2 ⟨entry_eq_ok.2 he, rfl⟩
  have hview : viewOf h s = .ok e.view s := bind_of_ok hentry
  cases t with
  | shape => exact bind_of_ok (f := fun x => pure (Answer.shape x)) (bind_of_ok hview)
  | type => exact bind_of_ok (f := fun x => pure (Answer.type x)) (bind_of_ok hview)
  | device => exact bind_of_ok (f := fun x => pure (Answer.device x)) (bind_of_ok hentry)
  | storage => exact bind_of_ok (f := fun x => pure (Answer.storage x)) (bind_of_ok hentry)

theorem perform_trait_ok : (t.call h).perform (library gpus) s = .ok x u ↔
    ∃ e, s.entries.get? h.id = some e ∧ e.answer t = x ∧ s = u := by
  cases he : s.entries.get? h.id with
  | some e =>
    rw [perform_trait gpus t he, EStateM.Result.ok.injEq]
    exact ⟨fun hx => ⟨e, rfl, hx⟩, fun ⟨_, heq, hx⟩ => Option.some.inj heq ▸ hx⟩
  | none =>
    have hlookup : s.entry h = .error (.native "lookup" (.unknownArray h.id)) := by
      unfold State.entry
      rw [he]
    have hentry : entryOf h s = .error (.native "lookup" (.unknownArray h.id)) s :=
      query_error hlookup
    have hview : viewOf h s = .error (.native "lookup" (.unknownArray h.id)) s := bind_error hentry
    have hperform : (t.call h).perform (library gpus) s =
        .error (.native "lookup" (.unknownArray h.id)) s := by
      cases t with
      | shape => exact bind_error (f := fun x => pure (Answer.shape x)) (bind_error hview)
      | type => exact bind_error (f := fun x => pure (Answer.type x)) (bind_error hview)
      | device => exact bind_error (f := fun x => pure (Answer.device x)) (bind_error hentry)
      | storage => exact bind_error (f := fun x => pure (Answer.storage x)) (bind_error hentry)
    rw [hperform]
    exact ⟨nofun, fun ⟨_, heq, _⟩ => absurd heq nofun⟩

/-- The handle has been given out, and if it is live then this is the answer about it. -/
structure State.Vouches (s : State) (h : Handle) (t : Trait) (x : Answer) : Prop where
  given : h.id ≤ s.lastId
  told : ∀ e, s.entries.get? h.id = some e → e.answer t = x

theorem State.Vouches.numbers (hs : s.Vouches h t x) (hn : s.Numbers u) : u.Vouches h t x where
  given := Nat.le_trans hs.given hn.lastId
  told e he := by
    rcases hn.entries h.id e he with he | ⟨hlt, -⟩
    · exact hs.told e he
    · exact absurd hs.given (Nat.not_le.2 hlt)

theorem vouches_of_entry (hs : s.Numbered) {e : Entry} (he : s.entries.get? h.id = some e)
    (t : Trait) : s.Vouches h t (e.answer t) :=
  ⟨hs h.id e he, fun e' he' => by rw [Option.some.inj (he'.symm.trans he)]⟩

theorem vouches_asked (hs : s.Numbered) (hx : (t.call h).perform (library gpus) s = .ok x u) :
    u.Vouches h t x := by
  obtain ⟨e, he, rfl, rfl⟩ := perform_trait_ok.1 hx
  exact vouches_of_entry hs he t

theorem entries_allocate (s : State) (shape : Shape) (type : ElementType) (device : Device)
    (storage : Storage) : ∃ v : View, v.shape = shape ∧ v.type = type ∧
      (s.allocate shape type device storage).2.entries =
        s.entries.insert (s.lastId + 1) ⟨v, device, storage⟩ :=
  ⟨(s.memory.allocate shape type).1, rfl, rfl, rfl⟩

theorem vouches_allocate (s : State) (d : Description) (t : Trait) :
    (s.allocate d.shape d.type d.device d.storage).2.Vouches
      (s.allocate d.shape d.type d.device d.storage).1 t (d.answer t) := by
  obtain ⟨v, hshape, htype, hentries⟩ := entries_allocate s d.shape d.type d.device d.storage
  have hid : (s.allocate d.shape d.type d.device d.storage).1.id = s.lastId + 1 := rfl
  refine ⟨Nat.le_refl _, fun e he => ?_⟩
  rw [hentries, hid, Table.get?_insert, if_pos rfl] at he
  obtain rfl := Option.some.inj he
  cases t with
  | shape => exact congrArg _ hshape
  | type => exact congrArg _ htype
  | device | storage => rfl

theorem numbers_allocateAll (device : Device) (sigs : List Signature) :
    ∀ s : State, s.Numbers (allocateAll device sigs s).2 := by
  induction sigs with
  | nil => exact .refl
  | cons sig sigs ih =>
    intro s
    rw [allocateAll_cons]
    exact (s.evolves_allocate sig.shape sig.type device .dense).toNumbers.trans (ih _)

theorem vouches_allocateAll (d : Description) (hd : d.storage = .dense) {sigs : List Signature}
    (hsigs : ∀ sig ∈ sigs, sig = ⟨d.shape, d.type⟩) :
    ∀ s : State, ∀ o ∈ (allocateAll d.device sigs s).1, ∀ t,
      (allocateAll d.device sigs s).2.Vouches o.1 t (d.answer t) := by
  induction sigs with
  | nil => nofun
  | cons sig sigs ih =>
    intro s o ho t
    obtain rfl := hsigs sig List.mem_cons_self
    rw [allocateAll_cons] at ho ⊢
    rcases List.mem_cons.1 ho with rfl | ho
    · have hfirst := vouches_allocate s d t
      rw [hd] at hfirst
      exact hfirst.numbers (numbers_allocateAll d.device sigs _)
    · exact ih (fun sig hsig => hsigs sig (List.mem_cons_of_mem _ hsig)) _ o ho t

theorem vouches_create {d : Description} {h : Handle}
    (hcreate : create gpus d.device d.shape d.type d.storage s = .ok h u) (t : Trait) :
    u.Vouches h t (d.answer t) := by
  have hmade := Meets.of_ok (create_does d.device d.shape d.type d.storage s) rfl hcreate
  have hvouches := vouches_allocate s d t
  rwa [hmade] at hvouches

end Reference

/-- Lengths that a machine word holds. -/
def Shape.Sized (s : Shape) : Prop := ∀ d ∈ s.dims, d < wordSize

theorem Operator.dimsOf_eq {op : Operator} {shape : Shape} (hshape : shape.Sized) {dims : List Nat}
    (h : op.dimsOf (shape.dims.map fun (d : Nat) => Int.bmod d (Nat.pow 2 64)) = .ok dims) :
    dims = shape.dims := by
  have hall := mapM_eq_ok.1 h
  rw [List.forall₂_map_left_iff] at hall
  have heq : List.Forall₂ (· = ·) shape.dims dims := by
    refine ((List.forall₂_and_left _ _).2 ⟨hshape, hall⟩).imp fun d n ⟨hd, hn⟩ => ?_
    split at hn
    · exact absurd hn nofun
    · rename_i hsign
      obtain rfl := Except.ok.inj hn
      change d < 18446744073709551616 at hd
      change ¬ Int.bmod d 18446744073709551616 < 0 at hsign
      change d = (Int.bmod d 18446744073709551616).toNat
      rw [Int.bmod_def] at hsign ⊢
      omega
  exact (List.forall₂_eq_eq_eq ▸ heq : shape.dims = dims).symm

theorem Operator.infer_filling {op : Operator} {shape : Shape} (hshape : shape.Sized)
    {device : Device} {type : ElementType} {sigs : List Signature}
    (h : op.infer [] (.filling shape device type) = .ok sigs) :
    ∀ sig ∈ sigs, sig = ⟨shape, type⟩ := by
  have hfilled : ∀ op : Operator, op.filledSignature (.filling shape device type) = .ok sigs →
      ∀ sig ∈ sigs, sig = ⟨shape, type⟩ := by
    intro op h
    obtain ⟨entries, hentries, h⟩ := bind_eq_ok.1 h
    obtain ⟨dims, hdims, h⟩ := bind_eq_ok.1 h
    obtain rfl : shape.dims.map (fun (d : Nat) => Int.bmod d (Nat.pow 2 64)) = entries :=
      Except.ok.inj hentries
    obtain rfl := dimsOf_eq hshape hdims
    obtain rfl := Except.ok.inj h
    exact fun sig hsig => List.mem_singleton.1 hsig
  cases op with
  | zeros => exact hfilled zeros h
  | ones => exact hfilled ones h
  | _ => exact absurd h nofun

namespace Reference

open State

variable {gpus : Nat} {s u : State} {h : Handle} {t : Trait} {x : Answer}

theorem vouches_invoke [HalfPrecision] {d : Description} (hd : d.storage = .dense)
    (hshape : d.shape.Sized) {k : OpHandle} {hs : List Handle}
    (hfill : invoke .deferred gpus k [] none (.filling d.shape d.device d.type) s = .ok hs u)
    (hh : h ∈ hs) (t : Trait) : u.Vouches h t (d.answer t) := by
  obtain ⟨task, v, hin, rfl⟩ := (invoke_does s).of_ok rfl hfill
  obtain ⟨op, -, hsubmit⟩ := bind_eq_ok.1 hin
  obtain ⟨entries, sigs, outs, w, hentries, hsigs, houts, rfl, -, rfl⟩ := submit_eq_ok hsubmit
  obtain rfl : entries = [] := (pure_eq_ok.1 hentries).symm
  have hall := vouches_allocateAll d hd (Operator.infer_filling hshape hsigs) s
  have hmade : allocateAll d.device sigs s = (outs, w) := outputsOf_none_ok houts
  rw [hmade] at hall
  obtain ⟨o, ho, rfl⟩ := List.mem_map.1 hh
  exact (hall o ho t).numbers (.of_eq rfl rfl)

end Reference
end ScopedTensor
