import ScopedTensor.Proofs.Agreement.Operations

/-! Operations that go on with an array that they have just made: copies of another type, and
gradients, whose buffers are like the arrays that they are for. -/

namespace ScopedTensor

open ScopedTensor.Action Session Backends Relation

variable {half : HalfPrecision}
variable {gpus : Nat → Nat} {W : Watch Backends} {s t : Session Backends} {b : Backends}
variable {id : ArrayId} {a : Tensor Backends} {h : Handle} {i : Nat} {e : Reference.Entry}
variable {k : Trait} {x : Library.Answer} {K : LoadedEngine Backends → Prop}

theorem Action.Checks.ite {σ α : Type} {P : σ → Prop} {Q : α → σ → Prop} {c : Prop} [Decidable c]
    {f g : Action σ α} (hf : Checks P f Q) (hg : Checks P g Q) :
    Checks P (if c then f else g) Q := by
  split
  · exact hf
  · exact hg

namespace Session

theorem Knows.entered (hx : s.Knows id k x) (S : ScopeId) (j : ArrayId) :
    (s.entered S j).Knows id k x := by
  obtain ⟨a, ha, hx⟩ := hx
  by_cases hj : id = j
  · subst hj
    exact ⟨_, Table.get?_modify_eq_some.2 (.inl ⟨rfl, a, ha, rfl⟩), hx⟩
  · exact ⟨a, Table.get?_modify_eq_some.2 (.inr ⟨hj, ha⟩), hx⟩

theorem knows_joinScope {P : Session Backends → Prop} (id : ArrayId) (h : Handle) (d : Description)
    (k : Trait) :
    Checks P (joinScope id h (some d)) fun new t => t.Knows new k (d.answer k) := by
  refine (checks_array id).bind fun a => ?_
  refine Checks.bind (Q := fun new t => t.Knows new k (d.answer k)) (fun t _ => ?_) fun new => ?_
  · rw [wrap_eq]
    exact ⟨_, Table.get?_insert_eq_some.2 (.inl ⟨rfl, rfl⟩), Trait.known_around k a.engine h (some d)⟩
  · refine (checks_attach (fun _ S j ht => ht.entered S j) a.owner new).bind fun _ => ?_
    exact checks_pure fun _ ht => ht

theorem checks_sibling (id : ArrayId) (device : Device) (shape : Shape) (type : ElementType)
    (storage : Storage) :
    Checks (fun s => InStep gpus W s ∧
      ∀ a, s.arrays.get? id = some a → Lodges a.engine.library device)
      (sibling id device shape type storage)
      fun g t => t.Knows g .shape (.shape shape) ∧ InStep gpus W t := by
  have hmade : Checks (fun s => ∀ a, s.arrays.get? id = some a → Lodges a.engine.library device)
      (sibling id device shape type storage) fun g t => t.Knows g .shape (.shape shape) := by
    refine Checks.bind (Q := fun _ _ => True) (fun s hs => ?_) fun h =>
      knows_joinScope id h { Description.dense shape type device with storage } .shape
    refine (checks_array (P := (· = s)) id).bind (f := fun a => onNative _) ?_ s rfl
    intro a t ⟨ha, ht⟩
    rw [ht] at ha ⊢
    obtain ⟨i, n, hlib, hdevice⟩ := hs a ha
    have hcreated : Reference.create n device shape type storage (s.native.reference i) =
        .ok _ ((s.native.reference i).allocate shape type device storage).2 :=
      Reference.create_eq_ok.2 ⟨hdevice, rfl⟩
    have hcall : (referenceLibrary i n).create device shape type storage false s.native = _ :=
      inPlace_ok.2 ⟨_, hcreated, rfl⟩
    rw [hlib, onNative_ok hcall]
    trivial
  have hkeeps : Meets (InStep gpus W) (sibling id device shape type storage)
      (fun _ => InStep gpus W) (InStep gpus W) :=
    InStep.keeps (fun _ _ => works_sibling id device shape type storage)
    ((tended_sibling id device shape type storage).to_imp fun _ _ ht => ht.tended)
  exact (hmade.and_meets hkeeps).imp (fun _ hs => ⟨hs.2, hs.1⟩) fun _ _ ht => ht

theorem checks_copyAs (id : ArrayId) (device : Device) (shape : Shape) (type : ElementType)
    (storage : Storage) :
    Checks (fun s => InStep gpus W s ∧
      ∀ a, s.arrays.get? id = some a → Lodges a.engine.library device)
      (copyAs id device shape type storage) fun _ _ => True := by
  refine (checks_sibling id device shape type storage).bind fun target => ?_
  have hcopied : Checks (fun t => t.Knows target .shape (.shape shape) ∧ InStep gpus W t)
      (copyInto id target) fun _ _ => True :=
    (checks_copyInto id target).imp (fun _ ht => ht.2) fun _ _ ht => ht
  exact hcopied.bind fun _ => checks_pure fun _ _ => trivial

theorem Reads.lodged (ht : Reads gpus W s t) {d : Device}
    (hd : ∀ a, s.arrays.get? id = some a → Lodges a.engine.library d) :
    ∀ a, t.arrays.get? id = some a → Lodges a.engine.library d := by
  intro b hb
  obtain ⟨a, ha, hbare⟩ := ht.asked.alike.array hb
  exact Tensor.engine_of_bare hbare ▸ hd a ha

theorem checks_toType (id : ArrayId) (target : ElementType) (copy : Bool) :
    Checks (InStep gpus W) (toType id target copy) fun _ _ => True := by
  have hcopy : Checks (InStep gpus W) (do
      let d ← device id
      let s ← shape id
      copyAs id d s target (← storage id)) fun _ _ => True := by
    refine .of_state fun s hs => Checks.start ?_ hs.reads
    refine (reads_device hs id).bind_fact fun d hd => (reads_shape hs id).bind_fact fun y _ => ?_
    refine (reads_storage hs id).bind fun st => ?_
    exact (checks_copyAs id d y target st).imp (fun _ ht => ⟨ht.inStep, ht.lodged hd⟩)
      fun _ _ ht => ht
  refine checks_keeping (.ite ?_ hcopy)
  exact checks_type_bind id fun _ => .ite (checks_pure fun _ _ => trivial) hcopy

theorem Move.tells (h : Move (b.mandate K) s t) (hid : id ≤ s.lastId) (hx : s.Tells id k x) :
    t.Tells id k x := by
  have hgrows := h.grows
  cases h with
  | tidied h =>
    intro c hc hopen
    obtain ⟨a, ha, hheir⟩ := h.arrays id c hc
    rcases hheir.owned with howned | hgone
    · rw [hheir.engine, howned]
      exact (hx a ha (howned ▸ hopen)).grows hgrows
    · rw [hgone] at hopen
      exact absurd hopen nofun
  | called => exact fun a ha hopen => (hx a ha hopen).grows hgrows
  | learned =>
    intro c hc hopen
    rcases Table.get?_modify_eq_some.1 hc with ⟨rfl, a, ha, rfl⟩ | ⟨-, hc⟩
    · rw [Tensor.owned_learn] at hopen ⊢
      rw [Tensor.engine_learn]
      exact (hx a ha hopen).grows hgrows
    · exact (hx c hc hopen).grows hgrows
  | wrapped =>
    intro a ha hopen
    rcases Table.get?_insert_eq_some.1 ha with ⟨rfl, -⟩ | ⟨-, ha⟩
    · exact absurd hid (Nat.not_succ_le_self _)
    · exact hx a ha hopen

theorem Work.tells (h : Work (b.mandate K) s t) (hid : id ≤ s.lastId) (hx : s.Tells id k x) :
    t.Tells id k x := by
  have hmoves : ∀ u, ReflTransGen (Move (b.mandate K)) s u →
      s.lastId ≤ u.lastId ∧ u.Tells id k x := by
    intro u hu
    induction hu with
    | refl => exact ⟨Nat.le_refl _, hx⟩
    | tail hu hmove ih =>
      have hlast := (recalls_of_moves (hu.tail hmove)).lastId
      exact ⟨hlast, hmove.tells (Nat.le_trans hid ih.1) ih.2⟩
  exact (hmoves t h.moves).2

theorem Stands.tells (hst : Stands gpus s id h i e) (hnumbered : (s.native.reference i).Numbered)
    (k : Trait) : s.Tells id k (e.answer k) := by
  obtain ⟨a, ha, hh, hlib⟩ := hst.array
  intro a' ha' hopen
  obtain rfl : a' = a := Option.some.inj (ha'.symm.trans ha)
  obtain ⟨-, rfl⟩ := OwnedHandle.get_eq_ok.1 hh
  exact ⟨i, gpus i, hst.place, hlib, Reference.vouches_of_entry hnumbered hst.entry k⟩

theorem reads_gradientBuffer (hs : InStep gpus W s) (id : ArrayId) (storage : Option Storage) :
    Checks (Reads gpus W s) (gradientBuffer id storage) fun g t => ∃ y, id ∈ s.arrays.keys ∧
      s.Tells id .shape (.shape y) ∧ t.Tells g .shape (.shape y) := by
  unfold gradientBuffer
  cases storage.filter Storage.isSparse with
  | none =>
    have hmade : Checks (Reads gpus W s) (outputOf id Operator.zerosLike.name [id] .empty)
        fun g t => ∃ sig : Signature, (id ∈ s.arrays.keys ∧ s.Tells id .shape (.shape sig.shape)) ∧
          t.Tells g .shape (.shape sig.shape) := by
      refine reads_outputOf hs id fun i entries hentries => ?_
      obtain ⟨e, ⟨h, hst⟩, rfl⟩ := forall₂_singleton_left hentries
      obtain ⟨a, ha, -⟩ := hst.array
      have hnumbered := numbered_tended hs.tended i hst.place
      exact ⟨e.signature, rfl, (Table.mem_keys_iff _ _).2 ⟨a, ha⟩, hst.tells hnumbered .shape⟩
    exact hmade.imp (fun _ ht => ht) fun g t ⟨sig, ⟨hid, hy⟩, hg⟩ => ⟨sig.shape, hid, hy, hg⟩
  | some format =>
    refine (reads_device hs id).bind_fact fun d hd => ?_
    refine (Checks.of_map (reads_lookup hs .shape id)).bind fun y => .of_state fun t ⟨ht, hy⟩ => ?_
    have hid : id ∈ s.arrays.keys := ht.asked.alike.keys ▸ (Table.mem_keys_iff _ _).2
      (let ⟨a, ha, _⟩ := hy; ⟨a, ha⟩)
    refine ((reads_type hs id).bind fun z => ?_).start ht
    refine (checks_sibling id d y z format).imp (fun _ hu => ⟨hu.1.inStep, hu.1.lodged hd⟩)
      fun g u ⟨hknows, hu⟩ => ⟨y, hid, ht.tells hy, fun c hc hopen => ?_⟩
    obtain ⟨c', hc', hknown⟩ := hknows
    obtain rfl : c' = c := Option.some.inj (hc'.symm.trans hc)
    exact hu.faithful g c' hc List.not_mem_nil hopen .shape _ hknown

theorem meets_leads (hs : InStep gpus W s) {α : Type} {f : Action (Session Backends) α}
    (hworks : ∀ (M : Mandate Backends) s, Keeps (Work M s) f) :
    Meets (· = s) f (fun _ => Leads (FullyLoaded gpus) s) fun _ => True := by
  have hnumbered := numbered_tended hs.tended
  exact ((hworks _ s).start (leads_refl hs.tended hs.equipped).work).imp (fun _ ht => ht)
    (fun _ _ ht => ⟨hnumbered, ht⟩) fun _ _ => trivial

theorem checks_attachGrad (id : ArrayId) (request : GradRequest) (storage : Option Storage) :
    Checks (InStep gpus W) (attachGrad id request storage) fun _ _ => True := by
  refine checks_settled (.of_state fun s hs => ?_)
  have hbuffer := (reads_gradientBuffer hs id storage).start hs.reads
  have hkept := (meets_leads hs fun _ _ => works_gradientBuffer id storage).both
    ((tended_gradientBuffer id storage).start hs.tended)
  refine ((hbuffer.and_meets hkept).imp (fun _ ht => ⟨ht, ht, ht⟩) fun _ _ ht => ht).bind fun g => ?_
  refine .of_state fun t ⟨⟨y, hid, hy, hg⟩, hleads, engine, _, ht⟩ => ?_
  have hinStep := hs.leads hleads ht
  suffices hmarked : Checks (Reads gpus (W.pin [id, g] engine) t) _ fun _ _ => True from
    hmarked.start hinStep.reads
  refine (reads_handle hinStep id).bind_fact fun ah ⟨i, e, hst⟩ => ?_
  refine (reads_handle hinStep g).bind_fact fun gh ⟨j, d, hst'⟩ => ?_
  obtain ⟨a, ha, hh, hlib⟩ := hst.array
  obtain ⟨c, hc, -, hlib'⟩ := hst'.array
  have hengine : c.engine = a.engine :=
    (ht.engine_eq (by simp) hc).trans (ht.engine_eq (by simp) ha).symm
  obtain rfl := place_inj hst.place (hlib.symm.trans (hengine ▸ hlib'))
  have hsame : d.view.shape = e.view.shape := by
    have hkept := hleads.work.tells (hs.tended.bounded id hid) hy
    rw [hst'.shape_eq hg, hst.shape_eq hkept]
  obtain ⟨u, hu⟩ := Reference.markVariables_accepted hst.entry hst'.entry hsame request
  have hmark : (referenceLibrary j (gpus j)).markVariables [ah] [request] [gh] t.native = _ :=
    inPlace_ok.2 ⟨u, hu, rfl⟩
  refine (reads_callFor hst hmark).outcome_bind (fun _ => ?_) fun x hx => ?_
  · refine (checks_array id).bind fun b => (checks_modifyArray id _).bind fun _ => ?_
    cases b.gradient with
    | none => exact checks_pure fun _ _ => trivial
    | some earlier => exact checks_retire earlier
  · exact (checks_retire g).bind fun _ => checks_throw hx

theorem checks_gradient (id : ArrayId) : Checks (InStep gpus W) (gradient id) fun _ _ => True := by
  refine checks_keeping (.of_state fun s hs => Checks.start ?_ hs.reads)
  refine (reads_handle hs id).bind_fact fun h ⟨i, e, hst⟩ => ?_
  obtain ⟨g, u, hu⟩ := Reference.getGrad_accepted hst.entry
  have hasked : (referenceLibrary i (gpus i)).getGrad h s.native = _ := inPlace_ok.2 ⟨u, hu, rfl⟩
  refine Checks.bind (reads_callFor hst hasked) fun g => ?_
  cases g with
  | none => exact checks_throw (.invalid _)
  | some g => exact checks_joinScope id g none

end Session
end ScopedTensor
