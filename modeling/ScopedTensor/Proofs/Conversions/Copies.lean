import ScopedTensor.Proofs.Agreement.Verdicts
import ScopedTensor.Proofs.Conversions.Contents

/-! Arrays that are copied to another type. In every state that a program reaches an array that has
its handle can be copied, and the copy shows what the array does, narrowed to the new type. -/

namespace ScopedTensor

open ScopedTensor.Action Session Backends Relation

variable {half : HalfPrecision}
variable {gpus : Nat → Nat} {W : Watch Backends} {R : Regime Backends} {s t u : Session Backends}
variable {id new : ArrayId} {a b : Tensor Backends} {h g : Handle} {i : Nat} {e d : Reference.Entry}

theorem Action.Meets.bind_told {σ α β : Type} {P P' E : σ → Prop} {R : β → σ → Prop}
    {f : Action σ α} {k : α → Action σ β} {x : α} (hf : Meets P f (fun y s => y = x ∧ P' s) E)
    (hk : Meets P' (k x) R E) : Meets P (f >>= k) R E :=
  hf.bind fun _ s hs => hs.1.symm ▸ hk s hs.2

theorem Action.Meets.told_keeps {σ α : Type} {P I E : σ → Prop} {f : Action σ α} {x : α}
    (hf : Meets P f (fun y s => y = x ∧ P s) E) (hkeeps : Keeps I f) :
    Meets (fun s => P s ∧ I s) f (fun y s => y = x ∧ P s ∧ I s) E :=
  (hf.both hkeeps).imp (fun _ hs => hs) (fun _ _ hs => ⟨hs.1.1, hs.1.2, hs.2⟩) fun _ hs => hs.1

def Reference.Entry.fresh (e : Entry) (buffer : Nat) (type : ElementType) : Entry :=
  ⟨⟨buffer, 0, e.view.shape, type⟩, e.device, e.storage⟩

theorem Session.remembered_ok {σ α : Type} {s : Session σ} {a : Tensor σ}
    {known : Tensor σ → Option α} {remember : α → Tensor σ → Tensor σ}
    {load : Library σ → Handle → Action σ α} (ha : s.arrays.get? id = some a)
    (hh : a.owned.get = .ok h) (hload : ∃ x n, load a.engine.library h s.native = .ok x n) :
    ∃ x t, remembered known remember load id s = .ok x t := by
  obtain ⟨hopen, rfl⟩ := OwnedHandle.get_eq_ok.1 hh
  unfold remembered
  rw [bind_of_ok (array_eq ha)]
  cases known a with
  | some x => exact ⟨x, s, rfl⟩
  | none =>
    obtain ⟨x, n, hx⟩ := hload
    have hcall : callFor id (fun lib => load lib a.owned.handle) s = .ok x { s with native := n } :=
      (bind_of_ok (array_eq ha)).trans (onNative_ok hx)
    exact ⟨x, _, (bind_of_ok (handle_eq ha hopen)).trans ((bind_of_ok hcall).trans rfl)⟩

namespace Session

theorem Stands.lookup (hst : Stands gpus s id h i e) (hs : InStep gpus W s) (k : Trait) :
    Meets (Reads gpus W s) (k.lookup id) (fun x t => x = e.answer k ∧ Reads gpus W s t)
      fun _ => False := by
  intro t ht
  have hread := reads_lookup hs k id t ht
  obtain ⟨x, u, hr⟩ : ∃ x u, k.lookup id t = .ok x u := by
    obtain ⟨a, ha, hh, hlib⟩ := hst.array
    obtain ⟨b, hb, hbare⟩ := ht.asked.symm.alike.array ha
    rw [← Tensor.owned_of_bare hbare] at hh
    have hanswer : (k.call h).perform b.engine.library t.native = .ok (e.answer k) s.native := by
      rw [Tensor.engine_of_bare hbare, hlib, ht.asked.native]
      exact hst.perform k
    cases k with
    | shape | type | device | storage =>
      obtain ⟨y, n, hy, -⟩ := bind_ok.1 hanswer
      obtain ⟨z, u, hz⟩ := remembered_ok hb hh ⟨y, n, hy⟩
      exact ⟨_, u, bind_of_ok hz⟩
  rw [hr] at hread ⊢
  exact ⟨(hst.answer (hread.1.tells hread.2)).symm, hread.1⟩

theorem Stands.shape_told (hst : Stands gpus s id h i e) (hs : InStep gpus W s) :
    Meets (Reads gpus W s) (shape id) (fun y t => y = e.view.shape ∧ Reads gpus W s t)
      fun _ => False :=
  (Meets.of_map (hst.lookup hs .shape)).to_imp fun _ _ ht => ⟨Library.Answer.shape.inj ht.1, ht.2⟩

theorem Stands.type_told (hst : Stands gpus s id h i e) (hs : InStep gpus W s) :
    Meets (Reads gpus W s) (type id) (fun y t => y = e.view.type ∧ Reads gpus W s t)
      fun _ => False :=
  (Meets.of_map (hst.lookup hs .type)).to_imp fun _ _ ht => ⟨Library.Answer.type.inj ht.1, ht.2⟩

theorem Stands.device_told (hst : Stands gpus s id h i e) (hs : InStep gpus W s) :
    Meets (Reads gpus W s) (device id) (fun y t => y = e.device ∧ Reads gpus W s t)
      fun _ => False :=
  (Meets.of_map (hst.lookup hs .device)).to_imp fun _ _ ht =>
    ⟨Library.Answer.device.inj ht.1, ht.2⟩

theorem Stands.storage_told (hst : Stands gpus s id h i e) (hs : InStep gpus W s) :
    Meets (Reads gpus W s) (storage id) (fun y t => y = e.storage ∧ Reads gpus W s t)
      fun _ => False :=
  (Meets.of_map (hst.lookup hs .storage)).to_imp fun _ _ ht =>
    ⟨Library.Answer.storage.inj ht.1, ht.2⟩

theorem Stands.alike (hst : Stands gpus s id h i e) (ht : Alike s t)
    (hplace : t.native.references.length = s.native.references.length)
    (hentry : (t.native.reference i).entries.get? h.id = some e) : Stands gpus t id h i e where
  array := by
    obtain ⟨a, ha, hh, hlib⟩ := hst.array
    obtain ⟨b, hb, hbare⟩ := ht.symm.array ha
    exact ⟨b, hb, Tensor.owned_of_bare hbare ▸ hh, Tensor.engine_of_bare hbare ▸ hlib⟩
  place := hplace ▸ hst.place
  entry := hentry

theorem Stands.reads (hst : Stands gpus s id h i e) (ht : Reads gpus W s t) :
    Stands gpus t id h i e :=
  hst.alike ht.asked.alike (by rw [ht.asked.native]) (by rw [ht.asked.native]; exact hst.entry)

/-- From `s` to `t` a new array came in, beside the array `id` and around the handle `g`. -/
structure Accompanied [HalfPrecision] (gpus : Nat → Nat) (W : Watch Backends)
    (s t : Session Backends) (id : ArrayId) (h g : Handle) (i : Nat) (e d : Reference.Entry) :
    Prop where
  inStep : InStep gpus W t
  source : Stands gpus t id h i e
  target : Stands gpus t (s.lastId + 1) g i d
  together : t.Together id (s.lastId + 1)
  alike : ∃ a, s.arrays.get? id = some a ∧ Alike (s.joined a g) t

theorem Stands.sibling_eq (hst : Stands gpus s id h i e) (hs : InStep gpus W s)
    (hsound : Sound R {} s) (type : ElementType) :
    ∃ g d t, sibling id e.device e.view.shape type e.storage s = .ok (s.lastId + 1) t ∧
      (s.native.reference i).allocate e.view.shape type e.device e.storage =
        (g, t.native.reference i) ∧
      (t.native.reference i).entries.get? g.id = some d ∧ d.view.shape = e.view.shape ∧
      d.view.type = type ∧ Accompanied gpus W s t id h g i e d := by
  obtain ⟨a, ha, hh, hlib⟩ := hst.array
  let m := (s.native.reference i).allocate e.view.shape type e.device e.storage
  let b : Backends := { s.native with references := s.native.references.set i m.2 }
  have hcreate : Reference.create (gpus i) e.device e.view.shape type e.storage
      (s.native.reference i) = .ok m.1 m.2 :=
    Reference.create_eq_ok.2 ⟨hs.maintained.housed i _ _ hst.entry, rfl⟩
  have hcall : callFor id (fun lib => lib.create e.device e.view.shape type e.storage false) s =
      .ok m.1 { s with native := b } :=
    hst.callFor_eq (.refl s) (inPlace_ok.2 ⟨m.2, hcreate, rfl⟩)
  let known : Description := { Description.dense e.view.shape type e.device with storage := e.storage }
  have hjoin : joinScope id m.1 (some known) { s with native := b } = .ok (s.lastId + 1)
      ((wrapped { s with native := b } a.engine m.1 (some known)).placed a.owner (s.lastId + 1)) :=
    (bind_of_ok (array_eq (s := { s with native := b }) ha)).trans
      (wrap_attach_eq (s := { s with native := b }) (hsound.admits_owner ha) a.engine m.1 _)
  have hsibling : sibling id e.device e.view.shape type e.storage s = _ :=
    (bind_of_ok hcall).trans hjoin
  have hinStep : Meets (InStep gpus W) (sibling id e.device e.view.shape type e.storage)
      (fun _ => InStep gpus W) (InStep gpus W) :=
    InStep.keeps (fun _ _ => works_sibling id e.device e.view.shape type e.storage)
      ((tended_sibling id e.device e.view.shape type e.storage).to_imp fun _ _ ht => ht.tended)
  have hfresh := hsound.numbered.fresh_array
  have halike : Alike (s.joined a m.1) (placed (wrapped { s with native := b } a.engine m.1
      (some known)) a.owner (s.lastId + 1)) :=
    ((((Alike.refl s).withNative b).wrapped rfl hfresh a.engine m.1 none (some known)).placed _ _)
  have hnative : (placed (wrapped { s with native := b } a.engine m.1 (some known)) a.owner
      (s.lastId + 1)).native = b := native_placed _ _ _
  have hreference : b.reference i = m.2 := reference_set_self hst.place m.2
  have hplace : i < b.references.length := by simpa [b] using hst.place
  generalize placed _ _ _ = t at hsibling halike hnative
  have hne : id ≠ s.lastId + 1 := by
    rintro rfl
    exact absurd (hfresh.symm.trans ha) nofun
  have hold : (s.joined a m.1).arrays.get? id = some a := by
    rw [arrays_joined hfresh, Table.get?_insert, if_neg hne, ha]
  obtain ⟨a', ha', hbare⟩ := halike.symm.array hold
  have hlive : h.id ≤ (s.native.reference i).lastId :=
    numbered_tended hs.tended i hst.place _ _ hst.entry
  obtain ⟨c, hc, howned, hengine, -⟩ := halike.newest hfresh
  refine ⟨m.1, e.fresh (s.native.reference i).memory.buffers.length type, t, hsibling, ?_, ?_, rfl,
    rfl, ?_⟩
  · rw [hnative, hreference]
  · rw [hnative, hreference]
    exact Table.get?_insert_eq_some.2 (.inl ⟨rfl, rfl⟩)
  · refine ⟨hinStep.of_ok hs hsibling, ⟨⟨a', ha', ?_, ?_⟩, hnative ▸ hplace, ?_⟩,
      ⟨⟨c, hc, ?_, ?_⟩, hnative ▸ hplace, ?_⟩, ⟨a', c, ha', hc, ?_⟩, a, ha, halike⟩
    · exact Tensor.owned_of_bare hbare ▸ hh
    · exact Tensor.engine_of_bare hbare ▸ hlib
    · rw [hnative, hreference]
      exact Table.get?_insert_eq_some.2 (.inr ⟨Nat.ne_of_lt (Nat.lt_succ_of_le hlive), hst.entry⟩)
    · rw [howned]
      rfl
    · exact hengine ▸ hlib
    · rw [hnative, hreference]
      exact Table.get?_insert_eq_some.2 (.inl ⟨rfl, rfl⟩)
    · rw [hengine, Tensor.engine_of_bare hbare]

theorem requireSameEngine_eq {refusal : Refusal} (ht : s.Together id new) :
    requireSameEngine refusal id new s = .ok ⟨⟩ s := by
  obtain ⟨a, b, ha, hb, hengine⟩ := ht
  have hsame : sameEngine id new s = .ok true s :=
    (bind_of_ok (array_eq ha)).trans ((bind_of_ok (array_eq hb)).trans
      (congrArg (EStateM.Result.ok · s) (beq_iff_eq.2 hengine)))
  exact bind_of_ok hsame

theorem Stands.handle_told (hst : Stands gpus s id h i e) :
    Meets (Reads gpus W s) (handle id) (fun x t => x = h ∧ Reads gpus W s t) fun _ => False := by
  refine .of_state fun t ht => ?_
  obtain ⟨a, ha, hh, -⟩ := (hst.reads ht).array
  obtain ⟨hopen, rfl⟩ := OwnedHandle.get_eq_ok.1 hh
  exact .of_eq (handle_eq ha hopen) ⟨rfl, ht⟩

theorem Stands.copyInto (hsource : Stands gpus s id h i e) (htarget : Stands gpus s new g i d)
    (hs : InStep gpus W s) (htogether : s.Together id new) (hshape : d.view.shape = e.view.shape) :
    Meets (· = s) (copyInto id new) (fun _ t => Alike s t ∧ ∃ tape,
      t.native = { s.native with
        references := s.native.references.set i
          (.enqueue { s.native.reference i with tape } ⟨.copyTo, .empty, [e.view], [d.view]⟩) })
      fun _ => False := by
  obtain ⟨tape, hinvoke⟩ := Reference.invoke_copies (gpus i) hsource.entry htarget.entry
    (congrArg Shape.size hshape)
  have hasked : Meets (Reads gpus W s) (Session.copyInto id new) (fun _ t => Alike s t ∧ ∃ tape,
      t.native = { s.native with
        references := s.native.references.set i
          (.enqueue { s.native.reference i with tape } ⟨.copyTo, .empty, [e.view], [d.view]⟩) })
      fun _ => False := by
    refine Meets.bind (Q := fun _ => Reads gpus W s) (.of_state fun t ht => ?_) fun _ => ?_
    · exact .of_eq (requireSameEngine_eq (ht.asked.symm.alike.together htogether)) ht
    refine (hsource.shape_told hs).bind_told ((htarget.shape_told hs).bind_told ?_)
    rw [if_neg (not_not.2 hshape.symm)]
    refine htarget.handle_told.bind_told (hsource.handle_told.bind_told (.of_state fun t ht => ?_))
    obtain ⟨a, ha, -, hlib⟩ := (hsource.reads ht).array
    have hloaded := (ht.inStep.equipped.arrays id a ha).operators
    rw [← ht.asked.native] at hinvoke
    have hrun : run a.engine "_copyto" [h] (some [g]) .empty t = _ := run_eq hloaded hlib hinvoke
    refine .of_eq ((bind_of_ok (array_eq ha)).trans (bind_of_ok hrun)) ?_
    exact ⟨ht.asked.alike.withNative _, tape, by rw [ht.asked.native]⟩
  exact hasked.start hs.reads

theorem Stands.copyAs (hst : Stands gpus s id h i e) (hs : InStep gpus W s) (hsound : Sound R {} s)
    (type : ElementType) :
    ∃ g d t, copyAs id e.device e.view.shape type e.storage s = .ok (s.lastId + 1) t ∧
      (∃ a, s.arrays.get? id = some a ∧ Alike (s.joined a g) t) ∧
      Stands gpus t (s.lastId + 1) g i d ∧ d.view.shape = e.view.shape ∧ d.view.type = type ∧
      (t.native.reference i).contents d.view =
        ((s.native.reference i).contents e.view).map type.cast := by
  obtain ⟨g, d, t, hsibling, hmade, hentry, hshape, rfl, hbeside⟩ := hst.sibling_eq hs hsound type
  obtain ⟨⟨⟩, u, hcopied, halike, tape, hnative⟩ :=
    (hbeside.source.copyInto hbeside.target hbeside.inStep hbeside.together hshape).ok rfl
  obtain ⟨a, ha, hjoined⟩ := hbeside.alike
  have hplace := hbeside.source.place
  have hreference : u.native.reference i = Reference.State.enqueue
      { t.native.reference i with tape } ⟨.copyTo, .empty, [e.view], [d.view]⟩ :=
    hnative ▸ reference_set_self hplace _
  refine ⟨g, d, u, (bind_of_ok hsibling).trans ((bind_of_ok hcopied).trans rfl),
    ⟨a, ha, hjoined.trans halike⟩, ?_, hshape, rfl, ?_⟩
  · refine hbeside.target.alike halike ?_ ?_
    · rw [hnative]
      exact List.length_set
    · rw [hreference]
      exact hentry
  · obtain ⟨cs, hcs⟩ := hbeside.inStep.maintained i
    have hbounded : (t.native.reference i).Bounded := hcs ▸ Reference.bounded_run _ cs
    rw [hreference, Reference.contents_copyTo (hbeside.inStep.maintained.orderly i) hbounded
      hbeside.source.entry hentry (congrArg Shape.size hshape) tape]
    have hkept := Reference.contents_allocate (hs.maintained.orderly i) hst.entry e.view.shape
      d.view.type e.device e.storage
    rw [hmade] at hkept
    rw [hkept]

theorem isHeld_beside (hu : Sound R {} u)
    (ha : u.arrays.get? id = some a) (g : Handle) {j : ArrayId} (hj : j ∈ u.arrays.keys) :
    (u.joined a g).isHeld j = true := by
  have hfresh := hu.numbered.fresh_array
  cases ho : a.owner with
  | none =>
    unfold joined
    rw [ho]
    exact (isHeld_wrapped hfresh a.engine g none j).trans (hu.isHeld hj)
  | some S =>
    refine isHeld_joined hu ho (hu.admits_owner ha S ho) ?_
    rw [keys_joined hfresh]
    exact List.mem_append_left _ hj

theorem keeping_eq {σ : Type} {f : Action (Session σ) ArrayId} {s t : Session σ}
    (hf : f s = .ok new t) (hheld : ∀ j ∈ t.arrays.keys, j = new ∨ t.isHeld j = true) :
    keeping f s = .ok new { t with arrayHolds := new :: t.arrayHolds } := by
  refine settled_ok ((bind_of_ok hf).trans rfl) (sweep_of_held fun j hj => ?_)
  have hcons : ∀ ids : List ArrayId, (new :: ids).contains j = (j == new || ids.contains j) :=
    fun _ => List.contains_cons
  unfold Session.isHeld
  rw [hcons]
  rcases hheld j hj with rfl | hj
  · simp
  · unfold Session.isHeld at hj
    simp only [Bool.or_eq_true] at hj ⊢
    tauto

/-- `t` has the array `new`, which shows what the array behind `e` does, narrowed to the type. -/
structure Shown [HalfPrecision] (gpus : Nat → Nat) (s t : Session Backends) (i : Nat)
    (e : Reference.Entry) (target : ElementType) (new : ArrayId) (g : Handle)
    (d : Reference.Entry) : Prop where
  stands : Stands gpus t new g i d
  type : d.view.type = target
  shape : d.view.shape = e.view.shape
  contents : (t.native.reference i).contents d.view =
    ((s.native.reference i).contents e.view).map target.cast

theorem Stands.toType [LawfulHalfPrecision] (hst : Stands gpus s id h i e) (hs : InStep gpus W s)
    (hsound : Sound R {} s) (target : ElementType) (copy : Bool) :
    ∃ new t g d, Session.toType id target copy s = .ok new t ∧ InStep gpus W t ∧ Sound R {} t ∧
      Shown gpus s t i e target new g d := by
  have hcopied : Meets (fun t => Reads gpus W s t ∧ Sound R {} t) (do
      let d ← device id
      let y ← shape id
      Session.copyAs id d y target (← storage id))
      (fun new t => (∀ j ∈ t.arrays.keys, j = new ∨ t.isHeld j = true) ∧
        ∃ g d, Shown gpus s t i e target new g d) fun _ => False := by
    refine ((hst.device_told hs).told_keeps (keeps_device id)).bind_told ?_
    refine ((hst.shape_told hs).told_keeps (keeps_shape id)).bind_told ?_
    refine ((hst.storage_told hs).told_keeps (keeps_storage id)).bind_told ?_
    refine .of_state fun t ht => ?_
    obtain ⟨g, d, u, hu, ⟨a, ha, halike⟩, hstands, hshape, htype, hcontents⟩ :=
      (hst.reads ht.1).copyAs ht.1.inStep ht.2 target
    refine .of_eq hu ⟨fun j hj => ?_, g, d, hstands, htype, hshape, ?_⟩
    · rw [halike.keys, keys_joined ht.2.numbered.fresh_array] at hj
      rcases List.mem_append.1 hj with hj | hj
      · exact .inr ((halike.isHeld j).trans (isHeld_beside ht.2 ha g hj))
      · exact .inl (List.mem_singleton.1 hj)
    · rw [hcontents, ht.1.asked.native]
  have hmade : Meets (· = s) (do
      if !copy then
        if (← Session.type id) = target then return id
      let d ← device id
      let y ← shape id
      Session.copyAs id d y target (← storage id))
      (fun new t => (∀ j ∈ t.arrays.keys, j = new ∨ t.isHeld j = true) ∧
        ∃ g d, Shown gpus s t i e target new g d) fun _ => False := by
    refine Meets.start (P := fun t => Reads gpus W s t ∧ Sound R {} t) ?_ ⟨hs.reads, hsound⟩
    refine .ite (fun _ => ?_) fun _ => hcopied
    refine ((hst.type_told hs).told_keeps (keeps_type id)).bind_told ?_
    refine .ite (fun htype => .pure fun t ht => ?_) fun _ => hcopied
    refine ⟨fun j hj => .inr (ht.2.isHeld hj), h, e, hst.reads ht.1, htype, rfl, ?_⟩
    obtain ⟨cs, hcs⟩ := hs.maintained i
    have hbounded : (s.native.reference i).Bounded := hcs ▸ Reference.bounded_run _ cs
    have hnarrowed : (s.native.reference i).Narrowed := hcs ▸ Reference.narrowed_run _ cs
    rw [ht.1.asked.native, ← htype, hnarrowed.map_contents hbounded hst.entry]
  obtain ⟨new, t, hf, hheld, g, d, hshown⟩ := hmade.ok rfl
  have hkept := keeping_eq hf hheld
  have hinStep : Meets (InStep gpus W) (Session.toType id target copy) (fun _ => InStep gpus W)
      (InStep gpus W) :=
    InStep.keeps (fun _ _ => works_toType id target copy) (tended_toType id target copy)
  refine ⟨new, _, g, d, hkept, hinStep.of_ok hs hkept,
    (keeps_toType id target copy).of_ok hsound hkept,
    ⟨⟨hshown.stands.array, hshown.stands.place, hshown.stands.entry⟩, hshown.type, hshown.shape,
      hshown.contents⟩⟩

end Session
end ScopedTensor
