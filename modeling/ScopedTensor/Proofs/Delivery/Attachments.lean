import ScopedTensor.Proofs.Delivery.Marks

/-! Gradients that are attached. The buffer that is made for a gradient shows elements that nothing
else has shown, so gradients go to different buffers in every session that can be reached. -/

namespace ScopedTensor

open ScopedTensor.Action

variable {half : HalfPrecision}

section Arrays

variable {σ : Type} {E : Session σ → Prop}

namespace Session

/-- The arrays `ids` have handles among `hs`, those that still have one. -/
def Holding (hs : List Handle) (ids : List ArrayId) (s : Session σ) : Prop :=
  ∀ id ∈ ids, ∀ a h, s.arrays.get? id = some a → a.owned.get = .ok h → h ∈ hs

variable {hs : List Handle} {ids : List ArrayId} {h : Handle}

theorem get_released {r : OwnedHandle} (h : r.isReleased = true) : ∀ x, r.get ≠ .ok x := by
  intro x hx
  unfold OwnedHandle.get at hx
  rw [if_pos h] at hx
  exact absurd hx nofun

theorem holding_modifyArray (id : ArrayId) {f : Tensor σ → Tensor σ}
    (hf : ∀ a h, (f a).owned.get = .ok h → a.owned.get = .ok h) :
    Meets (Holding hs ids) (modifyArray id f) (fun _ => Holding hs ids) E :=
  .modify fun s hs j hj b x hb hx => by
    rcases Table.get?_modify_eq_some.1 hb with ⟨-, a, ha, rfl⟩ | ⟨-, hb⟩
    · exact hs j hj a x ha (hf a x hx)
    · exact hs j hj b x hb hx

theorem meets_wrap_holding (engine : LoadedEngine σ) (hh : h ∈ hs) (known : Option Description) :
    Meets (Holding hs ids) (wrap engine h known) (fun id => Holding hs (id :: ids)) E := by
  intro s hold j hj b x hb hx
  rcases Table.get?_insert_eq_some.1 hb with ⟨-, rfl⟩ | ⟨hne, hb⟩
  · simp only [OwnedHandle.get] at hx
    split at hx
    · cases hx
    · exact Except.ok.inj hx ▸ hh
  · exact hold j ((List.mem_cons.1 hj).resolve_left hne) b x hb hx

theorem holding_attach (owner : Option ScopeId) (id : ArrayId) :
    Keeps (Holding (σ := σ) hs ids) (attach owner id) := by
  cases owner with
  | none => exact .pure fun _ hs => hs
  | some S =>
    refine (meets_scope S fun _ hs => hs).bind fun c => .guard (fun _ hs => hs.2) fun _ => ?_
    refine .modify_bind (I := Holding hs ids) (fun s hs => hs.2) ?_
    exact holding_modifyArray id fun _ _ hx => hx

theorem holding_release (id : ArrayId) : Keeps (Holding (σ := σ) hs ids) (release id) := by
  refine .get_bind fun t ht => ?_
  split
  · exact .done ht
  · rename_i a ha
    have hgone : ∀ n r m, a.owned.release a.engine.library n = .ok r m → r.2.isReleased = true := by
      intro n r m hr
      unfold OwnedHandle.release at hr
      split at hr
      · rename_i hreleased
        injection hr with hr
        exact hr ▸ hreleased
      · obtain ⟨-, k, -, hr⟩ := bind_ok.1 hr
        injection hr with hr
        exact hr ▸ rfl
    have hnative : Meets (· = t) (onNative (a.owned.release a.engine.library))
        (fun r s => Holding hs ids s ∧ r.2.isReleased = true) (Holding hs ids) := by
      refine .zoom fun s hs => ?_
      subst hs
      cases hr : a.owned.release a.engine.library s.native with
      | ok r n => exact ⟨ht, hgone _ r n hr⟩
      | error e n => exact ht
    refine hnative.bind fun r => .of_state fun s ⟨hs, hr⟩ => ?_
    exact (holding_modifyArray id fun _ x hx => absurd hx (get_released hr x)).start hs

theorem holding_letGo (id : ArrayId) : Keeps (Holding (σ := σ) hs ids) (letGo id) := by
  refine .get_bind fun t ht => .ite (fun _ => ?_) fun _ => .done ht
  refine ((holding_release id).start ht).bind fun _ => .modify fun s hs j hj b x hb hx => ?_
  exact hs j hj b x (Table.get?_erase_eq_some.1 hb).2 hx

theorem meets_wrapAll_holding (engine : LoadedEngine σ) (owner : Option ScopeId)
    (known : Option Description) (handles : List Handle) :
    Meets (fun _ => True) (wrapAll engine owner known handles)
      (fun ids => Holding handles ids) (fun _ : Session σ => True) := by
  have hwrap := Meets.mapM (f := fun h => wrap engine h known)
    (I := fun left ids s => left ⊆ handles ∧ Holding handles ids s)
    (E := fun _ : Session σ => True) ?_ handles []
  · refine (hwrap.of_imp fun s _ => ⟨List.Subset.refl _, by simp [Holding]⟩).bind fun ids => ?_
    refine ((Keeps.forM (P := Holding handles ids) (holding_attach owner) ids).imp
      (fun s hs => hs.2) (fun _ _ hs => hs) fun _ _ => trivial).bind fun _ => .pure fun _ hs => hs
  · intro h left ids
    refine .of_state fun t ⟨hleft, ht⟩ => ?_
    obtain ⟨hh, hleft⟩ := List.cons_subset.1 hleft
    refine ((meets_wrap_holding engine hh known).start ht).to_imp fun id s hs => ⟨hleft, ?_⟩
    intro j hj
    exact hs j (by simpa [or_comm] using hj)

theorem meets_joinScope_holding (id : ArrayId) (h : Handle) (known : Option Description) :
    Meets (fun _ => True) (joinScope id h known)
      (fun new => Holding [h] [new]) (fun _ : Session σ => True) := by
  refine (meets_array id fun _ _ => trivial).bind fun a => ?_
  have hwrap : Meets (fun _ => True) (wrap a.engine h known)
      (fun new => Holding [h] [new]) (fun _ : Session σ => True) :=
    (meets_wrap_holding a.engine (List.mem_singleton_self h) known).of_imp fun _ _ => by
      simp [Holding]
  refine (hwrap.of_imp fun _ _ => trivial).bind fun new => ?_
  exact ((holding_attach a.owner new).imp (fun _ hs => hs) (fun _ _ hs => hs)
    fun _ _ => trivial).bind fun _ => .pure fun _ hs => hs

end Session

end Arrays

namespace Reference

open Session State Library

variable {gpus k : Nat} {I : State → Prop} {s t : State} {h : Handle} {made : List Handle}

/-- What no call ends but one that marks variables. -/
def Lasts [HalfPrecision] (gpus : Nat) (I : State → Prop) : Prop :=
  ∀ s (c : Call), c.marks = false → I s → I (c.step (library gpus) s)

theorem Lasts.and {J : State → Prop} (hI : Lasts gpus I) (hJ : Lasts gpus J) :
    Lasts gpus fun n => I n ∧ J n :=
  fun _ _ hc hs => ⟨hI _ _ hc hs.1, hJ _ _ hc hs.2⟩

theorem lasts_parted (gpus : Nat) : Lasts gpus (State.Parted gpus) := fun _ _ hc hs => hs.step hc

theorem lasts_beyond (gpus k : Nat) (made : List Handle) :
    Lasts gpus fun n => ∀ h ∈ made, n.Beyond k h :=
  fun s _ _ hs h hh => (hs h hh).numbers (numbers_step gpus s _)

theorem lasts_unmarks [HalfPrecision] (gpus : Nat) (s : State) : Lasts gpus fun n =>
    n.Parted gpus ∧ s.Unmarks n ∧ s.memory.buffers.length ≤ n.memory.buffers.length :=
  fun n c hc hn => ⟨hn.1.step hc, hn.2.1.trans (unmarks_step gpus n hc),
    Nat.le_trans hn.2.2 (hn.1.length_step c)⟩

theorem lasts_renews (gpus : Nat) (s : State) : Lasts gpus fun n => n.Parted gpus ∧ s.Renews n :=
  fun n _ hc hn => ⟨hn.1.step hc, fun id k hk => hn.2 id k (unmarks_step gpus n hc id k hk)⟩

def guide [HalfPrecision] (hI : Lasts gpus I) : Guide State where
  admits := Offered gpus
  holds := I
  call := by
    rintro lib ⟨name, offers, rfl⟩ c hc
    exact Library.keeps_offering name offers c (.of_after fun s hs => hI s c hc hs)

theorem guided_mono {J : State → Prop} {hI : Lasts gpus I} {hJ : Lasts gpus J}
    {s : Session State} (hs : Guided (guide hI) s) (h : J s.native) : Guided (guide hJ) s :=
  ⟨hs.arrays, hs.scopes, h⟩

theorem invoke_beyond [HalfPrecision] (hs : s.Numbered) {op : OpHandle} {inputs : List Handle}
    {params : Params} (h : invoke .deferred gpus op inputs none params s = .ok made t) :
    ∀ x ∈ made, t.Beyond s.memory.buffers.length x := fun x hx =>
  hs.beyond_of_ok (c := .invoke op inputs none params) rfl rfl h fun hreply => by
    unfold issued
    rwa [hreply]

theorem create_beyond [HalfPrecision] (hs : s.Numbered) {device : Device} {shape : Shape}
    {type : ElementType} {storage : Storage}
    (hcreate : create gpus device shape type storage s = .ok h t) :
    t.Beyond s.memory.buffers.length h :=
  hs.beyond_of_ok (c := .create device shape type storage false) rfl rfl hcreate fun hreply => by
    unfold issued
    rw [hreply]
    exact List.mem_singleton_self h

theorem meets_onNative {α : Type} {a : Action State α} {P E : State → Prop} {J : α → State → Prop}
    {hI : Lasts gpus I} (hJ : ∀ x, Lasts gpus (J x)) (hE : Lasts gpus E) (ha : Meets P a J E) :
    Meets (fun s => Guided (guide hI) s ∧ P s.native) (onNative a) (fun x => Guided (guide (hJ x)))
      (Guided (guide hE)) := by
  refine .zoom fun s ⟨hs, hP⟩ => ?_
  have hn := ha s.native hP
  cases hr : a s.native with
  | ok x m | error e m =>
    rw [hr] at hn
    exact ⟨hs.arrays, hs.scopes, hn⟩

/-- The arrays' handles show none of the first `k` buffers. -/
def Anew [HalfPrecision] (hI : Lasts gpus I) (k : Nat) (ids : List ArrayId) (s : Session State) :
    Prop :=
  ∃ made, Guided (guide (hI.and (lasts_beyond gpus k made))) s ∧ Holding made ids s

theorem Anew.guided {hI : Lasts gpus I} {ids : List ArrayId} {s : Session State}
    (h : Anew hI k ids s) : Guided (guide hI) s := by
  obtain ⟨made, hs, -⟩ := h
  exact guided_mono hs hs.native.1

theorem meets_anew_of_holding (hI : Lasts gpus I) {α : Type} {a : Action (Session State) α}
    {P E : Session State → Prop} {ids : α → List ArrayId}
    (hguided : Keeps (Guided (guide (hI.and (lasts_beyond gpus k made)))) a)
    (hholding : Meets P a (fun x => Holding made (ids x)) E) :
    Meets (fun s => Guided (guide (hI.and (lasts_beyond gpus k made))) s ∧ P s) a
      (fun x => Anew hI k (ids x)) (Guided (guide hI)) :=
  (hguided.both hholding).imp (fun _ hs => hs) (fun _ _ hs => ⟨made, hs⟩) fun _ hs =>
    guided_mono hs.1 hs.1.native.1

theorem meets_wrapAll_anew (hI : Lasts gpus I) {engine : LoadedEngine State}
    (he : Offered gpus engine.library) (owner : Option ScopeId) (known : Option Description)
    (made : List Handle) :
    Meets (Guided (guide (hI.and (lasts_beyond gpus k made)))) (wrapAll engine owner known made)
      (Anew hI k) (Guided (guide hI)) :=
  (meets_anew_of_holding hI (guided_wrapAll (G := guide _) he owner known made)
    (meets_wrapAll_holding engine owner known made)).of_imp fun _ hs => ⟨hs, trivial⟩

section Buffers

variable (hI : Lasts gpus I) (hk : ∀ n, I n → n.Numbered ∧ k ≤ n.memory.buffers.length)
include hk

theorem meets_anew {α : Type} {a : Action State α} {made : α → List Handle} (ha : Keeps I a)
    (hmade : ∀ n x m, n.Numbered → a n = .ok x m →
      ∀ h ∈ made x, m.Beyond n.memory.buffers.length h) :
    Meets I a (fun x m => I m ∧ ∀ h ∈ made x, m.Beyond k h) I := by
  intro n hn
  have hkept := ha n hn
  obtain ⟨hnum, hle⟩ := hk n hn
  cases hr : a n with
  | ok x m =>
    rw [hr] at hkept
    refine ⟨hkept, fun h hh => ?_⟩
    have hbeyond := hmade n x m hnum hr h hh
    exact ⟨hbeyond.le, fun e he => Nat.le_trans hle (hbeyond.buffer e he)⟩
  | error e m => rwa [hr] at hkept

theorem meets_run_anew {engine : LoadedEngine State} (he : Offered gpus engine.library)
    (op : String) (inputs : List Handle) (params : Params) :
    Meets (Guided (guide hI)) (run engine op inputs none params)
      (fun made => Guided (guide (hI.and (lasts_beyond gpus k made)))) (Guided (guide hI)) := by
  refine (meets_onNative (fun made => hI.and (lasts_beyond gpus k made)) hI
    (meets_anew hk ((guide hI).invoke he _ op inputs none params) ?_)).of_imp
      fun s hs => ⟨hs, hs.native⟩
  intro n made m hn hrun
  obtain ⟨name, offers, hlib⟩ := he
  rw [hlib] at hrun
  obtain ⟨x, u, hx, hinvoke⟩ := bind_ok.1 hrun
  have hu : u = n := by
    cases hop : engine.operators.lookup op with
    | error e => rw [hop] at hx; exact absurd hx nofun
    | ok y => rw [hop] at hx; injection hx with _ hu; exact hu.symm
  exact invoke_beyond hn (hu ▸ hinvoke)

theorem meets_outputsOf_anew (id : ArrayId) (op : String) (inputs : List ArrayId)
    (params : Params) :
    Meets (Guided (guide hI)) (Session.outputsOf id op inputs params) (Anew hI k)
      (Guided (guide hI)) :=
  (guided_operands id inputs).bind fun handles => (guided_array id).bind fun a => .of_state
    fun _ ⟨ha, ht⟩ => ((meets_run_anew hI hk ha op handles params).start ht).bind fun made =>
      meets_wrapAll_anew hI ha a.owner none made

theorem meets_outputOf_anew (id : ArrayId) (op : String) (inputs : List ArrayId)
    (params : Params) :
    Meets (Guided (guide hI)) (outputOf id op inputs params) (fun out => Anew hI k [out])
      (Guided (guide hI)) := by
  refine (meets_outputsOf_anew hI hk id op inputs params).bind fun ids => ?_
  cases ids with
  | nil => exact .throw fun _ hs => hs.guided
  | cons out others =>
    refine .of_state fun t ⟨made, ht, hholding⟩ => ?_
    have hout : Holding made [out] t := fun j hj => hholding j (by
      rw [List.mem_singleton.1 hj]
      exact List.mem_cons_self)
    have hkept : Meets _ (others.forM letGo) (fun _ => Anew hI k [out]) (Guided (guide hI)) :=
      meets_anew_of_holding hI (Keeps.forM guided_letGo others)
        (Keeps.forM (P := Holding made [out]) holding_letGo others)
    exact (hkept.start ⟨ht, hout⟩).bind fun _ => .pure fun s hs => hs

theorem meets_sibling_anew (id : ArrayId) (device : Device) (shape : Shape) (type : ElementType)
    (storage : Storage) :
    Meets (Guided (guide hI)) (sibling id device shape type storage) (fun new => Anew hI k [new])
      (Guided (guide hI)) := by
  have hcreate : Meets (Guided (guide hI))
      (callFor id fun lib => lib.create device shape type storage false)
      (fun h => Guided (guide (hI.and (lasts_beyond gpus k [h])))) (Guided (guide hI)) := by
    refine (guided_array id).bind fun a => .of_state fun t ⟨ha, ht⟩ => ?_
    have hkeeps := ((guide hI).call ha (.create device shape type storage false) rfl).of_map
    refine (meets_onNative (fun h => hI.and (lasts_beyond gpus k [h])) hI
      (meets_anew hk hkeeps ?_)).start ⟨ht, ht.native⟩
    intro n h m hn hr x hx
    obtain ⟨name, offers, hlib⟩ := ha
    rw [hlib] at hr
    rw [List.mem_singleton.1 hx]
    exact create_beyond hn hr
  exact hcreate.bind fun h => (meets_anew_of_holding hI (guided_joinScope (G := guide _) id h _)
    (meets_joinScope_holding id h _)).of_imp fun _ hs => ⟨hs, trivial⟩

theorem meets_gradientBuffer_anew (a : ArrayId) (form : Option Storage) :
    Meets (Guided (guide hI)) (gradientBuffer a form) (fun g => Anew hI k [g])
      (Guided (guide hI)) := by
  unfold gradientBuffer
  cases form.filter Storage.isSparse with
  | none => exact meets_outputOf_anew hI hk a "zeros_like" [a] .empty
  | some format =>
    exact (guided_device a).bind fun d => (guided_shape a).bind fun s => (guided_type a).bind
      fun t => meets_sibling_anew hI hk a d s t format

end Buffers

theorem markVariables_single (var : Handle) (request : GradRequest) (grad : Handle) :
    markVariables [var] [request] [grad] = (do markOne var request grad; pure ⟨⟩) := rfl

theorem meets_markVariables (hs : s.Parted gpus) {lib : Library State} (hlib : Offered gpus lib)
    (var : Handle) (request : GradRequest) (grad : Handle) :
    Meets (fun n => (n.Parted gpus ∧ s.Unmarks n) ∧ n.Beyond s.memory.buffers.length grad)
      (lib.markVariables [var] [request] [grad])
      (fun _ n => n.Parted gpus ∧ s.Renews n) (fun n => n.Parted gpus ∧ s.Renews n) := by
  obtain ⟨name, offers, rfl⟩ := hlib
  have hsame : ∀ n, (n.Parted gpus ∧ s.Unmarks n) ∧ n.Beyond s.memory.buffers.length grad →
      n.Parted gpus ∧ s.Renews n := fun n hn => ⟨hn.1.1, fun id k hk => .inl (hn.1.2 id k hk)⟩
  refine offered (p := fun f : List Handle → List GradRequest → List Handle → Action State Unit =>
    Meets _ (f [var] [request] [grad]) _ _) ?_ (.throw hsame)
  show Meets _ (markVariables [var] [request] [grad]) _ _
  rw [markVariables_single]
  refine .of_state fun n hn => ?_
  have hmarked := markOne_does var request grad n
  cases hr : markOne var request grad n with
  | error e m =>
    have hm := hmarked n rfl
    rw [hr] at hm
    exact .of_eq_error (bind_error hr) (hsame _ (hm ▸ hn))
  | ok x m =>
    have hm := hmarked n rfl
    rw [hr] at hm
    obtain ⟨v, g, -, hg, -, rfl⟩ := hm
    have hstep : (Call.markVariables [var] [request] [grad]).step (library gpus) n = _ :=
      (Call.step_of_map rfl n).trans (after_ok ((congrFun (markVariables_single var request grad)
        n).trans ((bind_of_ok hr).trans rfl)))
    refine .of_eq ((bind_of_ok hr).trans rfl) (hs.mark hn.1.1 hn.1.2 ?_ ?_)
    · exact hn.2.buffer g (entry_eq_ok.1 hg)
    · exact hstep ▸ hn.1.1.run_step _

theorem meets_attachGrad {s : Session State} (hs : Guided (guide (lasts_parted gpus)) s)
    (a : ArrayId) (request : GradRequest) (form : Option Storage) :
    Meets (· = s) (attachGrad a request form)
      (fun _ => Guided (guide (lasts_renews gpus s.native)))
      (Guided (guide (lasts_renews gpus s.native))) := by
  refine meets_settled_of_keeps ?_ guided_sweep
  have hI := lasts_unmarks gpus s.native
  -- Up to the call that marks the variable marks are only lost, and the buffer lies beyond what
  -- there was in `s`.
  have hstart : Guided (guide hI) s := guided_mono hs ⟨hs.native, .of_eq rfl, Nat.le_refl _⟩
  have hrenews : ∀ t, Guided (guide hI) t → Guided (guide (lasts_renews gpus s.native)) t :=
    fun t ht => guided_mono ht ⟨ht.native.1, fun id k hk => .inl (ht.native.2.1 id k hk)⟩
  have hmark : ∀ ah gh, Meets (fun t => Guided (guide hI) t ∧
      t.native.Beyond s.native.memory.buffers.length gh)
      (callFor a fun lib => lib.markVariables [ah] [request] [gh])
      (fun _ => Guided (guide (lasts_renews gpus s.native)))
      (Guided (guide (lasts_renews gpus s.native))) := fun ah gh => by
    refine (meets_array a fun t ht => hrenews t ht.1).bind fun b => .of_state fun t hbefore => ?_
    obtain ⟨hb, ht, hgh⟩ := hbefore
    have hmarked := meets_markVariables hs.native (ht.arrays _ _ hb) ah request gh
    exact (meets_onNative (fun _ => lasts_renews gpus s.native) (lasts_renews gpus s.native)
      hmarked).start ⟨ht, ⟨ht.native.1, ht.native.2.1⟩, hgh⟩
  have hbuffer := (meets_gradientBuffer_anew (k := s.native.memory.buffers.length) hI
    (fun n hn => ⟨hn.1.numbered, hn.2.2⟩) a form).start hstart
  refine (hbuffer.imp (fun _ ht => ht) (fun _ _ ht => ht) hrenews).bind fun g => ?_
  refine ((meets_handle a).imp (fun _ ht => ht) (fun _ _ ht => ht.2)
    fun t ht => hrenews t ht.guided).bind fun ah => ?_
  refine ((meets_handle g).imp (fun _ ht => ht) (fun _ _ ht => ht)
    fun t ht => hrenews t ht.guided).bind fun gh => ?_
  refine (((hmark ah gh).of_imp ?_).outcome
    (F := Guided (guide (lasts_renews gpus s.native)))).bind fun r => ?_
  · rintro t ⟨⟨b, hb, hgh⟩, made, ht, hholding⟩
    have hmem : gh ∈ made := hholding g (List.mem_singleton_self g) b gh hb hgh
    exact ⟨guided_mono ht ht.native.1, ht.native.2 gh hmem⟩
  · cases r with
    | error e => exact (guided_retire g).bind fun _ => keeps_throw e
    | ok _ =>
      refine guided_of_array (fun b _ => (guided_modifyArray a fun _ => by rfl).bind fun _ => ?_) a
      exact Meets.forM_option guided_retire b.gradient

end Reference
end ScopedTensor
