import ScopedTensor.Proofs.Ownership.Arrays

/-! Operations that bring arrays into a session: operators, copies, views, arrays from nothing, and
gradients. -/

namespace ScopedTensor.Session

open ScopedTensor.Action

variable {half : HalfPrecision}
variable {σ α : Type} {R : Regime σ} {d : Debts} {E : Session σ → Prop}
variable {account : σ → List Handle → Prop} {I : Session σ → Prop}

theorem keeps_runInto [Lasting account I] {engine : LoadedEngine σ}
    (hlib : engine.library.Accounted account) (op : String) (inputs outputs : List Handle)
    (params : Params) : Keeps I (run engine op inputs (some outputs) params) :=
  keeps_onNative (hlib.runInto _ op inputs outputs params)

theorem meets_run {engine : LoadedEngine σ} (he : R.admits engine) (op : String)
    (inputs : List Handle) (params : Params) {k : Nat} :
    Meets (fun s => Sound R { loose := true } s ∧ k ≤ s.lastId) (run engine op inputs none params)
      (fun handles s => (∀ h ∈ handles, h.isNull = false) ∧
        Sound R { handles := handles ++ [], loose := true } s ∧ k ≤ s.lastId)
      (Sound R { loose := true }) :=
  issues_onNative (I := fun s => k ≤ s.lastId) ((R.accounted he).run _ op inputs params)
    fun _ _ hi => hi

theorem meets_outputsOf (id : ArrayId) (op : String) (inputs : List ArrayId) (params : Params) :
    Meets (Sound R { loose := true }) (outputsOf id op inputs params)
      (fun ids s => Sound R { loose := true } s ∧ ∀ x ∈ ids, Newer id x s)
      (Sound R { loose := true }) := by
  unfold outputsOf
  refine Meets.bind (Q := fun _ => Sound R { loose := true }) ?_ fun handles => ?_
  · refine Keeps.mapM (fun input => ?_) inputs
    exact (keeps_requireSameEngine _ id input).bind fun _ => keeps_handle input
  · refine (meets_array id fun _ hs => hs).bind fun b => .of_state fun t ⟨hb, ht⟩ => ?_
    have he := ht.staffed.arrays _ _ hb
    have hle : id ≤ t.lastId := ht.numbered.arrays_le id ((Table.mem_keys_iff _ _).2 ⟨b, hb⟩)
    refine ((meets_run he op handles params).start ⟨ht, hle⟩).bind fun outputs => ?_
    refine .of_state fun u ⟨hnull, hu⟩ => ?_
    exact (meets_wrapAll he b.owner none outputs hnull).start hu

theorem meets_outputOf (id : ArrayId) (op : String) (inputs : List ArrayId) (params : Params) :
    Meets (Sound R { loose := true }) (outputOf id op inputs params)
      (fun out s => Sound R { loose := true } s ∧ Newer id out s) (Sound R { loose := true }) := by
  refine (meets_outputsOf id op inputs params).bind fun ids => ?_
  cases ids with
  | nil => exact .throw fun _ hs => hs.1
  | cons out others =>
    refine .of_state fun t ⟨ht, hnewer⟩ => ?_
    obtain ⟨hlt, hle⟩ := hnewer out List.mem_cons_self
    have hletGo : Keeps (fun s => Sound R { loose := true } s ∧ t.lastId ≤ s.lastId)
        (others.forM letGo) := Keeps.forM (keeps_letGo t.lastId) others
    refine ((hletGo.start ⟨ht, Nat.le_refl _⟩).imp (fun _ hs => hs) (fun _ _ hs => hs)
      fun _ hs => hs.1).bind fun _ => .pure fun s hs => ?_
    exact ⟨hs.1, hlt, Nat.le_trans hle hs.2⟩

theorem keeps_invoke (id : ArrayId) (op : String) (inputs : List ArrayId) (params : Params) :
    Keeps (Sound R {}) (invoke id op inputs params) :=
  keeps_keepingAll ((meets_outputsOf id op inputs params).to_imp
    fun _ _ hs => ⟨hs.1, fun out hout => (hs.2 out hout).2⟩)

theorem meets_outputOf_le (id : ArrayId) (op : String) (inputs : List ArrayId) (params : Params) :
    Meets (Sound R { loose := true }) (outputOf id op inputs params)
      (fun out s => Sound R { loose := true } s ∧ out ≤ s.lastId) (Sound R { loose := true }) :=
  (meets_outputOf id op inputs params).to_imp fun _ _ hs => ⟨hs.1, hs.2.2⟩

theorem meets_outputsOf_le (id : ArrayId) (op : String) (inputs : List ArrayId) (params : Params) :
    Meets (Sound R { loose := true }) (outputsOf id op inputs params)
      (fun ids s => Sound R { loose := true } s ∧ ∀ out ∈ ids, out ≤ s.lastId)
      (Sound R { loose := true }) :=
  (meets_outputsOf id op inputs params).to_imp fun _ _ hs => ⟨hs.1, fun out hout => (hs.2 out hout).2⟩

theorem keeps_arithmetic (op : String) (a b : ArrayId) : Keeps (Sound R {}) (arithmetic op a b) := by
  refine keeps_keeping ((keeps_shape a).bind fun s => (keeps_shape b).bind fun s' => ?_)
  refine .guard (fun _ hs => hs) fun _ => ?_
  refine (keeps_type a).bind fun t => (keeps_type b).bind fun t' => ?_
  exact .guard (fun _ hs => hs) fun _ => meets_outputOf_le a op [a, b] .empty

theorem keeps_unary (op : String) (params : Params) (a : ArrayId) :
    Keeps (Sound R {}) (unary op params a) := keeps_keeping (meets_outputOf_le a op [a] params)

theorem keeps_split (a : ArrayId) (axis : Int) (parts : Nat) :
    Keeps (Sound R {}) (split a axis parts) :=
  keeps_keepingAll (.guard (fun _ hs => hs) fun _ => meets_outputsOf_le a "split" [a] _)

theorem keeps_splitSqueeze (a : ArrayId) (axis : Int) :
    Keeps (Sound R {}) (splitSqueeze a axis) := by
  refine keeps_keepingAll ((keeps_shape a).bind fun s => ?_)
  cases s.axis? axis with
  | none => exact .throw fun _ hs => hs
  | some i => exact meets_outputsOf_le a "split" [a] _

theorem array_gone {s : Session σ} {id : ArrayId} (h : s.arrays.get? id = none) :
    array id s = .error (.invalid .released) s := by
  refine query_error ?_
  rw [h]

theorem meets_known {id : ArrayId} {a : Action (Session σ) α}
    (ha : Keeps (fun s => Sound R d s ∧ id ≤ s.lastId) a)
    (hgone : ∀ t, t.arrays.get? id = none → ∃ e, a t = .error e t) :
    Meets (Sound R d) a (fun _ s => Sound R d s ∧ id ≤ s.lastId) (Sound R d) := by
  refine .of_state fun t ht => ?_
  cases hid : t.arrays.get? id with
  | none =>
    obtain ⟨e, he⟩ := hgone t hid
    intro s hs
    rw [hs, he]
    exact ht
  | some b =>
    have hle := ht.numbered.arrays_le id ((Table.mem_keys_iff _ _).2 ⟨b, hid⟩)
    exact (ha.start ⟨ht, hle⟩).imp (fun _ hs => hs) (fun _ _ hs => hs) fun _ hs => hs.1

theorem keeps_copyInto [Lasting account I] (source target : ArrayId) :
    Keeps I (copyInto source target) := by
  refine (keeps_requireSameEngine _ source target).bind fun _ => ?_
  refine (keeps_shape source).bind fun s => (keeps_shape target).bind fun t => ?_
  refine .guard (fun _ hs => hs) fun _ => (keeps_handle target).bind fun th => ?_
  refine (keeps_handle source).bind fun sh => keeps_of_accounted (fun b hb => ?_) source
  exact (keeps_runInto hb "_copyto" [sh] [th] .empty).bind fun _ => .pure fun _ hs => hs

theorem keeps_copyTo (source target : ArrayId) : Keeps (Sound R {}) (copyTo source target) :=
  keeps_settled (keeps_copyInto source target)

theorem meets_sibling (id : ArrayId) (device : Device) (shape : Shape) (type : ElementType)
    (storage : Storage) :
    Meets (Sound R { loose := true }) (sibling id device shape type storage)
      (fun new s => Sound R { loose := true } s ∧ Newer id new s) (Sound R { loose := true }) := by
  refine (issues_callFor (fun _ hlib => hlib.create device shape type storage false) id).bind
    fun h => .of_state fun t ⟨hnull, ht⟩ => ?_
  exact (meets_joinScope id (hnull h List.mem_cons_self) _).start ht

theorem meets_copyAs (id : ArrayId) (device : Device) (shape : Shape) (type : ElementType)
    (storage : Storage) :
    Meets (Sound R { loose := true }) (copyAs id device shape type storage)
      (fun new s => Sound R { loose := true } s ∧ new ≤ s.lastId) (Sound R { loose := true }) := by
  refine (meets_sibling id device shape type storage).bind fun target => ?_
  refine ((keeps_copyInto (I := fun s => Sound R { loose := true } s ∧ target ≤ s.lastId) id
    target).imp (fun _ hs => ⟨hs.1, hs.2.2⟩) (fun _ _ hs => hs) fun _ hs => hs.1).bind fun _ => ?_
  exact .pure fun _ hs => hs

theorem keeps_toDevice (id : ArrayId) (target : Device) (copy : Bool) :
    Keeps (Sound R {}) (toDevice id target copy) := by
  have hcopy : Meets (Sound R { loose := true })
      (do
        let s ← shape id
        let t ← type id
        copyAs id target s t (← storage id))
      (fun new s => Sound R { loose := true } s ∧ new ≤ s.lastId) (Sound R { loose := true }) :=
    (keeps_shape id).bind fun s => (keeps_type id).bind fun t => (keeps_storage id).bind fun st =>
      meets_copyAs id target s t st
  refine keeps_keeping (.ite (fun _ => ?_) fun _ => hcopy)
  exact (meets_known (keeps_device id) fun t ht => ⟨_, bind_error (array_gone ht)⟩).bind fun d =>
    .ite (fun _ => .pure fun _ hs => hs) fun _ => hcopy.of_imp fun _ hs => hs.1

theorem keeps_toType (id : ArrayId) (target : ElementType) (copy : Bool) :
    Keeps (Sound R {}) (toType id target copy) := by
  have hcopy : Meets (Sound R { loose := true })
      (do
        let d ← device id
        let s ← shape id
        copyAs id d s target (← storage id))
      (fun new s => Sound R { loose := true } s ∧ new ≤ s.lastId) (Sound R { loose := true }) :=
    (keeps_device id).bind fun d => (keeps_shape id).bind fun s => (keeps_storage id).bind fun st =>
      meets_copyAs id d s target st
  refine keeps_keeping (.ite (fun _ => ?_) fun _ => hcopy)
  exact (meets_known (keeps_type id) fun t ht => ⟨_, bind_error (array_gone ht)⟩).bind fun t =>
    .ite (fun _ => .pure fun _ hs => hs) fun _ => hcopy.of_imp fun _ hs => hs.1

theorem meets_requireOpen {I : Session σ → Prop} (id : ScopeId) (hE : ∀ s, I s → E s) :
    Meets I (requireOpen id)
      (fun c s => s.scopes.openAt id = true ∧ s.scopes.get? id = some c ∧ I s) E := by
  refine (meets_scope id hE).bind fun c => .guard (fun s hs => hE s hs.2) fun hclosed => ?_
  exact .pure fun s hs => ⟨Table.openAt_iff.2 ⟨c, hs.1, by simpa using hclosed⟩, hs⟩

theorem meets_createdOn (id : ScopeId) (device : Device) (shape : Shape) (type : ElementType)
    (storage : Storage) :
    Meets (Sound R { loose := true }) (createdOn id device shape type storage)
      (fun new s => Sound R { loose := true } s ∧ new ≤ s.lastId) (Sound R { loose := true }) := by
  refine (meets_requireOpen id fun _ hs => hs).bind fun c => .of_state fun t ⟨_, hc, ht⟩ => ?_
  have he := ht.staffed.scopes _ _ hc
  have hcreate := (R.accounted he).create device shape type storage false
  refine ((issues_onNative (I := fun _ => True) hcreate fun _ _ hi => hi).start ⟨ht, trivial⟩).bind
    fun h => .of_state fun u ⟨hnull, hu, _⟩ => ?_
  exact (meets_placed he (hnull h List.mem_cons_self) _ (some id) hu).to_imp
    fun _ _ hs => ⟨hs.1, hs.2.2⟩

theorem keeps_createOn (id : ScopeId) (device : Device) (shape : Shape) (type : ElementType)
    (storage : Storage) : Keeps (Sound R {}) (createOn id device shape type storage) :=
  keeps_keeping (meets_createdOn id device shape type storage)

theorem keeps_create (id : ScopeId) (shape : Shape) (type : ElementType) :
    Keeps (Sound R {}) (create id shape type) := by
  refine keeps_keeping ((meets_scope id fun _ hs => hs).bind fun c => .of_imp ?_ fun _ hs => hs.2)
  exact meets_createdOn id c.device shape type .dense

theorem keeps_filled (op : String) (id : ScopeId) (shape : Shape) (type : ElementType) :
    Keeps (Sound R {}) (filled op id shape type) := by
  refine keeps_keeping ((meets_requireOpen id fun _ hs => hs).bind fun c => ?_)
  refine .of_state fun t ⟨_, hc, ht⟩ => ?_
  have he := ht.staffed.scopes _ _ hc
  refine ((meets_run he op [] _).start ⟨ht, Nat.zero_le _⟩).bind fun handles => ?_
  refine .of_state fun u ⟨hnull, hu⟩ => ?_
  refine ((meets_wrapAll he (some id) _ handles hnull).start hu).bind fun ids => ?_
  cases hlast : ids.getLast? with
  | none => exact .throw fun _ hs => hs.1
  | some out => exact .pure fun _ hs => ⟨hs.1, (hs.2 out (List.mem_of_getLast? hlast)).2⟩

theorem keeps_fromValues (id : ScopeId) (t : HostType) (values : List (HostValue t)) (shape : Shape) :
    Keeps (Sound R {}) (fromValues id t values shape) := by
  refine keeps_keeping (.guard (fun _ hs => hs) fun _ => ?_)
  refine (meets_scope id fun _ hs => hs).bind fun c => .of_imp ?_ fun _ hs => hs.2
  refine (meets_createdOn id c.device shape t.element .dense).bind fun new => ?_
  refine ((keeps_set (I := fun s => Sound R { loose := true } s ∧ new ≤ s.lastId) new t values).imp
    (fun _ hs => hs) (fun _ _ hs => hs) fun _ hs => hs.1).bind fun _ => .pure fun _ hs => hs

theorem keeps_fromHandle (hany : ∀ {n owned owned'}, R.account n owned → R.account n owned') (id : ScopeId) {h : Handle}
    (hnull : h.isNull = false) (known : Option Description) :
    Keeps (Sound R {}) (fromHandle id h known) := by
  refine keeps_keeping ((meets_scope id fun _ hs => hs).bind fun c => .of_state fun t ⟨hc, ht⟩ => ?_)
  have howed : Sound R { handles := [h], loose := true } t :=
    { ht with account := hany ht.account }
  exact (meets_placed (ht.staffed.scopes _ _ hc) hnull known (some id) howed).to_imp
    fun _ _ hs => ⟨hs.1, hs.2.2⟩

theorem meets_view (a : ArrayId) {make : Library σ → Handle → Action σ Handle}
    (hmake : ∀ lib : Library σ, lib.Accounted R.account → ∀ h,
      Issues R.account (make lib h) fun v => [v]) :
    Meets (Sound R { loose := true }) (view a make)
      (fun v s => Sound R { loose := true } s ∧ v ≤ s.lastId) (Sound R { loose := true }) := by
  refine (keeps_handle a).bind fun h => (issues_callFor (fun lib hlib => hmake lib hlib h) a).bind
    fun v => .of_state fun t ⟨hnull, ht⟩ => ?_
  exact ((meets_joinScope a (hnull v List.mem_cons_self) none).start ht).to_imp
    fun _ _ hs => ⟨hs.1, hs.2.2⟩

theorem keeps_row (a : ArrayId) (index : Nat) : Keeps (Sound R {}) (row a index) :=
  keeps_keeping ((keeps_shape a).bind fun _ => .guard (fun _ hs => hs) fun _ =>
    meets_view a fun _ hlib h => hlib.row h index)

theorem keeps_slice (a : ArrayId) (first last : Nat) : Keeps (Sound R {}) (slice a first last) :=
  keeps_keeping ((keeps_shape a).bind fun _ => .guard (fun _ hs => hs) fun _ =>
    meets_view a fun _ hlib h => hlib.slice h first last)

theorem keeps_reshape (a : ArrayId) (target : List Int) : Keeps (Sound R {}) (reshape a target) :=
  keeps_keeping ((keeps_shape a).bind fun _ => .guard (fun _ hs => hs) fun _ =>
    meets_view a fun _ hlib h => hlib.reshape h target false)

theorem undisturbed_throughRow {account : σ → List Handle → Prop} {lib : Library σ}
    (hlib : lib.Accounted account) (h : Handle) (i : Nat) {render : Handle → Action σ String}
    (hrender : ∀ v, Undisturbed account (render v)) :
    Undisturbed account (Dump.throughRow lib h i render) := by
  intro owned
  refine (hlib.row h i owned).bind fun v => .of_state fun n ⟨hnull, hn⟩ => ?_
  have hv : v.isNull = false := hnull v List.mem_cons_self
  have hrow : Keeps (account · (v :: owned)) (do render (← Action.ofExcept (OwnedHandle.mk v).get)) :=
    Meets.bind (Q := fun _ => (account · (v :: owned)))
      (keeps_ofExcept _) fun w => hrender w _
  refine ((hrow.outcome (F := (account · owned))).start hn).bind fun text => ?_
  have hfree := hlib.release ⟨v⟩ owned
  rw [if_neg (by simp [OwnedHandle.isReleased, hv])] at hfree
  refine (hfree.imp (fun m hm => ?_) (fun _ _ hm => hm.2) fun _ hm => hm.elim).bind fun _ =>
    .ofExcept (fun _ _ _ hm => hm) fun _ hm => hm
  cases text <;> exact hm

theorem undisturbed_leaf {account : σ → List Handle → Prop} {lib : Library σ}
    (hlib : lib.Accounted account) (t : ElementType) (h : Handle) (n : Nat) :
    Undisturbed account (Dump.leaf lib t h n) := fun owned =>
  (hlib.copyOut h _ n owned).bind fun _ => .pure fun _ hs => hs

theorem undisturbed_level {account : σ → List Handle → Prop} {lib : Library σ}
    (hlib : lib.Accounted account) (t : ElementType) (dims : List Nat) (depth : Nat) (h : Handle) :
    Undisturbed account (Dump.level lib t dims depth h) := by
  induction dims generalizing depth h with
  | nil =>
    intro owned
    exact (undisturbed_leaf hlib t h 1 owned).bind fun _ => .pure fun _ hs => hs
  | cons n dims ih =>
    intro owned
    cases dims with
    | nil => exact (undisturbed_leaf hlib t h n owned).bind fun _ => .pure fun _ hs => hs
    | cons m dims =>
      refine Meets.bind (Q := fun _ => (account · owned)) ?_ fun _ => .pure fun _ hs => hs
      exact Keeps.mapM (fun i => undisturbed_throughRow hlib h i (ih (depth + 1)) owned) _

theorem keeps_dump [Lasting account I] (id : ArrayId) : Keeps I (dump id) := by
  refine (keeps_shape id).bind fun s => (keeps_type id).bind fun t => ?_
  refine (keeps_device id).bind fun v => ?_
  refine .ite (fun _ => .pure fun _ hs => hs) fun _ => (keeps_handle id).bind fun h => ?_
  exact (keeps_callFor (fun _ hlib => undisturbed_level hlib t s.dims 0 h) id).bind fun _ =>
    .pure fun _ hs => hs

theorem meets_gradientBuffer (a : ArrayId) (storage : Option Storage) :
    Meets (Sound R { loose := true }) (gradientBuffer a storage)
      (fun g s => Sound R { loose := true } s ∧ Newer a g s) (Sound R { loose := true }) := by
  unfold gradientBuffer
  cases storage.filter Storage.isSparse with
  | none => exact meets_outputOf a "zeros_like" [a] .empty
  | some format =>
    exact (keeps_device a).bind fun d => (keeps_shape a).bind fun s => (keeps_type a).bind fun t =>
      meets_sibling a d s t format

theorem keeps_attachGrad (a : ArrayId) (request : GradRequest) (storage : Option Storage) :
    Keeps (Sound R {}) (attachGrad a request storage) := by
  refine keeps_settled ((meets_gradientBuffer a storage).bind fun g => ?_)
  refine .of_state fun t ⟨ht, hlt, hle⟩ => ?_
  refine .imp (P := fun s => Sound R { loose := true } s ∧ g ≤ s.lastId) (E := fun s =>
    Sound R { loose := true } s ∧ g ≤ s.lastId) (Q := fun _ => Sound R { loose := true }) ?_
    (fun s hs => hs ▸ ⟨ht, hle⟩) (fun _ _ hs => hs) fun _ hs => hs.1
  refine (keeps_handle a).bind fun ah => (keeps_handle g).bind fun gh => ?_
  have hmark := keeps_callFor (I := fun s => Sound R { loose := true } s ∧ g ≤ s.lastId)
    (fun _ hlib => hlib.markVariables [ah] [request] [gh]) a
  refine (hmark.outcome (F := fun s => Sound R { loose := true } s ∧ g ≤ s.lastId)).bind fun r => ?_
  cases r with
  | error e => exact (keeps_retire g g).bind fun _ => .throw fun _ hs => hs
  | ok _ =>
    refine (meets_array a fun _ hs => hs).bind fun b => ?_
    refine .modify_bind (I := fun s => Sound R { loose := true } s ∧ g ≤ s.lastId)
      (fun s hs => ⟨hs.2.1.gradient rfl hlt hs.2.2, hs.2.2⟩) ?_
    exact (Meets.forM_option (keeps_retire g) b.gradient).to_imp
      fun _ _ hs => hs.1

theorem keeps_backward [Lasting account I] (a : ArrayId) (seed : Option ArrayId)
    (retain training : Bool) : Keeps I (backward a seed retain training) := by
  have hcall : ∀ g : Option Handle, Keeps I (do
      let h ← handle a
      callFor a fun lib => lib.backward [h] [g] retain training) := fun g =>
    (keeps_handle a).bind fun h =>
      keeps_callFor (fun _ hlib => hlib.backward [h] [g] retain training) a
  cases seed with
  | none => exact hcall none
  | some g =>
    refine (keeps_requireSameEngine _ a g).bind fun _ => ?_
    exact Meets.bind (Q := fun _ => I) (.map (keeps_handle g)) hcall

theorem keeps_gradient (a : ArrayId) : Keeps (Sound R {}) (gradient a) := by
  refine keeps_keeping ((keeps_handle a).bind fun h => ?_)
  refine (issues_callFor (fun _ hlib => hlib.getGrad h) a).bind fun g => ?_
  cases g with
  | none => exact .throw fun _ hs => hs.2.1
  | some g =>
    refine .of_state fun t ⟨hnull, ht⟩ => ?_
    exact ((meets_joinScope a (hnull g (by simp)) none).start ht).to_imp
      fun _ _ hs => ⟨hs.1, hs.2.2⟩

end ScopedTensor.Session
