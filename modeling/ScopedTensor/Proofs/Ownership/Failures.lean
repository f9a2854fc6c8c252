import ScopedTensor.Proofs.Ownership.Untouched

/-! Every operation that fails leaves the session as it was, scopes, arrays and handles; the two that
copy an array may leave the target of the copy behind. -/

namespace ScopedTensor

open ScopedTensor.Action Session

variable {half : HalfPrecision}
variable {σ : Type} {account : σ → List Handle → Prop}

namespace Session

variable {u s : Session σ} {E : Session σ → Prop}

def Blank (shape : Shape) (type : ElementType) (new : ArrayId) (s : Session σ) : Prop :=
  ∃ b, s.arrays.get? new = some b ∧ b.owned.isReleased = false ∧ b.shape = some shape ∧
    b.type = some type ∧ ∀ bytes : Bytes, bytes.length = type.storageBytes shape.size →
      ∃ k, b.engine.library.copyIn b.owned.handle bytes shape.size s.native = .ok ⟨⟩ k

theorem remembered_known {α : Type} {known : Tensor σ → Option α}
    {remember : α → Tensor σ → Tensor σ} {load : Library σ → Handle → Action σ α} {id : ArrayId}
    {b : Tensor σ} {x : α} (hb : s.arrays.get? id = some b) (hx : known b = some x) :
    remembered known remember load id s = .ok x s := by
  refine (bind_of_ok (array_eq hb)).trans ?_
  rw [hx]
  rfl

theorem Blank.set {shape : Shape} {t : HostType} {new : ArrayId} (hs : Blank shape t.element new s)
    {values : List (HostValue t)} (hcount : values.length = shape.size) :
    ∃ v, Session.set new t values s = .ok ⟨⟩ v := by
  obtain ⟨b, hb, hreleased, hshape, htype, htakes⟩ := hs
  have htype : Session.type new s = .ok t.element s := remembered_known hb htype
  have hsize : size new s = .ok shape.size s :=
    bind_ok.2 ⟨shape, s, remembered_known hb hshape, rfl⟩
  have hhandle : handle new s = .ok b.owned.handle s := handle_eq hb hreleased
  have hbytes : (HostValue.encode t values).length = t.element.storageBytes shape.size := by
    rw [HostValue.length_encode, hcount]
  obtain ⟨k, hk⟩ := htakes _ hbytes
  have hcopy : callFor new (fun lib => lib.copyIn b.owned.handle (HostValue.encode t values)
      shape.size) s = .ok ⟨⟩ { s with native := k } :=
    (bind_of_ok (array_eq hb)).trans (onNative_ok hk)
  have hset : Session.set new t values s = setBytes new (HostValue.encode t values) s := by
    unfold Session.set
    rw [bind_of_ok htype]
    simp only [ne_eq, not_true_eq_false, if_false]
  rw [hset]
  unfold setBytes
  rw [bind_of_ok hsize, bind_of_ok htype]
  simp only [hbytes, ne_eq, not_true_eq_false, if_false]
  rw [bind_of_ok hhandle, bind_of_ok hcopy]
  exact ⟨_, rfl⟩

theorem meets_create_untouched {lib : Library σ} (hlib : lib.Dependable account) (device : Device)
    (shape : Shape) (type : ElementType) (storage : Storage) :
    Meets (Untouched account u []) (onNative (lib.create device shape type storage false))
      (fun h s => h.isNull = false ∧ Alike u s ∧
        ∀ bytes : Bytes, bytes.length = type.storageBytes shape.size →
          ∃ k, lib.copyIn h bytes shape.size s.native = .ok ⟨⟩ k) (Untouched account u []) := by
  refine .zoom fun s hs => ?_
  have hcreate := hlib.accounted.create device shape type storage false [] s.native hs.owned
  cases hr : lib.create device shape type storage false s.native with
  | ok h n =>
    rw [hr] at hcreate
    exact ⟨hcreate.1 h List.mem_cons_self, hs.alike.withNative n, fun _ => hlib.fills hs.owned hr⟩
  | error e n =>
    rw [hr] at hcreate
    exact { hs with alike := hs.alike.withNative n, owned := hcreate }

section Rest

variable (hu : Sound (.dependable account) {} u)

include hu

theorem Untouched.scopes_dependable (hs : Untouched account u [] s) {S : ScopeId} {c : Scope σ}
    (hc : s.scopes.get? S = some c) : c.engine.library.Dependable account :=
  hu.staffed.scopes S c (hs.alike.scopes ▸ hc)

theorem meets_createdOn_untouched (id : ScopeId) (device : Device) (shape : Shape)
    (type : ElementType) (storage : Storage) :
    Meets (Untouched account u []) (createdOn id device shape type storage)
      (Blank shape type) (Untouched account u []) := by
  refine (meets_requireOpen id fun _ hs => hs).bind fun c => .of_state fun t ⟨hopen, hc, ht⟩ => ?_
  have hlib := ht.scopes_dependable hu hc
  refine ((meets_create_untouched hlib device shape type storage).start ht).bind fun h =>
    .of_state fun v ⟨hnull, hv, htakes⟩ => ?_
  have hadmits : v.Admits (some id) := by
    intro S hS
    obtain rfl := Option.some.inj hS
    rw [hv.scopes, ← ht.alike.scopes]
    exact hopen
  let known : Description := { Description.dense shape type device with storage }
  refine .of_eq (wrap_attach_eq hadmits c.engine h (some known))
    ⟨(Tensor.around c.engine h (some known)).withOwner (some id), ?_, hnull, rfl, rfl, htakes⟩
  show ((v.arrays.insert (v.lastId + 1) _).modify (v.lastId + 1) _).get? (v.lastId + 1) = _
  rw [Table.get?_modify, if_pos rfl, Table.get?_insert, if_pos rfl]
  rfl

theorem traceless_createOn (id : ScopeId) (device : Device) (shape : Shape) (type : ElementType)
    (storage : Storage) : Traceless account u (createOn id device shape type storage) :=
  traceless_keeping hu ((meets_createdOn_untouched hu id device shape type storage).to_imp
    fun _ _ _ => trivial)

theorem traceless_create (id : ScopeId) (shape : Shape) (type : ElementType) :
    Traceless account u (create id shape type) :=
  traceless_keeping hu ((meets_scope id fun _ hs => hs).bind fun c =>
    (meets_createdOn_untouched hu id c.device shape type .dense).imp (fun _ hs => hs.2)
      (fun _ _ _ => trivial) fun _ hs => hs)

theorem traceless_filled (op : String) (id : ScopeId) (shape : Shape) (type : ElementType) :
    Traceless account u (filled op id shape type) := by
  refine traceless_keeping hu ((meets_requireOpen id fun _ hs => hs).bind fun c => ?_)
  refine .of_state fun t ⟨hopen, hc, ht⟩ => ?_
  have hlib := ht.scopes_dependable hu hc
  have hadmits : u.Admits (some id) := by
    intro S hS
    obtain rfl := Option.some.inj hS
    rw [← ht.alike.scopes]
    exact hopen
  refine ((meets_run_untouched hlib op [] _).start ht).bind fun handles => ?_
  refine ((meets_wrapAll_untouched c.engine hadmits _ handles).of_imp fun _ hs => hs.1.2).bind
    fun ids => ?_
  cases hlast : ids.getLast? with
  | none => exact .throw fun _ hs => hs.2 (List.getLast?_eq_none_iff.1 hlast)
  | some out => exact .pure fun _ _ => trivial

theorem traceless_fromValues (id : ScopeId) (t : HostType) (values : List (HostValue t))
    (shape : Shape) : Traceless account u (fromValues id t values shape) := by
  refine traceless_keeping hu (.guard (fun _ hs => hs) fun hcount => ?_)
  refine (meets_scope id fun _ hs => hs).bind fun c => ?_
  refine ((meets_createdOn_untouched hu id c.device shape t.element .dense).of_imp
    fun _ hs => hs.2).bind fun new => .of_state fun s hs => ?_
  obtain ⟨v, hv⟩ := Blank.set hs (Decidable.of_not_not hcount)
  exact .of_step (bind_of_ok hv) (.pure fun _ _ => trivial)

end Rest

theorem refused_adopt {I : Session σ → Prop} (target : ScopeId) (id : ArrayId) :
    Meets I (adopt target id) (fun _ _ => True) I := by
  unfold adopt
  refine (meets_scope target fun _ hs => hs).bind fun c => (meets_array id fun _ hs => hs.2).bind
    fun a => .of_imp (P := I) ?_ fun _ hs => hs.2.2
  refine .guard (fun _ hs => hs) fun _ => .guard (fun _ hs => hs) fun _ => ?_
  cases a.owner with
  | none =>
    exact .guard (fun _ hs => hs) fun _ => .modify_bind (I := fun _ => True) (fun _ _ => trivial)
      (.modify fun _ _ => trivial)
  | some source =>
    refine .get_bind fun v hv => ?_
    cases v.scopes.get? source with
    | none => exact .throw fun _ hs => hs ▸ hv
    | some p =>
      refine .guard (fun _ hs => hs ▸ hv) fun _ => .ite (fun _ => .done trivial) fun _ => ?_
      refine .guard (fun _ hs => hs ▸ hv) fun _ => ?_
      refine .modify_bind (I := fun _ => True) (fun _ _ => trivial) ?_
      exact .modify_bind (I := fun _ => True) (fun _ _ => trivial) (.modify fun _ _ => trivial)

theorem refused_subScope {I : Session σ → Prop} (parent : ScopeId) (device : Option Device) :
    Meets I (subScope parent device) (fun _ _ => True) I := by
  refine (meets_scope parent fun _ hs => hs).bind fun p => .of_state fun s hs => ?_
  refine (meets_newScope _ _ _ _).bind fun child => .of_imp (P := fun _ => True) ?_ fun _ _ => trivial
  refine .ite (fun _ => .get_bind fun t _ => ?_) fun _ => .pure fun _ _ => trivial
  exact .bind (Q := fun _ _ => True) (.modify fun _ _ => trivial) fun _ => .pure fun _ _ => trivial

theorem attach_closed {S : ScopeId} {c : Scope σ} (hc : s.scopes.get? S = some c)
    (hclosed : c.closed = true) (id : ArrayId) :
    attach (some S) id s = .error (.invalid .scopeClosed) s := by
  refine (bind_of_ok (scope_eq hc)).trans ?_
  rw [hclosed]
  rfl

theorem refused_fromHandle (hu : Sound (.dependable account) {} u) (S : ScopeId) {h : Handle}
    (hnull : h.isNull = false) (known : Option Description) {e : Error} {t : Session σ}
    (hfails : fromHandle S h known u = .error e t) :
    Alike u t ∧ (u.scopes.get? S = none → t.native = u.native) ∧
      ∀ c, u.scopes.get? S = some c →
        c.closed = true ∧ t.native = (c.engine.library.free h).after u.native := by
  have hfresh := hu.numbered.fresh_array
  cases hS : u.scopes.get? S with
  | none =>
    have hscope : scope S u = .error (.invalid .scopeClosed) u := query_error (by rw [hS])
    have hsweep : sweep u = .ok ⟨⟩ u := sweep_of_held fun _ hj => hu.isHeld hj
    have hrefused : fromHandle S h known u = .error _ u :=
      settled_error (bind_error (bind_error hscope)) hsweep
    rw [hrefused] at hfails
    injection hfails with _ ht
    exact ht ▸ ⟨.refl u, fun _ => rfl, nofun⟩
  | some c =>
    have hscope := scope_eq hS
    cases hclosed : c.closed with
    | true =>
      have hattach := attach_closed (s := u.wrapped c.engine h known) hS hclosed (u.lastId + 1)
      obtain ⟨v, hv, halike, hnative⟩ := sweep_wrapped hu (.refl (u.wrapped c.engine h known))
      have hrefused : fromHandle S h known u = .error _ v :=
        settled_error (bind_error ((bind_of_ok hscope).trans
          ((bind_of_ok (wrap_eq u c.engine h known)).trans (bind_error hattach)))) hv
      rw [hrefused] at hfails
      injection hfails with _ ht
      rw [hnull] at hnative
      refine ht ▸ ⟨halike, nofun, fun b hb => ?_⟩
      obtain rfl := Option.some.inj hb
      exact ⟨hclosed, hnative⟩
    | false =>
      have hadmits : u.Admits (some S) := by
        intro T hT
        obtain rfl := Option.some.inj hT
        exact Table.openAt_iff.2 ⟨c, hS, hclosed⟩
      have hplaced : (do
          let c ← scope S
          let new ← wrap c.engine h known
          attach (some S) new
          return new : Action (Session σ) ArrayId) u = .ok (u.lastId + 1)
            ((u.wrapped c.engine h known).placed (some S) (u.lastId + 1)) :=
        bind_ok.2 ⟨c, u, hscope, wrap_attach_eq hadmits c.engine h known⟩
      have htaken : Meets (· = u) (fromHandle S h known) (fun _ _ => True) (fun _ => False) :=
        meets_settled (F := fun _ => False) (.of_step (bind_of_ok hplaced)
          (.bind (Q := fun _ _ => True) (.modify fun _ _ => trivial)
            fun _ => .pure fun _ _ => trivial)) fun _ hs => hs.elim
      have hfalse := htaken u rfl
      rw [hfails] at hfalse
      exact hfalse.elim

end Session

section Engines

variable {u : Session σ} (hu : Sound (.dependable account) {} u) (hn : account u.native [])

include hu hn

theorem meets_build_untouched {library : Library σ} (hlib : library.Dependable account)
    (c : Configuration) (device : Device) :
    Meets (· = u) (Engine.build library c device) (fun _ _ => True) (Restored account u) := by
  have hcounted : ∀ s, Untouched account u [] s →
      Untouched account { u with lastId := u.lastId + 1 } [] { s with lastId := s.lastId + 1 } :=
    fun s hs => ⟨⟨hs.alike.scopes, hs.alike.scopeHolds, hs.alike.arrayHolds, hs.alike.arrays⟩,
      congrArg (· + 1) hs.lastId, hs.owned, hs.dependable⟩
  have hrestored : ∀ s, Untouched account { u with lastId := u.lastId + 1 } [] s →
      Restored account u s := fun s hs =>
    ⟨⟨hs.alike.scopes, hs.alike.scopeHolds, hs.alike.arrayHolds, hs.alike.arrays⟩, hs.owned⟩
  unfold Engine.build
  have hload := (keeps_onNative (I := Untouched account u []) hlib.accounted.load).start
    (.refl hu hn)
  refine (hload.imp (fun _ hs => hs) (fun _ _ hs => hs) fun _ hs => hs.restored).bind
    fun operators => ?_
  refine Meets.bind (Q := fun _ => Untouched account { u with lastId := u.lastId + 1 } [])
    (fun s hs => hcounted s hs) fun id => ?_
  refine Meets.bind (Q := fun _ _ => True) ?_ fun _ => ?_
  · cases c.randomSeed with
    | none => exact .pure fun _ _ => trivial
    | some seed =>
      exact (keeps_onNative (hlib.accounted.randomSeed seed)).imp (fun _ hs => hs)
        (fun _ _ _ => trivial) hrestored
  · exact .of_state fun t _ => (meets_newScope _ _ _ _).bind fun _ => .pure fun _ _ => trivial

def Operation.source? : Operation → Option ArrayId
  | toDevice id _ _ => some id
  | toType id _ _ => some id
  | _ => none

/-- What a failed operation leaves: all is as before, but for the target of a copy. -/
def Operation.Undone (account : σ → List Handle → Prop) (u : Session σ) (op : Operation)
    (t : Session σ) : Prop :=
  Restored account u t ∨ ∃ id, op.source? = some id ∧ LeftBehind account u id t

theorem Operation.fails_restored [HalfPrecision] {e : Engine σ}
    (he : e.loaded.library.Dependable account) (op : Operation) :
    Meets (· = u) (op.perform e) (fun _ _ => True) (op.Undone account u) := by
  have hlib := he.accounted
  have hrest : ∀ {α : Type} {a : Action (Session σ) α}, Traceless account u a →
      Meets (· = u) a (fun _ _ => True) (op.Undone account u) :=
    fun ha => (ha.start (.refl hu hn)).imp (fun _ hs => hs) (fun _ _ _ => trivial)
      fun _ hs => .inl hs.restored
  have hkept : ∀ {α : Type} {a : Action (Session σ) α}, Keeps (Untouched account u []) a →
      Meets (· = u) a (fun _ _ => True) (op.Undone account u) := fun ha => hrest (.of_keeps ha)
  have hcopied : ∀ {id : ArrayId} {a : Action (Session σ) ArrayId}, op.source? = some id →
      Meets (Untouched account u []) a (fun _ _ => True)
        (fun t => Restored account u t ∨ LeftBehind account u id t) →
      Meets (· = u) a (fun _ _ => True) (op.Undone account u) :=
    fun hid ha => (ha.start (.refl hu hn)).imp (fun _ hs => hs) (fun _ _ _ => trivial)
      fun _ hs => hs.imp_right fun hs => ⟨_, hid, hs⟩
  have hended : ∀ {a : Action (Session σ) Unit}, (∀ s, ∃ t, a s = .ok ⟨⟩ t) →
      Meets (· = u) (settled a) (fun _ _ => True) (op.Undone account u) :=
    fun ha => meets_settled (F := fun _ => False)
      (.of_state fun s _ => let ⟨t, ht⟩ := ha s; .of_eq ht trivial) fun _ hs => hs.elim
  cases op with
  | version => exact .map (hkept (keeps_onNative hlib.version))
  | gpuCount => exact .map (hkept (keeps_onNative hlib.gpuCount))
  | hasAccelerators =>
    refine .map (hkept (((keeps_onNative hlib.gpuCount).outcome
      (F := Untouched account u [])).bind fun r => ?_))
    cases r <;> exact .pure fun _ hs => hs
  | setRandomSeed seed => exact hkept (keeps_onNative (hlib.randomSeed seed))
  | baseScope d => exact .map (hrest (refused_subScope _ _))
  | subScope parent d => exact .map (hrest (refused_subScope parent d))
  | parentOf id => exact .map (R := fun _ _ => True) (hkept (keeps_parentOf id))
  | owns id a =>
    exact .map (hkept ((meets_scope id fun _ hs => hs).bind fun _ => .pure fun _ hs => hs.2))
  | cloneScope id =>
    exact hrest ((meets_scope id fun _ hs => hs).bind fun _ => .modify fun _ _ => trivial)
  | closeScope id => exact ((meets_closeScope_whole id).start hu).to_imp fun _ _ _ => trivial
  | dropScope id => exact (meets_dropScope id hu).to_imp fun _ _ _ => trivial
  | adopt target id => exact hrest (refused_adopt target id)
  | detach id => exact hended fun s => ⟨_, leave_eq s id⟩
  | closeArray id => exact hended fun s => ⟨_, retire_eq s id⟩
  | cloneArray id =>
    exact hrest ((meets_array id fun _ hs => hs).bind fun _ => .modify fun _ _ => trivial)
  | dropArray id => exact hended fun s => ⟨_, rfl⟩
  | create id s t => exact .map (hrest (traceless_create hu id s t))
  | createOn id v s t st => exact .map (hrest (traceless_createOn hu id v s t st))
  | filled op id s t => exact .map (hrest (traceless_filled hu op id s t))
  | fromValues id t values s => exact .map (hrest (traceless_fromValues hu id t values s))
  | shape id => exact .map (hkept (keeps_shape id))
  | type id => exact .map (hkept (keeps_type id))
  | device id => exact .map (hkept (keeps_device id))
  | storage id => exact .map (hkept (keeps_storage id))
  | description id => exact .map (hkept (keeps_description id))
  | setName id name => exact hkept (keeps_setName id name)
  | isReleased id =>
    exact .map (hkept (keeps_of_accounted (fun _ _ => .pure fun _ hs => hs) id))
  | markReady id => exact hkept (keeps_markReady id)
  | waitToRead id => exact hkept (keeps_waitToRead id)
  | waitToWrite id => exact hkept (keeps_waitToWrite id)
  | waitAll id => exact hkept (keeps_waitAll id)
  | set id t values => exact hkept (keeps_set id t values)
  | setBytes id bytes => exact hkept (keeps_setBytes id bytes)
  | toBytes id => exact .map (hkept (keeps_toBytes id))
  | toValues id t => exact .map (hkept (keeps_toValues id t))
  | toDoubles id => exact .map (hkept (keeps_toDoubles id))
  | dump id => exact .map (hkept (keeps_dump id))
  | invoke id op inputs params => exact .map (hrest (traceless_invoke hu id op inputs params))
  | copyTo source target =>
    exact hrest (traceless_settled hu (.of_keeps (keeps_copyInto source target)))
  | toDevice id target copy => exact .map (hcopied rfl (meets_toDevice_untouched hu id target copy))
  | toType id target copy => exact .map (hcopied rfl (meets_toType_untouched hu id target copy))
  | arithmetic op a b => exact .map (hrest (traceless_arithmetic hu op a b))
  | unary op params a => exact .map (hrest (traceless_unary hu op params a))
  | row a index => exact .map (hrest (traceless_row hu a index))
  | slice a first last => exact .map (hrest (traceless_slice hu a first last))
  | reshape a target => exact .map (hrest (traceless_reshape hu a target))
  | split a axis parts => exact .map (hrest (traceless_split hu a axis parts))
  | splitSqueeze a axis => exact .map (hrest (traceless_splitSqueeze hu a axis))
  | attachGrad a request st =>
    exact ((meets_attachGrad_untouched hu a request st).start (.refl hu hn)).or_left
  | backward a seed retain training => exact hkept (keeps_backward a seed retain training)
  | gradient a => exact .map (hrest (traceless_gradient hu a))
  | startRecording => exact .map (hkept (keeps_start hlib))
  | finishRecording recording training => exact hkept (keeps_finish hlib recording training)
  | recordedBackward a seed retain =>
    exact hkept (keeps_of_accounted (fun _ _ => .guard (fun _ hs => hs) fun _ =>
      keeps_backward a seed retain true) a)
  | dropEngine => exact ((meets_drop e).start hu).to_imp fun _ _ _ => trivial

end Engines
end ScopedTensor
