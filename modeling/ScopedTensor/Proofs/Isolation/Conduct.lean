import ScopedTensor.Proofs.Isolation.Tending

/-! Every operation keeps the handles of every library apart. An operation that takes several arrays
asks first whether they live in one engine. -/

namespace ScopedTensor

open ScopedTensor.Action Custody

variable {half : HalfPrecision}
variable {σ α β : Type} {C : Custody σ}

namespace Session

variable {W : Watch σ} {e : LoadedEngine σ} {passed : List Handle}

theorem tended_remembered {known : Tensor σ → Option α} {remember : α → Tensor σ → Tensor σ}
    {load : Library σ → Handle → Action σ α}
    (hremember : ∀ x a, (remember x a).owned = a.owned ∧ (remember x a).engine = a.engine)
    (hload : ∀ lib ∈ W.libraries, ∀ h, C.Uses W.libraries lib [h] (load lib h)) (id : ArrayId) :
    Keeps (Tended C W) (remembered known remember load id) := by
  refine tended_of_array (fun a _ => ?_) id
  cases known a with
  | some x => exact keeps_pure _
  | none =>
    refine (tended_handle id).bind fun h => (tended_use (fun lib hlib => hload lib hlib h) id).bind
      fun x => ?_
    exact (tended_modifyArray id (hremember x)).bind fun _ => keeps_pure _

theorem tended_shape (id : ArrayId) : Keeps (Tended C W) (shape id) :=
  tended_remembered (fun _ _ => by exact ⟨rfl, rfl⟩)
    (fun _ hlib h => C.serves hlib (.shape h) rfl (g := .shape) rfl) id

theorem tended_type (id : ArrayId) : Keeps (Tended C W) (type id) :=
  tended_remembered (fun _ _ => by exact ⟨rfl, rfl⟩)
    (fun _ hlib h => C.serves hlib (.type h) rfl (g := .type) rfl) id

theorem tended_device (id : ArrayId) : Keeps (Tended C W) (device id) :=
  tended_remembered (fun _ _ => by exact ⟨rfl, rfl⟩)
    (fun _ hlib h => C.serves hlib (.device h) rfl (g := .device) rfl) id

theorem tended_storage (id : ArrayId) : Keeps (Tended C W) (storage id) :=
  tended_remembered (fun _ _ => by exact ⟨rfl, rfl⟩)
    (fun _ hlib h => C.serves hlib (.storage h) rfl (g := .storage) rfl) id

theorem tended_size (id : ArrayId) : Keeps (Tended C W) (size id) :=
  (tended_shape id).bind fun _ => keeps_pure _

theorem tended_description (id : ArrayId) : Keeps (Tended C W) (description id) :=
  (tended_shape id).bind fun _ => (tended_type id).bind fun _ => (tended_device id).bind fun _ =>
    (tended_storage id).bind fun _ => tended_of_array (fun _ _ => keeps_pure _) id

theorem tended_waitBy {wait : Readiness → Library σ → Action σ Readiness}
    (hwait : ∀ r, ∀ lib ∈ W.libraries, C.Uses W.libraries lib passed (wait r lib)) (id : ArrayId) :
    Meets (fun s => Tended C W s ∧ ∀ h ∈ passed, s.Lends id h) (waitBy wait id)
      (fun _ => Tended C W) (Tended C W) :=
  (meets_array id fun _ hs => hs.1).bind fun a =>
    ((tended_use (hwait a.readiness) id).of_imp fun _ hs => hs.2).bind fun _ =>
      tended_modifyArray id fun _ => by exact ⟨rfl, rfl⟩

theorem tended_waitToRead (id : ArrayId) : Keeps (Tended C W) (waitToRead id) :=
  (tended_handle id).bind fun h => tended_waitBy (fun r _ hlib => uses_wait r
    (C.serves hlib (.waitToRead h) rfl (g := fun _ => .done) rfl)) id

theorem tended_waitToWrite (id : ArrayId) : Keeps (Tended C W) (waitToWrite id) :=
  (tended_handle id).bind fun h => tended_waitBy (fun r _ hlib => uses_wait r
    (C.serves hlib (.waitToWrite h) rfl (g := fun _ => .done) rfl)) id

theorem tended_waitAll (id : ArrayId) : Keeps (Tended C W) (waitAll id) := by
  have hall : ∀ lib ∈ W.libraries, C.Uses W.libraries lib [] (Readiness.waitAll lib) :=
    fun lib hlib => Serves.bind (C.serves hlib .waitAll rfl (g := fun _ => .done) rfl)
      fun _ => uses_pure _
  exact (tended_handle id).bind fun h => (tended_waitBy (fun _ => hall) id).of_imp
    fun s hs => ⟨hs.1, nofun⟩

theorem tended_markReady (id : ArrayId) : Keeps (Tended C W) (markReady id) :=
  tended_modifyArray id fun _ => by exact ⟨rfl, rfl⟩

theorem tended_setBytes (id : ArrayId) (bytes : Bytes) :
    Keeps (Tended C W) (setBytes id bytes) := by
  refine (tended_size id).bind fun n => (tended_type id).bind fun t => ?_
  refine .guard (fun _ hs => hs) fun _ => (tended_handle id).bind fun h => ?_
  exact (tended_use (fun _ hlib =>
    C.serves hlib (.copyIn h bytes n) rfl (g := fun _ => .done) rfl) id).bind fun _ =>
      tended_markReady id

theorem tended_toBytes (id : ArrayId) : Keeps (Tended C W) (toBytes id) := by
  refine (tended_size id).bind fun n => (tended_type id).bind fun t => ?_
  refine (tended_handle id).bind fun h => (tended_use (fun _ hlib =>
    C.serves hlib (.copyOut h (t.storageBytes n) n) rfl (g := .bytes) rfl) id).bind fun _ => ?_
  exact (tended_markReady id).bind fun _ => keeps_pure _

theorem tended_set (id : ArrayId) (t : HostType) (values : List (HostValue t)) :
    Keeps (Tended C W) (set id t values) :=
  (tended_type id).bind fun _ => .guard (fun _ hs => hs) fun _ => tended_setBytes id _

theorem tended_toValues (id : ArrayId) (t : HostType) : Keeps (Tended C W) (toValues id t) :=
  (tended_type id).bind fun _ => .guard (fun _ hs => hs) fun _ =>
    (tended_toBytes id).bind fun _ => keeps_pure _

theorem tended_toDoubles (id : ArrayId) : Keeps (Tended C W) (toDoubles id) :=
  (tended_type id).bind fun _ => (tended_toBytes id).bind fun _ => keeps_pure _

theorem tended_dump (id : ArrayId) : Keeps (Tended C W) (dump id) := by
  refine (tended_shape id).bind fun s => (tended_type id).bind fun t => ?_
  refine (tended_device id).bind fun v => .ite (fun _ => keeps_pure _) fun _ => ?_
  refine (tended_handle id).bind fun h => ?_
  exact (tended_use (fun _ hlib => uses_level hlib t s.dims 0 h) id).bind fun _ => keeps_pure _

theorem tended_run (he : e ∈ W.roster) (op : String) (inputs : List Handle) (params : Params)
    {J : Session σ → Prop}
    (hJ : ∀ s, J s → Tended C W s ∧ ∀ h ∈ inputs, (e.library, h) ∈ s.arrays.custody) :
    Meets J (run e op inputs none params) (fun hs => Tended C (W.owe e.library hs))
      (Tended C W) := by
  refine (tended_onNative (serves_invoke (Watch.mem_libraries he) e.operators op inputs none
    params)).of_imp fun s hs => ?_
  simpa using hJ s hs

theorem tended_operands (id : ArrayId) (inputs : List ArrayId) :
    Meets (Tended C W) (inputs.mapM fun input => do
      requireSameEngine .foreignOperand id input
      handle input)
      (fun hs s => Tended C W s ∧ ∀ h ∈ hs, s.Lends id h) (Tended C W) := by
  have hall := Meets.mapM (f := fun input => do
      requireSameEngine .foreignOperand id input
      handle input)
    (I := fun _ hs s => Tended C W s ∧ ∀ h ∈ hs, s.Lends id h) (E := Tended C W)
    (fun input _ hs => ?_) inputs []
  · exact hall.of_imp fun s hs => ⟨hs, nofun⟩
  · refine ((meets_requireSameEngine .foreignOperand id input).imp (fun _ hs => hs)
      (fun _ _ hs => hs) fun s hs => hs.1).bind fun _ =>
        (tended_lent id input).to_imp fun h s hs' => ?_
    obtain ⟨hh, hs, hlent⟩ := hs'
    refine ⟨hs, fun x hx => ?_⟩
    rcases List.mem_append.1 hx with hx | hx
    · exact hlent x hx
    · exact List.mem_singleton.1 hx ▸ hh

theorem tended_outputsOf (id : ArrayId) (op : String) (inputs : List ArrayId) (params : Params) :
    Meets (Tended C W) (outputsOf id op inputs params) (Beside C W id) (Tended C W) := by
  refine (tended_operands id inputs).bind fun handles => ?_
  refine (meets_array id fun _ hs => hs.1).bind fun a => .of_state fun t ⟨ha, ht, hlent⟩ => ?_
  have he := ht.arrays id a ha
  refine ((tended_run (W := W.pin [id] a.engine) he op handles params (J := (· = t))
    fun s hs => ?_).imp (fun _ hs => hs) (fun _ _ hs => hs) fun _ hs => hs.unpin).bind
      fun outputs => ?_
  · rw [hs]
    exact ⟨ht.pin ha, fun h hh => (hlent h hh).mem_custody ha⟩
  · refine (tended_wrapAll (W := W.pin [id] a.engine) he a.owner none outputs).imp
      (fun _ hs => hs) (fun ids s hs => ?_) fun _ hs => hs.unpin
    refine ⟨a.engine, he, hs.mono rfl (List.Subset.refl _) (fun p hp => ?_) (List.Subperm.refl _)⟩
    simpa [Watch.pin, or_left_comm] using hp

theorem beside_of_keeps {f : Action (Session σ) α} {id : ArrayId} {ids : List ArrayId}
    (hf : ∀ W : Watch σ, Keeps (Tended C W) f) :
    Meets (Beside C W id ids) f (fun _ => Beside C W id ids) (Tended C W) := fun s ⟨e, he, hs⟩ =>
  ((hf (W.pin (id :: ids) e)).imp (fun _ hs => hs) (fun _ _ hs => ⟨e, he, hs⟩)
    fun _ hs => hs.unpin) s hs

theorem tended_outputOf (id : ArrayId) (op : String) (inputs : List ArrayId) (params : Params) :
    Meets (Tended C W) (outputOf id op inputs params) (fun out => Beside C W id [out])
      (Tended C W) := by
  refine (tended_outputsOf id op inputs params).bind fun ids => ?_
  cases ids with
  | nil => exact .throw fun _ hs => hs.tended
  | cons out others =>
    refine Meets.bind (beside_of_keeps fun W => Keeps.forM tended_letGo others) fun _ =>
      .pure fun s ⟨e, he, hs⟩ => ⟨e, he, hs.repin ?_⟩
    exact List.cons_subset_cons _ (List.cons_subset_cons _ (List.nil_subset _))

theorem tended_sibling (id : ArrayId) (device : Device) (shape : Shape) (type : ElementType)
    (storage : Storage) :
    Meets (Tended C W) (sibling id device shape type storage) (fun new => Beside C W id [new])
      (Tended C W) := by
  have hcreate : ∀ lib ∈ W.libraries, C.Serves W.libraries lib []
      (lib.create device shape type storage false) fun h => [h] := fun lib hlib =>
    C.serves hlib (.create device shape type storage false) rfl (g := .handle) rfl
  refine ((tended_callFor hcreate id).of_imp fun s hs => ⟨hs, nofun⟩).bind
    fun h s ⟨e, he, hs⟩ => ?_
  exact tended_joinScope he id h _ s hs

theorem lends_pinned {ids : List ArrayId} {s : Session σ} {i j : ArrayId} {a b : Tensor σ}
    {h : Handle} (hs : Tended C (W.pin ids e) s) (hi : i ∈ ids) (hj : j ∈ ids)
    (ha : s.arrays.get? i = some a) (hb : s.arrays.get? j = some b) (hh : b.owned.get = .ok h) :
    s.Lends i h :=
  ⟨a, j, b, ha, hb, (hs.engine_eq hj hb).trans (hs.engine_eq hi ha).symm, hh⟩

theorem tended_copyInto (source target : ArrayId) :
    Keeps (Tended C W) (copyInto source target) := by
  have hcopy : ∀ e ∈ W.roster, Meets (Tended C (W.pin [source, target] e)) (do
      let s ← shape source
      let t ← shape target
      if s ≠ t then throw (.invalid (.copyShapes s t))
      let th ← handle target
      let sh ← handle source
      let _ ← run (← array source).engine "_copyto" [sh] (some [th]) .empty)
      (fun _ => Tended C W) (Tended C W) := by
    -- Both arrays are pinned to the engine they have in common for as long as their handles are in
    -- use.
    intro e he
    refine Meets.imp (Q := fun _ => Tended C (W.pin [source, target] e))
      (E := Tended C (W.pin [source, target] e)) ?_ (fun _ hs => hs) (fun _ _ hs => hs.unpin)
      fun _ hs => hs.unpin
    refine (tended_shape source).bind fun s => (tended_shape target).bind fun t => ?_
    refine .guard (fun _ hs => hs) fun _ => (meets_handle target).bind fun th => ?_
    refine ((meets_handle source).imp (fun _ hs => hs) (fun _ _ hs => hs) fun _ hs => hs.2).bind
      fun sh => ?_
    refine (meets_array source fun _ hs => hs.2.2).bind fun a => .of_state fun u hu => ?_
    obtain ⟨ha, ⟨a', ha', hsh⟩, ⟨b, hb, hth⟩, hu⟩ := hu
    obtain rfl : a' = a := Option.some.inj (ha'.symm.trans ha)
    have hcall := tended_onNative (C := C) (W := W.pin [source, target] e) (serves_invoke
      (Watch.mem_libraries (hu.arrays source a' ha)) a'.engine.operators "_copyto" [sh] (some [th])
      .empty)
    refine Meets.bind ((hcall.start ⟨hu, fun h hh => ?_⟩).to_imp fun _ _ hs => hs.settle) fun _ =>
      .pure fun _ hs => hs
    have htarget := lends_pinned hu (by simp) (by simp) ha hb hth
    rcases List.mem_cons.1 hh with rfl | hh
    · exact (lends_self ha hsh).mem_custody ha
    · exact List.mem_singleton.1 hh ▸ htarget.mem_custody ha
  refine (meets_requireSameEngine _ source target).bind fun _ => .of_state fun s hs => ?_
  obtain ⟨⟨a, b, ha, hb, hid⟩, hs⟩ := hs
  refine (hcopy a.engine (hs.arrays source a ha)).start ?_
  have hpinned := (hs.pin ha).pin hb
  rw [hs.together ha hb hid] at hpinned
  exact hpinned.mono rfl (List.Subset.refl _)
    (fun p hp => by simpa [Watch.pin, or_left_comm] using hp) (List.Subperm.refl _)

theorem tended_copyAs (id : ArrayId) (device : Device) (shape : Shape) (type : ElementType)
    (storage : Storage) : Keeps (Tended C W) (copyAs id device shape type storage) :=
  (tended_sibling id device shape type storage).bind fun target =>
    Meets.bind ((tended_copyInto id target).of_imp fun _ hs => hs.tended) fun _ => keeps_pure _

theorem tended_toDevice (id : ArrayId) (target : Device) (copy : Bool) :
    Keeps (Tended C W) (toDevice id target copy) := by
  have hcopy : Keeps (Tended C W) (do
      let s ← shape id
      let t ← type id
      copyAs id target s t (← storage id)) :=
    (tended_shape id).bind fun s => (tended_type id).bind fun t => (tended_storage id).bind
      fun st => tended_copyAs id target s t st
  exact tended_keeping (.ite (fun _ => (tended_device id).bind fun _ =>
    .ite (fun _ => keeps_pure _) fun _ => hcopy) fun _ => hcopy)

theorem tended_toType (id : ArrayId) (target : ElementType) (copy : Bool) :
    Keeps (Tended C W) (toType id target copy) := by
  have hcopy : Keeps (Tended C W) (do
      let d ← device id
      let s ← shape id
      copyAs id d s target (← storage id)) :=
    (tended_device id).bind fun d => (tended_shape id).bind fun s => (tended_storage id).bind
      fun st => tended_copyAs id d s target st
  exact tended_keeping (.ite (fun _ => (tended_type id).bind fun _ =>
    .ite (fun _ => keeps_pure _) fun _ => hcopy) fun _ => hcopy)

theorem tended_unary (op : String) (params : Params) (a : ArrayId) (inputs : List ArrayId) :
    Keeps (Tended C W) (outputOf a op inputs params) :=
  (tended_outputOf a op inputs params).to_imp fun _ _ hs => hs.tended

theorem tended_invoke (id : ArrayId) (op : String) (inputs : List ArrayId) (params : Params) :
    Keeps (Tended C W) (outputsOf id op inputs params) :=
  (tended_outputsOf id op inputs params).to_imp fun _ _ hs => hs.tended

theorem tended_arithmetic (op : String) (a b : ArrayId) :
    Keeps (Tended C W) (arithmetic op a b) := by
  refine tended_keeping ((tended_shape a).bind fun _ => (tended_shape b).bind fun _ => ?_)
  refine .guard (fun _ hs => hs) fun _ => (tended_type a).bind fun _ => ?_
  exact (tended_type b).bind fun _ => .guard (fun _ hs => hs) fun _ => tended_unary op _ a _

theorem tended_view (a : ArrayId) {make : Library σ → Handle → Action σ Handle}
    (hmake : ∀ lib ∈ W.libraries, ∀ h, C.Serves W.libraries lib [h] (make lib h) fun v => [v]) :
    Keeps (Tended C W) (view a make) := by
  refine (tended_handle a).bind fun h => (tended_callFor (fun lib hlib => hmake lib hlib h) a).bind
    fun v s ⟨e, he, hs⟩ => ?_
  exact ((tended_joinScope he a v none).to_imp fun _ _ hs => hs.tended) s hs

theorem tended_row (a : ArrayId) (index : Nat) : Keeps (Tended C W) (row a index) :=
  tended_keeping ((tended_shape a).bind fun _ => .guard (fun _ hs => hs) fun _ =>
    tended_view a fun _ hlib h => C.serves hlib (.row h index) rfl (g := .handle) rfl)

theorem tended_slice (a : ArrayId) (first last : Nat) : Keeps (Tended C W) (slice a first last) :=
  tended_keeping ((tended_shape a).bind fun _ => .guard (fun _ hs => hs) fun _ =>
    tended_view a fun _ hlib h => C.serves hlib (.slice h first last) rfl (g := .handle) rfl)

theorem tended_reshape (a : ArrayId) (target : List Int) :
    Keeps (Tended C W) (reshape a target) :=
  tended_keeping ((tended_shape a).bind fun _ => .guard (fun _ hs => hs) fun _ =>
    tended_view a fun _ hlib h => C.serves hlib (.reshape h target false) rfl (g := .handle) rfl)

theorem tended_split (a : ArrayId) (axis : Int) (parts : Nat) :
    Keeps (Tended C W) (split a axis parts) :=
  tended_keepingAll (.guard (fun _ hs => hs) fun _ => tended_invoke a "split" [a] _)

theorem tended_splitSqueeze (a : ArrayId) (axis : Int) :
    Keeps (Tended C W) (splitSqueeze a axis) := by
  refine tended_keepingAll ((tended_shape a).bind fun s => ?_)
  cases s.axis? axis with
  | none => exact keeps_throw _
  | some i => exact tended_invoke a "split" [a] _

theorem tended_requireOpen {f : Scope σ → Action (Session σ) β}
    (hf : ∀ c, c.engine ∈ W.roster → Keeps (Tended C W) (f c)) (S : ScopeId) :
    Keeps (Tended C W) (requireOpen S >>= f) := by
  have hopen : Meets (Tended C W) (requireOpen S)
      (fun c s => c.engine ∈ W.roster ∧ Tended C W s) (Tended C W) :=
    (meets_scope S fun _ hs => hs).bind fun c => .guard (fun _ hs => hs.2) fun _ =>
      .pure fun s hs => ⟨hs.2.scopes S c hs.1, hs.2⟩
  exact hopen.bind fun c s hs => hf c hs.1 s hs.2

theorem tended_createdOn (S : ScopeId) (device : Device) (shape : Shape) (type : ElementType)
    (storage : Storage) : Keeps (Tended C W) (createdOn S device shape type storage) := by
  refine tended_requireOpen (fun c hc => ?_) S
  have hcreate : C.Serves W.libraries c.engine.library []
      (c.engine.library.create device shape type storage false) fun h => [h] :=
    C.serves (Watch.mem_libraries hc) (.create device shape type storage false) rfl (g := .handle)
      rfl
  refine ((tended_onNative hcreate).of_imp fun _ hs => ⟨hs, nofun⟩).bind fun h => ?_
  refine (tended_wrap hc h _).bind fun new => ?_
  exact Meets.bind ((tended_attach (some S) new).of_imp fun _ hs => hs.unpin) fun _ => keeps_pure _

theorem tended_create (S : ScopeId) (shape : Shape) (type : ElementType) :
    Keeps (Tended C W) (create S shape type) :=
  tended_keeping (tended_of_scope (fun c _ => tended_createdOn S c.device shape type .dense) S)

theorem tended_filled (op : String) (S : ScopeId) (shape : Shape) (type : ElementType) :
    Keeps (Tended C W) (filled op S shape type) := by
  refine tended_keeping (tended_requireOpen (fun c hc => ?_) S)
  refine (tended_run hc op [] _ fun _ hs => ⟨hs, nofun⟩).bind fun handles => ?_
  refine (tended_wrapAll hc (some S) _ handles).bind fun ids => ?_
  cases ids.getLast? with
  | none => exact .throw fun _ hs => hs.unpin
  | some out => exact .pure fun _ hs => hs.unpin

theorem tended_fromValues (S : ScopeId) (t : HostType) (values : List (HostValue t))
    (shape : Shape) : Keeps (Tended C W) (fromValues S t values shape) := by
  refine tended_keeping (.guard (fun _ hs => hs) fun _ => tended_of_scope (fun c _ => ?_) S)
  exact (tended_createdOn S c.device shape t.element .dense).bind fun new =>
    (tended_set new t values).bind fun _ => keeps_pure _

theorem tended_gradientBuffer (a : ArrayId) (storage : Option Storage) :
    Meets (Tended C W) (gradientBuffer a storage) (fun g => Beside C W a [g]) (Tended C W) := by
  unfold gradientBuffer
  cases storage.filter Storage.isSparse with
  | none => exact tended_outputOf a "zeros_like" [a] .empty
  | some format =>
    exact (tended_device a).bind fun d => (tended_shape a).bind fun s => (tended_type a).bind
      fun t => tended_sibling a d s t format

theorem tended_attachGrad (a : ArrayId) (request : GradRequest) (storage : Option Storage) :
    Keeps (Tended C W) (attachGrad a request storage) := by
  refine tended_settled ((tended_gradientBuffer a storage).bind fun g s ⟨e, he, hs⟩ => ?_)
  refine Meets.imp (P := Tended C (W.pin [a, g] e)) (Q := fun _ => Tended C (W.pin [a, g] e))
    (E := Tended C (W.pin [a, g] e)) ?_ (fun _ hs => hs) (fun _ _ hs => hs.unpin)
    (fun _ hs => hs.unpin) s hs
  refine (meets_handle a).bind fun ah => ?_
  refine ((meets_handle g).imp (fun _ hs => hs) (fun _ _ hs => hs) fun _ hs => hs.2).bind
    fun gh => ?_
  have hmark := tended_use (W := W.pin [a, g] e) (fun lib hlib => C.serves hlib
    (.markVariables [ah] [request] [gh]) rfl (g := fun _ => .done) rfl) a
  have hlent : ∀ s : Session σ, (∃ y, s.arrays.get? g = some y ∧ y.owned.get = .ok gh) ∧
      (∃ x, s.arrays.get? a = some x ∧ x.owned.get = .ok ah) ∧ Tended C (W.pin [a, g] e) s →
      Tended C (W.pin [a, g] e) s ∧ ∀ h ∈ [ah, gh], s.Lends a h := by
    rintro s ⟨⟨y, hy, hgh⟩, ⟨x, hx, hah⟩, hs⟩
    refine ⟨hs, fun h hh => ?_⟩
    rcases List.mem_cons.1 hh with rfl | hh
    · exact lends_self hx hah
    · exact List.mem_singleton.1 hh ▸ lends_pinned hs (by simp) (by simp) hx hy hgh
  refine ((hmark.of_imp hlent).outcome (F := Tended C (W.pin [a, g] e))).bind fun r => ?_
  cases r with
  | error x => exact (tended_retire g).bind fun _ => keeps_throw x
  | ok =>
    refine tended_of_array (fun x _ => (tended_modifyArray a fun _ => by
      exact ⟨rfl, rfl⟩).bind fun _ => ?_) a
    exact Meets.forM_option tended_retire x.gradient

theorem tended_backward (a : ArrayId) (seed : Option ArrayId) (retain training : Bool) :
    Keeps (Tended C W) (backward a seed retain training) := by
  have hcall : ∀ g : Option Handle, Meets (fun s => Tended C W s ∧ ∀ h ∈ g, s.Lends a h) (do
      let h ← handle a
      callFor a fun lib => lib.backward [h] [g] retain training)
      (fun _ => Tended C W) (Tended C W) := by
    intro g
    refine ((meets_handle a).imp (fun _ hs => hs) (fun _ _ hs => hs) fun _ hs => hs.1).bind
      fun h => ?_
    refine (tended_use (fun _ hlib => C.serves hlib (.backward [h] [g] retain training) rfl
      (g := fun _ => .done) rfl) a).of_imp fun s ⟨⟨x, hx, hh⟩, hs, hg⟩ => ⟨hs, fun y hy => ?_⟩
    rcases List.mem_cons.1 hy with rfl | hy
    · exact lends_self hx hh
    · cases g with
      | none => exact absurd hy (List.not_mem_nil)
      | some g => exact hg y (List.mem_singleton.1 hy ▸ rfl)
  cases seed with
  | none => exact (hcall none).of_imp fun _ hs => ⟨hs, nofun⟩
  | some g =>
    refine (meets_requireSameEngine _ a g).bind fun _ => ?_
    refine Meets.bind (Q := fun x s => Tended C W s ∧ ∀ h ∈ x, s.Lends a h) (.map ?_) hcall
    refine (tended_lent (J := fun _ => True) a g).imp (fun _ hs => ⟨hs.1, hs.2, trivial⟩)
      (fun h s hs => ⟨hs.2.1, fun z hz => ?_⟩) fun _ hs => hs
    exact Option.some.inj hz ▸ hs.1

theorem tended_gradient (a : ArrayId) : Keeps (Tended C W) (gradient a) := by
  refine tended_keeping ((tended_handle a).bind fun h => ?_)
  refine (tended_callFor (fun _ hlib => C.serves hlib (.getGrad h) rfl (g := .gradient) rfl)
    a).bind fun g => ?_
  cases g with
  | none => exact .throw fun _ ⟨_, _, hs⟩ => hs.settle.unpin
  | some g =>
    exact fun s ⟨e, he, hs⟩ => ((tended_joinScope he a g none).to_imp
      fun _ _ hs => hs.tended) s hs

end Session

open Session

theorem Operation.tended_perform [HalfPrecision] {W : Watch σ} {e : Engine σ}
    (he : e.loaded ∈ W.roster) (op : Operation) : Keeps (Tended C W) (op.perform e) := by
  have hlib := Watch.mem_libraries he
  cases op with
  | version => exact .map (tended_call (C.serves hlib .version rfl (g := .text) rfl))
  | gpuCount => exact .map (tended_call (C.serves hlib .gpuCount rfl (g := .count) rfl))
  | hasAccelerators =>
    have hcount : Keeps (Tended C W) e.gpuCount :=
      tended_call (C.serves hlib .gpuCount rfl (g := .count) rfl)
    refine .map ((hcount.outcome (F := Tended C W)).bind fun r => ?_)
    cases r <;> exact keeps_pure _
  | setRandomSeed seed =>
    exact tended_call (C.serves hlib (.randomSeed seed) rfl (g := fun _ => .done) rfl)
  | baseScope d => exact .map (tended_subScope _ _)
  | subScope parent d => exact .map (tended_subScope parent d)
  | parentOf id => exact .map (keeps_parentOf id)
  | owns id a => exact .map (tended_of_scope (fun _ _ => keeps_pure _) id)
  | cloneScope id => exact tended_of_scope (fun _ _ => tended_holdScope id) id
  | closeScope id => exact tended_closeScope id
  | dropScope id => exact tended_dropScope id
  | adopt target id => exact tended_adopt target id
  | detach id => exact tended_settled (tended_leave id)
  | closeArray id => exact tended_settled (tended_retire id)
  | cloneArray id => exact tended_of_array (fun _ _ => tended_holdArray id) id
  | dropArray id => exact tended_settled (.modify fun _ hs => { hs with })
  | create id s t => exact .map (tended_create id s t)
  | createOn id v s t st => exact .map (tended_keeping (tended_createdOn id v s t st))
  | filled op id s t => exact .map (tended_filled op id s t)
  | fromValues id t values s => exact .map (tended_fromValues id t values s)
  | shape id => exact .map (tended_shape id)
  | type id => exact .map (tended_type id)
  | device id => exact .map (tended_device id)
  | storage id => exact .map (tended_storage id)
  | description id => exact .map (tended_description id)
  | setName id name => exact tended_modifyArray id fun _ => by exact ⟨rfl, rfl⟩
  | isReleased id => exact .map (tended_of_array (fun _ _ => keeps_pure _) id)
  | markReady id => exact tended_markReady id
  | waitToRead id => exact tended_waitToRead id
  | waitToWrite id => exact tended_waitToWrite id
  | waitAll id => exact tended_waitAll id
  | set id t values => exact tended_set id t values
  | setBytes id bytes => exact tended_setBytes id bytes
  | toBytes id => exact .map (tended_toBytes id)
  | toValues id t => exact .map (tended_toValues id t)
  | toDoubles id => exact .map (tended_toDoubles id)
  | dump id => exact .map (tended_dump id)
  | invoke id op inputs params =>
    exact .map (tended_keepingAll (tended_invoke id op inputs params))
  | copyTo source target => exact tended_settled (tended_copyInto source target)
  | toDevice id target copy => exact .map (tended_toDevice id target copy)
  | toType id target copy => exact .map (tended_toType id target copy)
  | arithmetic op a b => exact .map (tended_arithmetic op a b)
  | unary op params a => exact .map (tended_keeping (tended_unary op params a [a]))
  | row a index => exact .map (tended_row a index)
  | slice a first last => exact .map (tended_slice a first last)
  | reshape a target => exact .map (tended_reshape a target)
  | split a axis parts => exact .map (tended_split a axis parts)
  | splitSqueeze a axis => exact .map (tended_splitSqueeze a axis)
  | attachGrad a request st => exact tended_attachGrad a request st
  | backward a seed retain training => exact tended_backward a seed retain training
  | gradient a => exact .map (tended_gradient a)
  | startRecording => exact .map (tended_call (uses_start hlib))
  | finishRecording recording training => exact tended_call (uses_finish hlib recording training)
  | recordedBackward a seed retain =>
    exact tended_of_array (fun _ _ => .guard (fun _ hs => hs) fun _ =>
      tended_backward a seed retain true) a
  | dropEngine => exact (tended_closeScope _).bind fun _ => tended_dropScope _

end ScopedTensor
