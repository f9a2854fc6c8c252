import ScopedTensor.Proofs.Operations.Moves

/-! Every operation is made of moves. An array is known at once when the call that made it said what
it was to be, else an engine is asked about it later. -/

namespace ScopedTensor

open ScopedTensor.Action

variable {half : HalfPrecision}
variable {σ α β : Type}

namespace Session

variable {M : Mandate σ} {s₀ s t : Session σ} {e : LoadedEngine σ} {E : Session σ → Prop}

theorem works_remembered (t : Trait) {known : Tensor σ → Option α}
    {remember : α → Tensor σ → Tensor σ} {load : Library σ → Handle → Action σ α}
    {answer : α → Library.Answer} (hknown : ∀ a, t.known a = (known a).map answer)
    (hremember : ∀ x, remember x = Tensor.learn (answer x))
    (hload : ∀ (lib : Library σ) h, (t.call h).perform lib = answer <$> load lib h) (id : ArrayId) :
    Keeps (Work M s₀) (remembered known remember load id) := by
  refine (meets_array id fun _ hs => hs).bind fun a => ?_
  cases hk : known a with
  | some x => exact .pure fun _ hs => hs.2
  | none =>
    refine ((meets_handle id).imp (fun _ hs => hs) (fun _ _ hs => hs) fun _ hs => hs.2).bind
      fun h u ⟨⟨b, hb, hh⟩, ha, hu⟩ => ?_
    obtain rfl : b = a := Option.some.inj (hb.symm.trans ha)
    obtain ⟨hopen, rfl⟩ := OwnedHandle.get_eq_ok.1 hh
    have hengine := hu.arrays id b hb
    have hunknown : t.known b = none := by rw [hknown, hk, Option.map_none]
    -- The engine is asked: its answer is learnt, and even a failure was a call.
    cases hr : load b.engine.library b.owned.handle u.native with
    | ok x n =>
      have hcall : callFor id (fun lib => load lib b.owned.handle) u = .ok x { u with native := n } :=
        (bind_of_ok (array_eq hb)).trans (onNative_ok hr)
      have hanswer : (t.call b.owned.handle).perform b.engine.library u.native =
          .ok (answer x) n := by
        rw [hload]
        exact bind_of_ok hr
      rw [bind_of_ok hcall]
      show Work M s₀ { u with native := n, arrays := u.arrays.modify id (remember x) }
      rw [hremember]
      exact hu.move (.learned hb hengine hopen hunknown hanswer)
    | error x n =>
      have hcall : callFor id (fun lib => load lib b.owned.handle) u =
          .error x { u with native := n } :=
        (bind_of_ok (array_eq hb)).trans (onNative_error hr)
      have hasked : M.Reach b.engine.library u.native n := by
        have hquestion : Calls M b.engine.library (load b.engine.library b.owned.handle) :=
          M.call (t.call b.owned.handle) (hload _ _) (t.marks_call _)
        have hafter := hquestion.after (s := u.native) .refl
        rwa [after_error hr] at hafter
      rw [bind_error hcall]
      exact hu.move (.called hengine hasked)

theorem works_shape (id : ArrayId) : Keeps (Work M s₀) (shape id) :=
  works_remembered .shape (fun _ => rfl) (fun _ => rfl) (fun _ _ => rfl) id

theorem works_type (id : ArrayId) : Keeps (Work M s₀) (type id) :=
  works_remembered .type (fun _ => rfl) (fun _ => rfl) (fun _ _ => rfl) id

theorem works_device (id : ArrayId) : Keeps (Work M s₀) (device id) :=
  works_remembered .device (fun _ => rfl) (fun _ => rfl) (fun _ _ => rfl) id

theorem works_storage (id : ArrayId) : Keeps (Work M s₀) (storage id) :=
  works_remembered .storage (fun _ => rfl) (fun _ => rfl) (fun _ _ => rfl) id

theorem works_size (id : ArrayId) : Keeps (Work M s₀) (size id) :=
  (works_shape id).bind fun _ => keeps_pure _

theorem works_description (id : ArrayId) : Keeps (Work M s₀) (description id) :=
  (works_shape id).bind fun _ => (works_type id).bind fun _ => (works_device id).bind fun _ =>
    (works_storage id).bind fun _ => works_of_array (fun _ _ => keeps_pure _) id

theorem works_waitBy {wait : Readiness → Library σ → Action σ Readiness}
    (hwait : ∀ r lib, Calls M lib (wait r lib)) (id : ArrayId) :
    Keeps (Work M s₀) (waitBy wait id) :=
  works_of_array (fun a _ => (works_callFor (hwait a.readiness) id).bind fun _ =>
    works_modifyArray id fun _ => by rfl) id

theorem works_waitToRead (id : ArrayId) : Keeps (Work M s₀) (waitToRead id) :=
  (works_handle id).bind fun h => works_waitBy (fun r _ => Mandate.wait r
    (M.call (.waitToRead h) (g := fun _ => .done) rfl rfl)) id

theorem works_waitToWrite (id : ArrayId) : Keeps (Work M s₀) (waitToWrite id) :=
  (works_handle id).bind fun h => works_waitBy (fun r _ => Mandate.wait r
    (M.call (.waitToWrite h) (g := fun _ => .done) rfl rfl)) id

theorem works_waitAll (id : ArrayId) : Keeps (Work M s₀) (waitAll id) :=
  (works_handle id).bind fun _ => works_waitBy (fun _ _ =>
    (M.call .waitAll (g := fun _ => .done) rfl rfl).bind fun _ => .pure _) id

theorem works_markReady (id : ArrayId) : Keeps (Work M s₀) (markReady id) :=
  works_modifyArray id fun _ => by rfl

theorem works_requireSameEngine (refusal : Refusal) (i j : ArrayId) :
    Keeps (Work M s₀) (requireSameEngine refusal i j) := by
  have hsame : Keeps (Work M s₀) (sameEngine i j) :=
    works_of_array (fun _ _ => works_of_array (fun _ _ => keeps_pure _) j) i
  exact hsame.bind fun _ => .ite (fun _ => keeps_throw _) fun _ => keeps_pure _

theorem works_setBytes (id : ArrayId) (bytes : Bytes) : Keeps (Work M s₀) (setBytes id bytes) := by
  refine (works_size id).bind fun n => (works_type id).bind fun t => ?_
  refine .guard (fun _ hs => hs) fun _ => (works_handle id).bind fun h => ?_
  exact (works_callFor (fun _ => M.call (.copyIn h bytes n) (g := fun _ => .done) rfl rfl)
    id).bind fun _ => works_markReady id

theorem works_toBytes (id : ArrayId) : Keeps (Work M s₀) (toBytes id) := by
  refine (works_size id).bind fun n => (works_type id).bind fun t => ?_
  refine (works_handle id).bind fun h => ?_
  refine (works_callFor (fun _ => M.call (.copyOut h (t.storageBytes n) n) (g := .bytes) rfl rfl)
    id).bind fun _ => ?_
  exact (works_markReady id).bind fun _ => keeps_pure _

theorem works_set (id : ArrayId) (t : HostType) (values : List (HostValue t)) :
    Keeps (Work M s₀) (set id t values) :=
  (works_type id).bind fun _ => .guard (fun _ hs => hs) fun _ => works_setBytes id _

theorem works_toValues (id : ArrayId) (t : HostType) : Keeps (Work M s₀) (toValues id t) :=
  (works_type id).bind fun _ => .guard (fun _ hs => hs) fun _ =>
    (works_toBytes id).bind fun _ => keeps_pure _

theorem works_toDoubles (id : ArrayId) : Keeps (Work M s₀) (toDoubles id) :=
  (works_type id).bind fun _ => (works_toBytes id).bind fun _ => keeps_pure _

theorem works_dump (id : ArrayId) : Keeps (Work M s₀) (dump id) := by
  refine (works_shape id).bind fun s => (works_type id).bind fun t => ?_
  refine (works_device id).bind fun v => .ite (fun _ => keeps_pure _) fun _ => ?_
  refine (works_handle id).bind fun h => ?_
  exact (works_callFor (fun lib => M.level lib t s.dims 0 h) id).bind fun _ => keeps_pure _

theorem works_run (he : M.admits e) (op : String) (inputs : List Handle)
    (outputs : Option (List Handle)) (params : Params) :
    Keeps (Work M s₀) (run e op inputs outputs params) :=
  works_onNative he (M.invoke _ _ op inputs outputs params)

theorem works_wrapAll (he : M.admits e) (owner : Option ScopeId) (known : Option Description)
    (handles : List Handle) :
    Meets (fun s => Work M s₀ s ∧ ∀ d ∈ known, ∀ h ∈ handles, M.Minted e d h s.native)
      (wrapAll e owner known handles) (fun _ => Work M s₀) (Work M s₀) := by
  have hwrap := Meets.mapM (f := fun h => wrap e h known) (E := Work M s₀)
    (I := fun left _ s => Work M s₀ s ∧ ∀ d ∈ known, ∀ h ∈ left, M.Minted e d h s.native)
    (fun h left ids => ?_) handles []
  · exact hwrap.bind fun ids => Meets.bind (Q := fun _ => Work M s₀)
      ((Keeps.forM (works_attach owner) ids).of_imp fun _ hs => hs.1) fun _ => keeps_pure _
  · refine .of_state fun s hs => .of_eq (wrap_eq s e h known) ⟨?_, fun d hd x hx => ?_⟩
    · exact hs.1.move (.wrapped he h fun d hd => hs.2 d hd h List.mem_cons_self)
    · exact hs.2 d hd x (List.mem_cons_of_mem _ hx)

theorem works_joinScope (id : ArrayId) (h : Handle) (known : Option Description) :
    Meets (fun s => Work M s₀ s ∧
        ∀ d ∈ known, ∀ a, s.arrays.get? id = some a → M.Minted a.engine d h s.native)
      (joinScope id h known) (fun _ => Work M s₀) (Work M s₀) := by
  refine (meets_array id fun _ hs => hs.1).bind fun a => ?_
  refine Meets.bind (Q := fun _ => Work M s₀) (.of_state fun s ⟨ha, hs, hknown⟩ => ?_) fun new =>
    (works_attach a.owner new).bind fun _ => keeps_pure _
  exact (works_wrap (hs.arrays id a ha) h known).start ⟨hs, fun d hd => hknown d hd a ha⟩

theorem works_joinScope_unknown (id : ArrayId) (h : Handle) :
    Keeps (Work M s₀) (joinScope id h none) :=
  (works_joinScope id h none).of_imp fun _ hs => ⟨hs, nofun⟩

theorem works_minting (s₀ : Session σ) (he : M.admits e) {f : Action σ α} (hf : Calls M e.library f)
    {P : α → σ → Prop} (hP : ∀ n x m, f n = .ok x m → P x m) {J : Session σ → Prop}
    (hJ : ∀ s n, J s → J { s with native := n }) :
    Meets (fun s => Work M s₀ s ∧ J s) (onNative f)
      (fun x s => Work M s₀ s ∧ P x s.native ∧ J s) (Work M s₀) := by
  refine .zoom fun s ⟨hs, hj⟩ => ?_
  have hreach := hf s.native s.native .refl
  cases hr : f s.native with
  | ok x n =>
    rw [hr] at hreach
    exact ⟨hs.move (.called he hreach), hP _ x n hr, hJ s n hj⟩
  | error x n =>
    rw [hr] at hreach
    exact hs.move (.called he hreach)

theorem works_sibling (id : ArrayId) (device : Device) (shape : Shape) (type : ElementType)
    (storage : Storage) : Keeps (Work M s₀) (sibling id device shape type storage) := by
  let d : Description := { Description.dense shape type device with storage }
  have hcreate : Meets (Work M s₀) (callFor id fun lib => lib.create device shape type storage false)
      (fun h s => Work M s₀ s ∧ ∀ d' ∈ some d, ∀ a, s.arrays.get? id = some a →
        M.Minted a.engine d' h s.native) (Work M s₀) := by
    refine (meets_array id fun _ hs => hs).bind fun a => .of_state fun t ⟨ha, ht⟩ => ?_
    refine ((works_minting s₀ (ht.arrays id a ha)
      (M.call (.create device shape type storage false) (g := .handle) rfl rfl)
      (P := fun h n => M.Minted a.engine d h n) (fun n h m hr => .created hr)
      (J := fun s => s.arrays.get? id = some a) fun _ _ hj => hj).start ⟨ht, ha⟩).to_imp
        fun h s ⟨hs, hminted, hj⟩ => ⟨hs, fun d' hd b hb => ?_⟩
    obtain rfl : b = a := Option.some.inj (hb.symm.trans hj)
    exact Option.some.inj hd ▸ hminted
  exact hcreate.bind fun h => works_joinScope id h _

theorem works_operands (id : ArrayId) (inputs : List ArrayId) :
    Keeps (Work M s₀) (inputs.mapM fun input => do
      requireSameEngine .foreignOperand id input
      handle input) :=
  Keeps.mapM (fun input => (works_requireSameEngine _ id input).bind fun _ =>
    works_handle input) inputs

theorem works_outputsOf (id : ArrayId) (op : String) (inputs : List ArrayId) (params : Params) :
    Keeps (Work M s₀) (outputsOf id op inputs params) :=
  (works_operands id inputs).bind fun handles => works_of_array (fun a ha =>
    (works_run ha op handles none params).bind fun outputs =>
      (works_wrapAll ha a.owner none outputs).of_imp fun _ hs => ⟨hs, nofun⟩) id

theorem works_outputOf (id : ArrayId) (op : String) (inputs : List ArrayId) (params : Params) :
    Keeps (Work M s₀) (outputOf id op inputs params) := by
  refine (works_outputsOf id op inputs params).bind fun ids => ?_
  cases ids with
  | nil => exact keeps_throw _
  | cons out others => exact (Keeps.forM works_letGo others).bind fun _ => keeps_pure _

theorem works_copyInto (source target : ArrayId) :
    Keeps (Work M s₀) (copyInto source target) := by
  refine (works_requireSameEngine _ source target).bind fun _ => ?_
  refine (works_shape source).bind fun s => (works_shape target).bind fun t => ?_
  refine .guard (fun _ hs => hs) fun _ => (works_handle target).bind fun th => ?_
  refine (works_handle source).bind fun sh => works_of_array (fun a ha => ?_) source
  exact (works_run ha "_copyto" [sh] (some [th]) .empty).bind fun _ => keeps_pure _

theorem works_copyAs (id : ArrayId) (device : Device) (shape : Shape) (type : ElementType)
    (storage : Storage) : Keeps (Work M s₀) (copyAs id device shape type storage) :=
  (works_sibling id device shape type storage).bind fun target =>
    (works_copyInto id target).bind fun _ => keeps_pure _

theorem works_toDevice (id : ArrayId) (target : Device) (copy : Bool) :
    Keeps (Work M s₀) (toDevice id target copy) := by
  have hcopy : Keeps (Work M s₀) (do
      let s ← shape id
      let t ← type id
      copyAs id target s t (← storage id)) :=
    (works_shape id).bind fun s => (works_type id).bind fun t => (works_storage id).bind fun st =>
      works_copyAs id target s t st
  exact works_keeping (.ite (fun _ => (works_device id).bind fun _ =>
    .ite (fun _ => keeps_pure _) fun _ => hcopy) fun _ => hcopy)

theorem works_toType (id : ArrayId) (target : ElementType) (copy : Bool) :
    Keeps (Work M s₀) (toType id target copy) := by
  have hcopy : Keeps (Work M s₀) (do
      let d ← device id
      let s ← shape id
      copyAs id d s target (← storage id)) :=
    (works_device id).bind fun d => (works_shape id).bind fun s => (works_storage id).bind
      fun st => works_copyAs id d s target st
  exact works_keeping (.ite (fun _ => (works_type id).bind fun _ =>
    .ite (fun _ => keeps_pure _) fun _ => hcopy) fun _ => hcopy)

theorem works_arithmetic (op : String) (a b : ArrayId) :
    Keeps (Work M s₀) (arithmetic op a b) := by
  refine works_keeping ((works_shape a).bind fun _ => (works_shape b).bind fun _ => ?_)
  refine .guard (fun _ hs => hs) fun _ => (works_type a).bind fun _ => ?_
  exact (works_type b).bind fun _ => .guard (fun _ hs => hs) fun _ => works_outputOf a op _ _

theorem works_view (a : ArrayId) {make : Library σ → Handle → Action σ Handle}
    (hmake : ∀ lib h, Calls M lib (make lib h)) : Keeps (Work M s₀) (view a make) :=
  (works_handle a).bind fun h => (works_callFor (fun lib => hmake lib h) a).bind
    fun v => works_joinScope_unknown a v

theorem works_row (a : ArrayId) (index : Nat) : Keeps (Work M s₀) (row a index) :=
  works_keeping ((works_shape a).bind fun _ => .guard (fun _ hs => hs) fun _ =>
    works_view a fun _ h => M.call (.row h index) (g := .handle) rfl rfl)

theorem works_slice (a : ArrayId) (first last : Nat) : Keeps (Work M s₀) (slice a first last) :=
  works_keeping ((works_shape a).bind fun _ => .guard (fun _ hs => hs) fun _ =>
    works_view a fun _ h => M.call (.slice h first last) (g := .handle) rfl rfl)

theorem works_reshape (a : ArrayId) (target : List Int) : Keeps (Work M s₀) (reshape a target) :=
  works_keeping ((works_shape a).bind fun _ => .guard (fun _ hs => hs) fun _ =>
    works_view a fun _ h => M.call (.reshape h target false) (g := .handle) rfl rfl)

theorem works_split (a : ArrayId) (axis : Int) (parts : Nat) :
    Keeps (Work M s₀) (split a axis parts) :=
  works_keepingAll (.guard (fun _ hs => hs) fun _ => works_outputsOf a "split" [a] _)

theorem works_splitSqueeze (a : ArrayId) (axis : Int) :
    Keeps (Work M s₀) (splitSqueeze a axis) := by
  refine works_keepingAll ((works_shape a).bind fun s => ?_)
  cases s.axis? axis with
  | none => exact keeps_throw _
  | some i => exact works_outputsOf a "split" [a] _

theorem works_requireOpen {f : Scope σ → Action (Session σ) β}
    (hf : ∀ c, M.admits c.engine → Keeps (Work M s₀) (f c)) (S : ScopeId) :
    Keeps (Work M s₀) (requireOpen S >>= f) := by
  have hopen : Meets (Work M s₀) (requireOpen S) (fun c s => M.admits c.engine ∧ Work M s₀ s)
      (Work M s₀) :=
    (meets_scope S fun _ hs => hs).bind fun c => .guard (fun _ hs => hs.2) fun _ =>
      .pure fun s hs => ⟨hs.2.scopes S c hs.1, hs.2⟩
  exact hopen.bind fun c s hs => hf c hs.1 s hs.2

theorem works_createdOn (S : ScopeId) (device : Device) (shape : Shape) (type : ElementType)
    (storage : Storage) : Keeps (Work M s₀) (createdOn S device shape type storage) := by
  refine works_requireOpen (fun c hc => ?_) S
  let d : Description := { Description.dense shape type device with storage }
  have hcreate := works_minting s₀ hc
    (M.call (.create device shape type storage false) (g := .handle) rfl rfl)
    (P := fun h n => ∀ d' ∈ some d, M.Minted c.engine d' h n)
    (fun n h m hr d' hd => Option.some.inj hd ▸ .created hr) (J := fun _ => True) fun _ _ h => h
  refine (hcreate.imp (fun _ hs => ⟨hs, trivial⟩) (fun _ _ hs => ⟨hs.1, hs.2.1⟩)
    fun _ hs => hs).bind fun h => (works_wrap hc h (some d)).bind fun new => ?_
  exact (works_attach (some S) new).bind fun _ => keeps_pure _

theorem works_create (S : ScopeId) (shape : Shape) (type : ElementType) :
    Keeps (Work M s₀) (create S shape type) :=
  works_keeping (works_of_scope (fun c _ => works_createdOn S c.device shape type .dense) S)

theorem works_filled (op : String) (S : ScopeId) {shape : Shape} (hshape : M.fills shape)
    (type : ElementType) : Keeps (Work M s₀) (filled op S shape type) := by
  refine works_keeping (works_requireOpen (fun c hc => ?_) S)
  let d := Description.dense shape type c.device
  have hfill := works_minting s₀ hc
    (M.invoke c.engine.library c.engine.operators op [] none (.filling shape c.device type))
    (P := fun hs n => ∀ d' ∈ some d, ∀ h ∈ hs, M.Minted c.engine d' h n)
    (fun n hs m hr d' hd h hh => Option.some.inj hd ▸ .filled rfl hshape hr hh)
    (J := fun _ => True) fun _ _ h => h
  refine (hfill.imp (fun _ hs => ⟨hs, trivial⟩) (fun _ _ hs => ⟨hs.1, hs.2.1⟩)
    fun _ hs => hs).bind fun handles =>
      (works_wrapAll hc (some S) (some d) handles).bind fun ids => ?_
  cases ids.getLast? with
  | none => exact keeps_throw _
  | some out => exact keeps_pure _

theorem works_fromValues (S : ScopeId) (t : HostType) (values : List (HostValue t))
    (shape : Shape) : Keeps (Work M s₀) (fromValues S t values shape) := by
  refine works_keeping (.guard (fun _ hs => hs) fun _ => works_of_scope (fun c _ => ?_) S)
  exact (works_createdOn S c.device shape t.element .dense).bind fun new =>
    (works_set new t values).bind fun _ => keeps_pure _

theorem works_gradientBuffer (a : ArrayId) (storage : Option Storage) :
    Keeps (Work M s₀) (gradientBuffer a storage) := by
  unfold gradientBuffer
  cases storage.filter Storage.isSparse with
  | none => exact works_outputOf a "zeros_like" [a] .empty
  | some format =>
    exact (works_device a).bind fun d => (works_shape a).bind fun s => (works_type a).bind
      fun t => works_sibling a d s t format

theorem works_attachGrad (hM : ∀ c, M.asks c) (a : ArrayId) (request : GradRequest)
    (storage : Option Storage) : Keeps (Work M s₀) (attachGrad a request storage) := by
  refine works_settled ((works_gradientBuffer a storage).bind fun g => ?_)
  refine (works_handle a).bind fun ah => (works_handle g).bind fun gh => ?_
  have hmark : Keeps (Work M s₀) (callFor a fun lib => lib.markVariables [ah] [request] [gh]) :=
    works_callFor (fun _ => M.calls (.markVariables [ah] [request] [gh]) (hM _)
      (g := fun _ => .done) rfl) a
  refine (hmark.outcome (F := Work M s₀)).bind fun r => ?_
  cases r with
  | error x => exact (works_retire g).bind fun _ => keeps_throw x
  | ok =>
    refine works_of_array (fun x _ => (works_modifyArray a fun _ => by rfl).bind fun _ => ?_) a
    exact Meets.forM_option works_retire x.gradient

theorem works_backward (a : ArrayId) (seed : Option ArrayId) (retain training : Bool) :
    Keeps (Work M s₀) (backward a seed retain training) := by
  have hcall : ∀ g : Option Handle, Keeps (Work M s₀) (do
      let h ← handle a
      callFor a fun lib => lib.backward [h] [g] retain training) := fun g =>
    (works_handle a).bind fun h => works_callFor
      (fun _ => M.call (.backward [h] [g] retain training) (g := fun _ => .done) rfl rfl) a
  cases seed with
  | none => exact hcall none
  | some g =>
    refine (works_requireSameEngine _ a g).bind fun _ => ?_
    exact Meets.bind (Q := fun _ => Work M s₀) (.map (works_handle g)) hcall

theorem works_gradient (a : ArrayId) : Keeps (Work M s₀) (gradient a) := by
  refine works_keeping ((works_handle a).bind fun h => ?_)
  refine (works_callFor (fun _ => M.call (.getGrad h) (g := .gradient) rfl rfl) a).bind fun g => ?_
  cases g with
  | none => exact keeps_throw _
  | some g => exact works_joinScope_unknown a g

theorem works_build (he : M.admits e) (hload : ∀ id n t m,
      OperatorTable.load e.library n = .ok t m → M.admits ⟨id, e.library, t⟩)
    (c : Configuration) (device : Device) :
    Meets (Work M s₀) (Engine.build e.library c device)
      (fun e' s => M.admits e'.loaded ∧ Work M s₀ s) (Work M s₀) := by
  have hoperators := works_minting s₀ he (M.load e.library)
    (P := fun t _ => ∀ id, M.admits ⟨id, e.library, t⟩) (fun n t m hr id => hload id n t m hr)
    (J := fun _ => True) fun _ _ h => h
  refine (hoperators.of_imp fun _ hs => ⟨hs, trivial⟩).bind fun operators => ?_
  refine .of_state fun t ⟨ht, hadmits, _⟩ => (works_freshId.start ht).bind fun id => ?_
  refine (Meets.forM_option (fun seed => works_onNative he
    (M.call (.randomSeed seed) (g := fun _ => .done) rfl rfl)) c.randomSeed).bind fun _ => ?_
  exact (works_newScope (hadmits id) _ _ _).bind fun system => .pure fun _ hs => ⟨hadmits id, hs⟩

end Session

open Session

def Mandate.allows (M : Mandate σ) : Operation → Prop
  | .filled _ _ shape _ => M.fills shape
  | .attachGrad .. => ∀ c, M.asks c
  | _ => True

theorem Operation.works_perform {M : Mandate σ} {s₀ : Session σ} {e : Engine σ}
    (he : M.admits e.loaded) (op : Operation) (hop : M.allows op) :
    Keeps (Work M s₀) (op.perform e) := by
  cases op with
  | version => exact .map (works_onNative he (M.call .version (g := .text) rfl rfl))
  | gpuCount => exact .map (works_onNative he (M.call .gpuCount (g := .count) rfl rfl))
  | hasAccelerators =>
    have hcount : Keeps (Work M s₀) e.gpuCount :=
      works_onNative he (M.call .gpuCount (g := .count) rfl rfl)
    refine .map ((hcount.outcome (F := Work M s₀)).bind fun r => ?_)
    cases r <;> exact keeps_pure _
  | setRandomSeed seed =>
    exact works_onNative he (M.call (.randomSeed seed) (g := fun _ => .done) rfl rfl)
  | baseScope d => exact .map (works_subScope _ _)
  | subScope parent d => exact .map (works_subScope parent d)
  | parentOf id => exact .map (keeps_parentOf id)
  | owns id a => exact .map (works_of_scope (fun _ _ => keeps_pure _) id)
  | cloneScope id => exact works_of_scope (fun _ _ => works_holdScope id) id
  | closeScope id => exact works_closeScope id
  | dropScope id => exact works_dropScope id
  | adopt target id => exact works_adopt target id
  | detach id => exact works_settled (works_leave id)
  | closeArray id => exact works_settled (works_retire id)
  | cloneArray id => exact works_of_array (fun _ _ => works_holdArray id) id
  | dropArray id =>
    exact works_settled (.modify fun _ hs => hs.retable rfl (Nat.le_refl _) rfl hs.scopes)
  | create id s t => exact .map (works_create id s t)
  | createOn id v s t st => exact .map (works_keeping (works_createdOn id v s t st))
  | filled op id s t => exact .map (works_filled op id hop t)
  | fromValues id t values s => exact .map (works_fromValues id t values s)
  | shape id => exact .map (works_shape id)
  | type id => exact .map (works_type id)
  | device id => exact .map (works_device id)
  | storage id => exact .map (works_storage id)
  | description id => exact .map (works_description id)
  | setName id name => exact works_modifyArray id fun _ => by rfl
  | isReleased id => exact .map (works_of_array (fun _ _ => keeps_pure _) id)
  | markReady id => exact works_markReady id
  | waitToRead id => exact works_waitToRead id
  | waitToWrite id => exact works_waitToWrite id
  | waitAll id => exact works_waitAll id
  | set id t values => exact works_set id t values
  | setBytes id bytes => exact works_setBytes id bytes
  | toBytes id => exact .map (works_toBytes id)
  | toValues id t => exact .map (works_toValues id t)
  | toDoubles id => exact .map (works_toDoubles id)
  | dump id => exact .map (works_dump id)
  | invoke id op inputs params =>
    exact .map (works_keepingAll (works_outputsOf id op inputs params))
  | copyTo source target => exact works_settled (works_copyInto source target)
  | toDevice id target copy => exact .map (works_toDevice id target copy)
  | toType id target copy => exact .map (works_toType id target copy)
  | arithmetic op a b => exact .map (works_arithmetic op a b)
  | unary op params a => exact .map (works_keeping (works_outputOf a op [a] params))
  | row a index => exact .map (works_row a index)
  | slice a first last => exact .map (works_slice a first last)
  | reshape a target => exact .map (works_reshape a target)
  | split a axis parts => exact .map (works_split a axis parts)
  | splitSqueeze a axis => exact .map (works_splitSqueeze a axis)
  | attachGrad a request st => exact works_attachGrad hop a request st
  | backward a seed retain training => exact works_backward a seed retain training
  | gradient a => exact .map (works_gradient a)
  | startRecording => exact .map (works_onNative he (M.start e.loaded))
  | finishRecording recording training =>
    exact works_onNative he (M.finish e.loaded recording training)
  | recordedBackward a seed retain =>
    exact works_of_array (fun _ _ => .guard (fun _ hs => hs) fun _ =>
      works_backward a seed retain true) a
  | dropEngine => exact (works_closeScope _).bind fun _ => works_dropScope _

end ScopedTensor
