import ScopedTensor.Proofs.Ownership.Likeness
import ScopedTensor.Proofs.Ownership.Runs

/-! Operations that fail. Whatever a failed operation brought into a session is gone again when it
is over, and nothing else has changed, whichever of its steps it was that failed. Only the target of
a copy that fails stays where it was put. -/

namespace ScopedTensor

open ScopedTensor.Action Session

variable {σ α β : Type} {account : σ → List Handle → Prop}

theorem HostValue.length_encode (t : HostType) (vs : List (HostValue t)) :
    (encode t vs).length = t.element.storageBytes vs.length := by
  induction vs with
  | nil => rfl
  | cons v vs ih =>
    have hcons : encode t (v :: vs) = write t v ++ encode t vs := rfl
    rw [hcons, List.length_append, ih, write, Bytes.length_ofNat, List.length_cons]
    exact (Nat.add_comm _ _).trans (Nat.mul_succ _ _).symm

/-- What may be relied on in an engine: it names what it makes and keeps the account, without
parameters an operator has at most one output, and a new array takes the elements it was made for. -/
structure Library.Dependable (lib : Library σ) (account : σ → List Handle → Prop) : Prop where
  neverNull : lib.NeverNull
  accounted : lib.Accounted account
  single : ∀ {op inputs n hs m}, lib.invoke op inputs none .empty n = .ok hs m → hs.length ≤ 1
  fills : ∀ {device shape type storage delayed n owned h m bytes}, account n owned →
    lib.create device shape type storage delayed n = .ok h m →
    bytes.length = type.storageBytes shape.size → ∃ k, lib.copyIn h bytes shape.size m = .ok ⟨⟩ k

def Regime.dependable (account : σ → List Handle → Prop) : Regime σ where
  account _ _ := True
  admits e := e.library.Dependable account
  barred _ := False
  root _ := True
  floor := 0
  perm _ h := h
  accounted h := h.neverNull

namespace Session

variable {u s t : Session σ} {issued : List Handle} {id : ArrayId} {a b : Tensor σ} {h : Handle}
variable {E : Session σ → Prop}

/-- A session like `u`, where the engines have issued handles since. -/
structure Untouched (account : σ → List Handle → Prop) (u : Session σ) (issued : List Handle)
    (s : Session σ) : Prop where
  alike : Alike u s
  lastId : s.lastId = u.lastId
  owned : account s.native issued
  dependable : ∀ id a, s.arrays.get? id = some a → a.engine.library.Dependable account

instance : Lasting account (Untouched account u issued) where
  accounted hs ha := (hs.dependable _ _ ha).accounted
  native hn hs := { hs with alike := hs.alike.withNative _, owned := hn _ hs.owned }
  note {s} id f hf hs :=
    { hs with
      alike := hs.alike.note id hf
      dependable := fun j b hb => by
        rcases Table.get?_modify_eq_some.1 hb with ⟨-, a, ha, rfl⟩ | ⟨-, hb⟩
        · exact hf.engine a ▸ hs.dependable j a ha
        · exact hs.dependable j b hb }

/-- From a session like `u` the action succeeds, or it fails in a session like `u`. -/
abbrev Traceless (account : σ → List Handle → Prop) (u : Session σ) (a : Action (Session σ) α) :
    Prop := Meets (Untouched account u []) a (fun _ _ => True) (Untouched account u [])

theorem Traceless.of_keeps {a : Action (Session σ) α}
    (ha : Keeps (Untouched account u []) a) : Traceless account u a := ha.to_imp fun _ _ _ => trivial

def Joined (account : σ → List Handle → Prop) (u : Session σ) (id new : ArrayId) (s : Session σ) :
    Prop :=
  new = u.lastId + 1 ∧ ∃ a h, u.arrays.get? id = some a ∧ h.isNull = false ∧
    Untouched account (u.joined a h) [h] s

instance {new : ArrayId} : Lasting account (Joined account u id new) where
  accounted := fun ⟨_, _, _, _, _, hs⟩ hb => Lasting.accounted hs hb
  native := fun hn ⟨hnew, a, h, ha, hnull, hs⟩ => ⟨hnew, a, h, ha, hnull, Lasting.native hn hs⟩
  note := fun j _ hf ⟨hnew, a, h, ha, hnull, hs⟩ => ⟨hnew, a, h, ha, hnull, Lasting.note j hf hs⟩

theorem issues_untouched {a : Action σ α} {issued : α → List Handle}
    (ha : Issues account a issued) :
    Meets (Untouched account u []) (onNative a)
      (fun x s => (∀ h ∈ issued x, h.isNull = false) ∧ Untouched account u (issued x) s)
      (Untouched account u []) := by
  refine .zoom fun s hs => ?_
  have := ha [] s.native hs.owned
  cases hr : a s.native with
  | ok x n =>
    rw [hr] at this
    exact ⟨this.1, { hs with
      alike := hs.alike.withNative n
      owned := List.append_nil (issued x) ▸ this.2 }⟩
  | error e n =>
    rw [hr] at this
    exact { hs with alike := hs.alike.withNative n, owned := this }

theorem issues_callFor_untouched {f : Library σ → Action σ α} {issued : α → List Handle}
    (hf : ∀ lib : Library σ, lib.Accounted account → Issues account (f lib) issued)
    (id : ArrayId) :
    Meets (Untouched account u []) (callFor id f)
      (fun x s => (∀ h ∈ issued x, h.isNull = false) ∧ Untouched account u (issued x) s ∧
        id ∈ u.arrays.keys) (Untouched account u []) := by
  refine (meets_array id fun _ hs => hs).bind fun b => .of_state fun t ⟨hb, ht⟩ => ?_
  have hkey : id ∈ u.arrays.keys := ht.alike.keys ▸ (Table.mem_keys_iff _ _).2 ⟨b, hb⟩
  have hissues := issues_untouched (u := u) (hf _ (ht.dependable _ _ hb).accounted)
  exact (hissues.start ht).to_imp fun x s hs => ⟨hs.1, hs.2, hkey⟩

theorem meets_run_untouched {engine : LoadedEngine σ} (hlib : engine.library.Dependable account)
    (op : String) (inputs : List Handle) (params : Params) :
    Meets (Untouched account u []) (run engine op inputs none params)
      (fun handles s => ((∀ h ∈ handles, h.isNull = false) ∧ Untouched account u handles s) ∧
        (params = .empty → handles.length ≤ 1)) (Untouched account u []) := by
  refine (issues_untouched (hlib.accounted.run _ op inputs params)).and_result ?_
  intro s handles t hrun hparams
  rw [hparams] at hrun
  unfold onNative Action.zoom at hrun
  cases hr : engine.operators.invoke engine.library op inputs none .empty s.native with
  | error e n =>
    rw [hr] at hrun
    exact absurd hrun nofun
  | ok found n =>
    obtain ⟨x, m, -, hinvoke⟩ := bind_ok.1 hr
    rw [hr] at hrun
    injection hrun with hfound
    exact hfound ▸ hlib.single hinvoke

theorem meets_wrapAll_untouched (engine : LoadedEngine σ) {owner : Option ScopeId}
    (howner : u.Admits owner) (known : Option Description) (handles : List Handle) :
    Meets (Untouched account u handles) (wrapAll engine owner known handles)
      (fun ids s => ids.length = handles.length ∧ (ids = [] → Untouched account u [] s)) E := by
  cases handles with
  | nil => exact fun s hs => ⟨rfl, fun _ => hs⟩
  | cons h handles =>
    refine (meets_wrapAll_open engine owner known (h :: handles)).imp (fun s hs S hS => ?_)
      (fun ids s hlength => ⟨hlength, ?_⟩) fun _ hs => hs
    · rw [hs.alike.scopes]
      exact howner S hS
    · rintro rfl
      exact absurd hlength (by simp)

/-- All is as before, down to the handles. -/
def Restored (account : σ → List Handle → Prop) (u t : Session σ) : Prop :=
  Alike u t ∧ account t.native []

/-- The target of a copy had come in with a handle of its own, and then the copy was refused. -/
def RefusedAfter (account : σ → List Handle → Prop) (u : Session σ) (id : ArrayId)
    (t : Session σ) : Prop :=
  ∃ a h s x, u.arrays.get? id = some a ∧ h.isNull = false ∧ Untouched account (u.joined a h) [h] s ∧
    Untouched account (u.joined a h) [h] t ∧ copyInto id (u.lastId + 1) s = .error x t

/-- The new array is left in the scope of the array it was made for. -/
def LeftBehind (account : σ → List Handle → Prop) (u : Session σ) (id : ArrayId) (t : Session σ) :
    Prop :=
  ∃ a h S s x, u.arrays.get? id = some a ∧ a.owner = some S ∧ h.isNull = false ∧
    (Alike (u.joined a h) s ∧ account s.native [h]) ∧
    (Alike (u.joined a h) t ∧ account t.native [h]) ∧ copyInto id (u.lastId + 1) s = .error x t

def Stray (account : σ → List Handle → Prop) (u s : Session σ) : Prop :=
  ∃ (engine : LoadedEngine σ) (h : Handle), engine.library.Accounted account ∧
    Alike (u.wrapped engine h none) s ∧ account s.native (if h.isNull then [] else [h])

theorem Untouched.restored (hs : Untouched account u [] s) : Restored account u s :=
  ⟨hs.alike, hs.owned⟩

theorem Untouched.stray (hs : Untouched account (u.joined a h) [h] s)
    (hlib : a.engine.library.Accounted account) (howner : a.owner = none) (hnull : h.isNull = false) :
    Stray account u s := by
  refine ⟨a.engine, h, hlib, ?_, ?_⟩
  · have halike := hs.alike
    rwa [Session.joined, howner] at halike
  · rw [hnull]
    exact hs.owned

section Rest

variable (hu : Sound (.dependable account) {} u)

include hu

theorem Untouched.refl (hn : account u.native []) : Untouched account u [] u :=
  ⟨.refl u, rfl, hn, hu.staffed.arrays⟩

theorem Untouched.held (hs : Untouched account u issued s) :
    ∀ j ∈ s.arrays.keys, s.isHeld j = true := fun j hj =>
  (hs.alike.isHeld j).trans (hu.isHeld (hs.alike.keys ▸ hj))

theorem Untouched.joined (hs : Untouched account u [h] s) (hnull : h.isNull = false)
    (ha : u.arrays.get? id = some a) (known : Option Description) :
    Joined account u id (u.lastId + 1)
      ((s.wrapped a.engine h known).placed a.owner (u.lastId + 1)) := by
  have hfresh := hu.numbered.fresh_array
  have halike : Alike (u.joined a h)
      ((s.wrapped a.engine h known).placed a.owner (u.lastId + 1)) :=
    (hs.alike.wrapped hs.lastId hfresh a.engine h none known).placed a.owner (u.lastId + 1)
  refine ⟨rfl, a, h, ha, hnull, halike, ?_, ?_, fun j b hb => ?_⟩
  · rw [lastId_placed, Session.joined, lastId_placed]
    exact congrArg (· + 1) hs.lastId
  · rw [native_placed]
    exact hs.owned
  · obtain ⟨c, hc, hbare⟩ := halike.array hb
    rw [arrays_joined hfresh] at hc
    rw [← Tensor.engine_of_bare hbare]
    rcases Table.get?_insert_eq_some.1 hc with ⟨-, rfl⟩ | ⟨-, hc⟩
    · exact hu.staffed.arrays id a ha
    · exact hu.staffed.arrays j c hc

theorem Untouched.admits (hs : Untouched account u issued s) (ha : u.arrays.get? id = some a) :
    s.Admits a.owner := fun S hS => by
  rw [hs.alike.scopes]
  exact hu.admits_owner ha S hS

theorem Untouched.joinScope (hs : Untouched account u [h] s) (hnull : h.isNull = false)
    (hid : id ∈ u.arrays.keys) (known : Option Description) :
    ∃ t, joinScope id h known s = .ok (u.lastId + 1) t ∧ Joined account u id (u.lastId + 1) t := by
  obtain ⟨b, hb⟩ := (Table.mem_keys_iff _ _).1 (hs.alike.keys ▸ hid)
  obtain ⟨a, ha, hbare⟩ := hs.alike.array hb
  refine ⟨_, ?_, hs.joined hu hnull ha known⟩
  rw [Tensor.engine_of_bare hbare, Tensor.owner_of_bare hbare, ← hs.lastId]
  refine bind_ok.2 ⟨b, s, array_eq hb, ?_⟩
  exact wrap_attach_eq (Tensor.owner_of_bare hbare ▸ hs.admits hu ha) b.engine h known

theorem meets_joinScope_untouched (known : Option Description) :
    Meets (fun s => h.isNull = false ∧ Untouched account u [h] s ∧ id ∈ u.arrays.keys)
      (joinScope id h known) (Joined account u id) E := by
  refine .of_state fun s ⟨hnull, hs, hid⟩ => ?_
  obtain ⟨t, ht, hjoined⟩ := hs.joinScope hu hnull hid known
  exact .of_eq ht hjoined

theorem Untouched.sweep (hs : Untouched account u issued s) : sweep s = .ok ⟨⟩ s :=
  sweep_of_held (hs.held hu)

theorem Stray.sweep (hs : Stray account u s) : ∃ t, sweep s = .ok ⟨⟩ t ∧ Restored account u t := by
  obtain ⟨engine, h, hlib, halike, howned⟩ := hs
  obtain ⟨t, ht, hrestored, hnative⟩ := sweep_wrapped hu halike
  refine ⟨t, ht, hrestored, ?_⟩
  rw [hnative]
  split at howned
  · rename_i hnull
    rw [if_pos hnull]
    exact howned
  · rename_i hnull
    rw [if_neg hnull]
    exact (hlib.free h [] (by simpa using hnull)).after howned

theorem RefusedAfter.sweep (hs : RefusedAfter account u id s) :
    ∃ t, sweep s = .ok ⟨⟩ t ∧ (Restored account u t ∨ LeftBehind account u id t) := by
  obtain ⟨a, h, r, x, ha, hnull, hbefore, hjoined, hcopy⟩ := hs
  cases ho : a.owner with
  | none =>
    have hstray := hjoined.stray (hu.staffed.arrays id a ha).accounted ho hnull
    obtain ⟨t, ht, hrestored⟩ := hstray.sweep hu
    exact ⟨t, ht, .inl hrestored⟩
  | some S =>
    have hopen : u.scopes.openAt S = true := hu.admits_owner ha S ho
    refine ⟨s, sweep_of_held fun j hj => ?_, .inr ⟨a, h, S, r, x, ha, ho, hnull,
      ⟨hbefore.alike, hbefore.owned⟩, ⟨hjoined.alike, hjoined.owned⟩, hcopy⟩⟩
    rw [hjoined.alike.isHeld]
    exact isHeld_joined hu ho hopen (hjoined.alike.keys ▸ hj)

theorem traceless_settled {a : Action (Session σ) α} (ha : Traceless account u a) :
    Traceless account u (settled a) :=
  meets_settled ha fun s hs => ⟨s, hs.sweep hu, hs⟩

theorem traceless_keeping {a : Action (Session σ) ArrayId} (ha : Traceless account u a) :
    Traceless account u (keeping a) :=
  traceless_settled hu (ha.bind fun _ => .bind (Q := fun _ _ => True) (.modify fun _ hs => hs)
    fun _ => .pure fun _ hs => hs)

theorem traceless_keepingAll {a : Action (Session σ) (List ArrayId)} (ha : Traceless account u a) :
    Traceless account u (keepingAll a) :=
  traceless_settled hu (ha.bind fun ids => .bind (Q := fun _ _ => True)
    (Meets.forM (I := fun _ _ => True) (fun _ _ => .modify fun _ hs => hs) ids)
    fun _ => .pure fun _ hs => hs)

theorem meets_outputsOf_untouched (id : ArrayId) (op : String) (inputs : List ArrayId)
    (params : Params) :
    Meets (Untouched account u []) (outputsOf id op inputs params)
      (fun ids s => (ids = [] → Untouched account u [] s) ∧
        (params = .empty → ids.length ≤ 1 ∧ ∀ new ∈ ids, Joined account u id new s))
      (Untouched account u []) := by
  unfold outputsOf
  refine Meets.bind (Q := fun _ => Untouched account u []) ?_ fun handles => ?_
  · refine Keeps.mapM (fun input => ?_) inputs
    exact (keeps_requireSameEngine _ id input).bind fun _ => keeps_handle input
  refine (meets_array id fun _ hs => hs).bind fun b => .of_state fun t ⟨hb, ht⟩ => ?_
  obtain ⟨a, ha, hbare⟩ := ht.alike.array hb
  rw [← Tensor.engine_of_bare hbare, ← Tensor.owner_of_bare hbare]
  refine ((meets_run_untouched (hu.staffed.arrays id a ha) op handles params).start ht).bind
    fun outputs => .of_state fun v ⟨⟨hnull, hv⟩, hsingle⟩ => ?_
  rcases outputs with _ | ⟨h, _ | ⟨h', outputs⟩⟩
  · exact .of_eq rfl ⟨fun _ => hv, fun _ => ⟨Nat.zero_le _, by simp⟩⟩
  · refine .of_eq (wrapAll_one (hv.admits hu ha) a.engine h none) ⟨by simp, fun _ => ⟨Nat.le_refl _, ?_⟩⟩
    intro new hnew
    obtain rfl := List.mem_singleton.1 hnew
    rw [hv.lastId]
    exact hv.joined hu (hnull h List.mem_cons_self) ha none
  · refine ((meets_wrapAll_untouched a.engine (hu.admits_owner ha) none _).start hv).to_imp
      fun ids s hs => ⟨hs.2, fun hparams => ?_⟩
    exact absurd (hsingle hparams) (by simp)

theorem traceless_outputsOf (id : ArrayId) (op : String) (inputs : List ArrayId) (params : Params) :
    Traceless account u (outputsOf id op inputs params) :=
  (meets_outputsOf_untouched hu id op inputs params).to_imp fun _ _ _ => trivial

theorem traceless_outputOf (id : ArrayId) (op : String) (inputs : List ArrayId) (params : Params) :
    Traceless account u (outputOf id op inputs params) := by
  refine (meets_outputsOf_untouched hu id op inputs params).bind fun ids => ?_
  cases ids with
  | nil => exact .throw fun s hs => hs.1 rfl
  | cons out others =>
    refine .bind (Q := fun _ _ => True) ?_ fun _ => .pure fun _ _ => trivial
    refine (Meets.forM (I := fun _ s => 0 ≤ s.lastId) (fun other _ => later_letGo 0 other) others).imp
      (fun _ _ => Nat.zero_le _) (fun _ _ _ => trivial) fun _ hs => hs

theorem meets_outputOf_untouched (id : ArrayId) (op : String) (inputs : List ArrayId) :
    Meets (Untouched account u []) (outputOf id op inputs .empty)
      (fun out s => Joined account u id out s) (Untouched account u []) := by
  refine (meets_outputsOf_untouched hu id op inputs .empty).bind fun ids => ?_
  rcases ids with _ | ⟨out, _ | ⟨other, others⟩⟩
  · exact .throw fun s hs => hs.1 rfl
  · exact fun s hs => (hs.2 rfl).2 out List.mem_cons_self
  · exact fun s hs => absurd (hs.2 rfl).1 (by simp)

theorem traceless_invoke (id : ArrayId) (op : String) (inputs : List ArrayId) (params : Params) :
    Traceless account u (invoke id op inputs params) :=
  traceless_keepingAll hu (traceless_outputsOf hu id op inputs params)

theorem traceless_arithmetic (op : String) (a b : ArrayId) :
    Traceless account u (arithmetic op a b) := by
  refine traceless_keeping hu ((keeps_shape a).bind fun s => (keeps_shape b).bind fun s' => ?_)
  refine .guard (fun _ hs => hs) fun _ => (keeps_type a).bind fun t => (keeps_type b).bind fun t' => ?_
  exact .guard (fun _ hs => hs) fun _ => traceless_outputOf hu a op [a, b] .empty

theorem traceless_unary (op : String) (params : Params) (a : ArrayId) :
    Traceless account u (unary op params a) :=
  traceless_keeping hu (traceless_outputOf hu a op [a] params)

theorem traceless_split (a : ArrayId) (axis : Int) (parts : Nat) :
    Traceless account u (split a axis parts) :=
  traceless_keepingAll hu (.guard (fun _ hs => hs) fun _ => traceless_outputsOf hu a "split" [a] _)

theorem traceless_splitSqueeze (a : ArrayId) (axis : Int) :
    Traceless account u (splitSqueeze a axis) := by
  refine traceless_keepingAll hu ((keeps_shape a).bind fun s => ?_)
  cases s.axis? axis with
  | none => exact .throw fun _ hs => hs
  | some i => exact traceless_outputsOf hu a "split" [a] _

theorem traceless_view (a : ArrayId) {make : Library σ → Handle → Action σ Handle}
    (hmake : ∀ lib : Library σ, lib.Accounted account → ∀ h,
      Issues account (make lib h) fun v => [v]) : Traceless account u (view a make) := by
  refine (keeps_handle a).bind fun h => ?_
  refine (issues_callFor_untouched (fun lib hlib => hmake lib hlib h) a).bind fun v => ?_
  refine (meets_joinScope_untouched hu none).imp (fun s hs => ⟨hs.1 v List.mem_cons_self, hs.2⟩)
    (fun _ _ _ => trivial) fun _ hs => hs

theorem traceless_row (a : ArrayId) (index : Nat) : Traceless account u (row a index) :=
  traceless_keeping hu ((keeps_shape a).bind fun _ => .guard (fun _ hs => hs) fun _ =>
    traceless_view hu a fun _ hlib h => hlib.row h index)

theorem traceless_slice (a : ArrayId) (first last : Nat) : Traceless account u (slice a first last) :=
  traceless_keeping hu ((keeps_shape a).bind fun _ => .guard (fun _ hs => hs) fun _ =>
    traceless_view hu a fun _ hlib h => hlib.slice h first last)

theorem traceless_reshape (a : ArrayId) (target : List Int) :
    Traceless account u (reshape a target) :=
  traceless_keeping hu ((keeps_shape a).bind fun _ => .guard (fun _ hs => hs) fun _ =>
    traceless_view hu a fun _ hlib h => hlib.reshape h target false)

theorem traceless_gradient (a : ArrayId) : Traceless account u (gradient a) := by
  refine traceless_keeping hu ((keeps_handle a).bind fun h => ?_)
  refine (issues_callFor_untouched (fun _ hlib => hlib.getGrad h) a).bind fun g => ?_
  cases g with
  | none => exact .throw fun _ hs => hs.2.1
  | some g =>
    exact (meets_joinScope_untouched hu none).imp (fun s hs => ⟨hs.1 g (by simp), hs.2⟩)
      (fun _ _ _ => trivial) fun _ hs => hs

theorem meets_sibling_untouched (id : ArrayId) (device : Device) (shape : Shape)
    (type : ElementType) (storage : Storage) :
    Meets (Untouched account u []) (sibling id device shape type storage)
      (fun new s => Joined account u id new s) (Untouched account u []) := by
  refine (issues_callFor_untouched
    (fun _ hlib => hlib.create device shape type storage false) id).bind fun h => ?_
  exact (meets_joinScope_untouched hu _).of_imp fun s hs => ⟨hs.1 h List.mem_cons_self, hs.2⟩

/-- Between its coming in and the end of the copy nothing takes the target out again. -/
theorem meets_copyAs_untouched (id : ArrayId) (device : Device) (shape : Shape)
    (type : ElementType) (storage : Storage) :
    Meets (Untouched account u []) (copyAs id device shape type storage) (fun _ _ => True)
      (fun s => Untouched account u [] s ∨ RefusedAfter account u id s) := by
  refine (meets_sibling_untouched hu id device shape type storage).or_left.bind fun target => ?_
  refine Meets.bind (Q := fun _ _ => True) ?_ fun _ => .pure fun _ hs => hs
  rintro s ⟨rfl, a, h, ha, hnull, hs⟩
  have hkeeps := keeps_copyInto (I := Untouched account (u.joined a h) [h]) id (u.lastId + 1) s hs
  cases hcopy : copyInto id (u.lastId + 1) s with
  | ok _ t => trivial
  | error x t =>
    rw [hcopy] at hkeeps
    exact .inr ⟨a, h, s, x, ha, hnull, hs, hkeeps, hcopy⟩

theorem meets_keeping_copy {a : Action (Session σ) ArrayId} {id : ArrayId}
    (ha : Meets (Untouched account u []) a (fun _ _ => True)
      (fun s => Untouched account u [] s ∨ RefusedAfter account u id s)) :
    Meets (Untouched account u []) (keeping a) (fun _ _ => True)
      (fun t => Restored account u t ∨ LeftBehind account u id t) := by
  refine meets_settled (ha.bind fun _ => .bind (Q := fun _ _ => True) (.modify fun _ hs => hs)
    fun _ => .pure fun _ hs => hs) fun s hs => ?_
  rcases hs with hs | hs
  · exact ⟨s, hs.sweep hu, .inl hs.restored⟩
  · exact hs.sweep hu

theorem meets_toDevice_untouched (id : ArrayId) (target : Device) (copy : Bool) :
    Meets (Untouched account u []) (toDevice id target copy) (fun _ _ => True)
      (fun t => Restored account u t ∨ LeftBehind account u id t) := by
  have hcopy : Meets (Untouched account u [])
      (do
        let s ← shape id
        let t ← type id
        copyAs id target s t (← storage id))
      (fun _ _ => True) (fun s => Untouched account u [] s ∨ RefusedAfter account u id s) :=
    (keeps_shape id).or_left.bind fun s => (keeps_type id).or_left.bind fun t =>
      (keeps_storage id).or_left.bind fun st => meets_copyAs_untouched hu id target s t st
  refine meets_keeping_copy hu (.ite (fun _ => ?_) fun _ => hcopy)
  exact (keeps_device id).or_left.bind fun d =>
    .ite (fun _ => .pure fun _ _ => trivial) fun _ => hcopy

theorem meets_toType_untouched (id : ArrayId) (target : ElementType) (copy : Bool) :
    Meets (Untouched account u []) (toType id target copy) (fun _ _ => True)
      (fun t => Restored account u t ∨ LeftBehind account u id t) := by
  have hcopy : Meets (Untouched account u [])
      (do
        let d ← device id
        let s ← shape id
        copyAs id d s target (← storage id))
      (fun _ _ => True) (fun s => Untouched account u [] s ∨ RefusedAfter account u id s) :=
    (keeps_device id).or_left.bind fun d => (keeps_shape id).or_left.bind fun s =>
      (keeps_storage id).or_left.bind fun st => meets_copyAs_untouched hu id d s target st
  refine meets_keeping_copy hu (.ite (fun _ => ?_) fun _ => hcopy)
  exact (keeps_type id).or_left.bind fun t =>
    .ite (fun _ => .pure fun _ _ => trivial) fun _ => hcopy

theorem meets_gradientBuffer_untouched (a : ArrayId) (storage : Option Storage) :
    Meets (Untouched account u []) (gradientBuffer a storage)
      (fun g s => Joined account u a g s) (Untouched account u []) := by
  unfold gradientBuffer
  cases storage.filter Storage.isSparse with
  | none => exact meets_outputOf_untouched hu a "zeros_like" [a]
  | some format =>
    exact (keeps_device a).bind fun d => (keeps_shape a).bind fun s => (keeps_type a).bind fun t =>
      meets_sibling_untouched hu a d s t format

theorem Joined.older {new : ArrayId} (hs : Joined account u id new s) :
    ∃ a b h, u.arrays.get? id = some a ∧ s.arrays.get? id = some b ∧ a.bare = b.bare ∧
      h.isNull = false ∧ Untouched account (u.joined a h) [h] s := by
  obtain ⟨-, a, h, ha, hnull, hjoined⟩ := hs
  have hfresh := hu.numbered.fresh_array
  have hne : id ≠ u.lastId + 1 := by
    rintro rfl
    rw [hfresh] at ha
    exact absurd ha nofun
  have hget : (u.joined a h).arrays.get? id = some a := by
    rw [arrays_joined hfresh, Table.get?_insert, if_neg hne, ha]
  obtain ⟨b, hb, hbare⟩ := hjoined.alike.symm.array hget
  exact ⟨a, b, h, ha, hb, hbare.symm, hnull, hjoined⟩

theorem meets_handle_older {new : ArrayId} (id : ArrayId) :
    Meets (Joined account u id new) (handle id) (fun _ => Joined account u id new)
      (Stray account u) := by
  refine .of_state fun s hs => ?_
  obtain ⟨a, b, h, ha, hb, hbare, hnull, hjoined⟩ := hs.older hu
  cases hreleased : b.owned.isReleased with
  | false => exact .of_eq (handle_eq hb hreleased) hs
  | true =>
    refine .of_eq_error (handle_eq_error hb hreleased) ?_
    have howner := hu.owner_of_released ha (Tensor.owned_of_bare hbare ▸ hreleased)
    exact hjoined.stray (hu.staffed.arrays id a ha).accounted howner hnull

theorem Joined.handle_newest {new : ArrayId} (hs : Joined account u id new s) :
    ∃ h, handle new s = .ok h s := by
  obtain ⟨rfl, a, h, ha, hnull, hjoined⟩ := hs
  obtain ⟨b, hb, howned, -⟩ := hjoined.alike.newest hu.numbered.fresh_array
  exact ⟨_, handle_eq hb (howned ▸ hnull)⟩

theorem Joined.retire {new : ArrayId} (hs : Joined account u id new s) :
    ∃ t, retire new s = .ok ⟨⟩ t ∧ Stray account u t := by
  obtain ⟨rfl, a, h, ha, hnull, hjoined⟩ := hs
  have hlib := (hu.staffed.arrays id a ha).accounted
  obtain ⟨t, ht, halike, hnative⟩ := retire_joined hu (hu.admits_owner ha) hjoined.alike
  refine ⟨t, ht, a.engine, ⟨0⟩, hlib, halike, ?_⟩
  rw [hnative, if_neg (by simp [hnull])]
  exact (hlib.free h [] hnull).after hjoined.owned

theorem meets_attachGrad_untouched (a : ArrayId) (request : GradRequest) (storage : Option Storage) :
    Meets (Untouched account u []) (attachGrad a request storage) (fun _ _ => True)
      (Restored account u) := by
  refine meets_settled (F := fun s => Untouched account u [] s ∨ Stray account u s) ?_
    fun s hs => ?_
  case refine_2 =>
    rcases hs with hs | hs
    · exact ⟨s, hs.sweep hu, hs.restored⟩
    · exact hs.sweep hu
  refine (meets_gradientBuffer_untouched hu a storage).or_left.bind fun g => ?_
  refine .imp (E := Stray account u) (Q := fun _ _ => True) ?_ (fun _ hs => hs) (fun _ _ hs => hs)
    fun _ hs => .inr hs
  refine (meets_handle_older hu a).bind fun ah => .of_state fun s hs => ?_
  obtain ⟨gh, hgh⟩ := hs.handle_newest hu
  refine .of_step (bind_of_ok hgh) (Meets.start ?_ hs)
  refine ((keeps_callFor (I := Joined account u a g) (fun _ hlib =>
    hlib.markVariables [ah] [request] [gh]) a).outcome (F := Stray account u)).bind fun r => ?_
  cases r with
  | error e =>
    refine .of_state fun t ht => ?_
    obtain ⟨v, hv, hstray⟩ := Joined.retire hu ht
    exact .of_step (bind_of_ok hv) (.throw fun _ hw => hw ▸ hstray)
  | ok _ =>
    refine .of_state fun t ht => ?_
    obtain ⟨-, b, -, -, hb, -⟩ := Joined.older hu ht
    refine .of_step (bind_of_ok (array_eq hb)) (.modify_bind (I := fun _ => True) (fun _ _ => trivial) ?_)
    exact .forM_option (fun id => .of_state fun v _ => .of_eq (retire_eq v id) trivial) b.gradient

end Rest
end Session
end ScopedTensor
