import Mathlib.Logic.Relation
import ScopedTensor.Library.Call
import ScopedTensor.Proofs.Ownership.Runs

/-! Operations taken apart into moves. A move tidies the tables, has an engine called, remembers
what an engine answered about an array, or puts a new array around a handle. Whatever every move
keeps is kept by every operation. -/

namespace ScopedTensor

open ScopedTensor.Action Relation

variable {half : HalfPrecision}
variable {σ α β : Type}

def Library.Call.marks : Library.Call → Bool
  | .markVariables .. => true
  | _ => false

theorem OwnedHandle.get_eq_ok {r : OwnedHandle} {h : Handle} :
    r.get = .ok h ↔ r.isReleased = false ∧ r.handle = h := by
  unfold get
  split
  · exact ⟨nofun, fun ⟨hopen, _⟩ => absurd hopen (by simpa using ‹_›)⟩
  · rename_i hopen
    rw [Except.ok.injEq]
    exact ⟨fun hh => ⟨by simpa using hopen, hh⟩, And.right⟩

/-- What is remembered of an array. -/
inductive Trait where
  | shape
  | type
  | device
  | storage
  deriving DecidableEq

namespace Trait

def call (h : Handle) : Trait → Library.Call
  | shape => .shape h
  | type => .type h
  | device => .device h
  | storage => .storage h

def known (a : Tensor σ) : Trait → Option Library.Answer
  | shape => a.shape.map .shape
  | type => a.type.map .type
  | device => a.device.map .device
  | storage => a.storage.map .storage

theorem marks_call (t : Trait) (h : Handle) : (t.call h).marks = false := by cases t <;> rfl

end Trait

namespace Tensor

variable {a b : Tensor σ}

def learn (x : Library.Answer) (a : Tensor σ) : Tensor σ :=
  match x with
  | .shape s => { a with shape := some s }
  | .type t => { a with type := some t }
  | .device d => { a with device := some d }
  | .storage st => { a with storage := some st }
  | _ => a

theorem engine_learn (x : Library.Answer) (a : Tensor σ) : (a.learn x).engine = a.engine := by
  cases x <;> rfl

theorem owned_learn (x : Library.Answer) (a : Tensor σ) : (a.learn x).owned = a.owned := by
  cases x <;> rfl

def facts (a : Tensor σ) : LoadedEngine σ × OwnedHandle × Option Shape × Option ElementType ×
    Option Device × Option Storage :=
  (a.engine, a.owned, a.shape, a.type, a.device, a.storage)

/-- What `a` may become when nothing is learnt about it: its handle may have been given back. -/
structure Heir (b a : Tensor σ) : Prop where
  engine : b.engine = a.engine
  owned : b.owned = a.owned ∨ b.owned = ⟨⟨0⟩⟩
  known : ∀ t : Trait, t.known b = t.known a

theorem heir_of_facts (h : b.facts = a.facts) : b.Heir a := by
  simp only [facts, Prod.mk.injEq] at h
  obtain ⟨hengine, howned, hshape, htype, hdevice, hstorage⟩ := h
  refine ⟨hengine, .inl howned, fun t => ?_⟩
  cases t with
  | shape => exact congrArg (Option.map Library.Answer.shape) hshape
  | type => exact congrArg (Option.map Library.Answer.type) htype
  | device => exact congrArg (Option.map Library.Answer.device) hdevice
  | storage => exact congrArg (Option.map Library.Answer.storage) hstorage

theorem Heir.refl (a : Tensor σ) : a.Heir a := heir_of_facts rfl

theorem heir_withOwned (a : Tensor σ) : (a.withOwned ⟨⟨0⟩⟩).Heir a :=
  ⟨rfl, .inr rfl, fun t => by cases t <;> rfl⟩

end Tensor

/-- The engines that operations are about, the calls they make, and the shapes they fill arrays in.
-/
structure Mandate (σ : Type) where
  admits : LoadedEngine σ → Prop
  asks : Library.Call → Prop
  fills : Shape → Prop
  others : ∀ c : Library.Call, c.marks = false → asks c

def Params.filling (shape : Shape) (device : Device) (type : ElementType) : Params :=
  ((Params.empty.set "shape" (Params.dimsParam shape)).set "ctx" (.device device)).set "dtype"
    (.type type)

namespace Mandate

def Reach (M : Mandate σ) (lib : Library σ) : σ → σ → Prop :=
  ReflTransGen fun n m => ∃ c : Library.Call, M.asks c ∧ m = c.step lib n

instance (M : Mandate σ) (lib : Library σ) : Trans (M.Reach lib) (M.Reach lib) (M.Reach lib) :=
  ⟨ReflTransGen.trans⟩

/-- The engine has just been asked for the array with what is known about it. -/
inductive Minted (M : Mandate σ) (e : LoadedEngine σ) (d : Description) (h : Handle) (n : σ) : Prop
  | created {m : σ}
    (hcreate : e.library.create d.device d.shape d.type d.storage false m = .ok h n)
  | filled {op : String} {hs : List Handle} {m : σ} (hstorage : d.storage = .dense)
    (hshape : M.fills d.shape)
    (hfill : e.operators.invoke e.library op [] none (.filling d.shape d.device d.type) m = .ok hs n)
    (hh : h ∈ hs)

end Mandate

namespace Session

variable {M : Mandate σ} {s₀ s t : Session σ} {e : LoadedEngine σ} {lib : Library σ}

/-- From `s` to `t` only the tables change: no array comes in, and nothing is learnt. -/
structure Tidied (M : Mandate σ) (s t : Session σ) : Prop where
  native : t.native = s.native
  lastId : s.lastId ≤ t.lastId
  arrays : ∀ id b, t.arrays.get? id = some b → ∃ a, s.arrays.get? id = some a ∧ b.Heir a
  scopes : ∀ S c, t.scopes.get? S = some c → M.admits c.engine

inductive Move (M : Mandate σ) (s : Session σ) : Session σ → Prop
  | tidied {t : Session σ} (h : s.Tidied M t) : Move M s t
  | called {e : LoadedEngine σ} (he : M.admits e) {n : σ} (h : M.Reach e.library s.native n) :
    Move M s { s with native := n }
  | learned {id : ArrayId} {a : Tensor σ} (ha : s.arrays.get? id = some a) (he : M.admits a.engine)
    (hopen : a.owned.isReleased = false) {t : Trait} (ht : t.known a = none) {x : Library.Answer}
    {n : σ} (hx : (t.call a.owned.handle).perform a.engine.library s.native = .ok x n) :
    Move M s { s with native := n, arrays := s.arrays.modify id (Tensor.learn x) }
  | wrapped {e : LoadedEngine σ} (he : M.admits e) (h : Handle) {known : Option Description}
    (hknown : ∀ d ∈ known, M.Minted e d h s.native) : Move M s (s.wrapped e h known)

/-- Moves from `s₀` lead to `s`, and engines that are admitted are all there are. -/
structure Work (M : Mandate σ) (s₀ s : Session σ) : Prop where
  arrays : ∀ id a, s.arrays.get? id = some a → M.admits a.engine
  scopes : ∀ S c, s.scopes.get? S = some c → M.admits c.engine
  moves : ReflTransGen (Move M) s₀ s

theorem Work.move (hs : Work M s₀ s) (h : Move M s t) : Work M s₀ t := by
  have hmoves := hs.moves.tail h
  cases h with
  | tidied h =>
    refine ⟨fun id b hb => ?_, h.scopes, hmoves⟩
    obtain ⟨a, ha, hheir⟩ := h.arrays id b hb
    exact hheir.engine ▸ hs.arrays id a ha
  | called => exact ⟨hs.arrays, hs.scopes, hmoves⟩
  | learned ha he hopen ht hx =>
    refine ⟨fun id b hb => ?_, hs.scopes, hmoves⟩
    rcases Table.get?_modify_eq_some.1 hb with ⟨-, a, ha, rfl⟩ | ⟨-, hb⟩
    · exact (Tensor.engine_learn _ a).symm ▸ hs.arrays id a ha
    · exact hs.arrays id b hb
  | wrapped he h hknown =>
    refine ⟨fun id b hb => ?_, hs.scopes, hmoves⟩
    rcases Table.get?_insert_eq_some.1 hb with ⟨-, rfl⟩ | ⟨-, hb⟩
    · exact he
    · exact hs.arrays id b hb

theorem onNative_error {a : Action σ α} {x : Error} {n : σ} (h : a s.native = .error x n) :
    onNative a s = .error x { s with native := n } := by
  unfold onNative Action.zoom
  rw [h]

abbrev Calls (M : Mandate σ) (lib : Library σ) (a : Action σ α) : Prop := Within (M.Reach lib) a

end Session

namespace Mandate

open Session

variable {M : Mandate σ} {lib : Library σ} {a : Action σ α}

theorem calls (c : Library.Call) (hc : M.asks c) {g : α → Library.Answer}
    (ha : c.perform lib = g <$> a) : Calls M lib a := by
  have hcall : Calls M lib (c.perform lib) := .of_after fun n => .single ⟨c, hc, rfl⟩
  rw [ha] at hcall
  exact fun n => (hcall n).of_map

theorem call (c : Library.Call) {g : α → Library.Answer} (ha : c.perform lib = g <$> a)
    (hc : c.marks = false) : Calls M lib a := M.calls c (M.others c hc) ha

theorem quietly (h : Calls M lib a) : Calls M lib a.quietly := fun n => Keeps.quietly (h n)

theorem load (lib : Library σ) : Calls M lib (OperatorTable.load lib) :=
  (M.call .listOps (g := .names) rfl rfl).bind fun names => fun n => Keeps.foldlM
    (fun _ name => (M.call (.getOp name) (g := .operator) rfl rfl n).bind fun _ => keeps_pure _)
    names _

theorem invoke (lib : Library σ) (t : OperatorTable) (name : String) (inputs : List Handle)
    (outputs : Option (List Handle)) (params : Params) :
    Calls M lib (t.invoke lib name inputs outputs params) :=
  (Within.ofExcept _).bind fun op => M.call (.invoke op inputs outputs params) (g := .handles) rfl rfl

theorem release (lib : Library σ) (r : OwnedHandle) : Calls M lib (r.release lib) :=
  .ite (.pure _) ((quietly (M.call (.free r.handle) (g := fun _ => .done) rfl rfl)).bind
    fun _ => .pure _)

theorem wait (r : Readiness) {call : Action σ Unit} (h : Calls M lib call) :
    Calls M lib (r.wait call) := .ite (.pure _) (h.bind fun _ => .pure _)

theorem throughRow (lib : Library σ) (x : Handle) (i : Nat) {render : Handle → Action σ String}
    (hrender : ∀ v, Calls M lib (render v)) : Calls M lib (Dump.throughRow lib x i render) := by
  refine (M.call (.row x i) (g := .handle) rfl rfl).bind fun v => ?_
  have hrow : Calls M lib (do render (← Action.ofExcept (OwnedHandle.mk v).get)) :=
    (Within.ofExcept _).bind hrender
  have houtcome : Calls M lib (do render (← Action.ofExcept (OwnedHandle.mk v).get)).outcome :=
    fun n => ((hrow n).outcome (F := M.Reach lib n)).to_imp fun text _ hn => by
      cases text <;> exact hn
  exact houtcome.bind fun text => (M.release lib ⟨v⟩).bind fun _ => .ofExcept text

theorem leaf (lib : Library σ) (t : ElementType) (x : Handle) (k : Nat) :
    Calls M lib (Dump.leaf lib t x k) :=
  (M.call (.copyOut x _ k) (g := .bytes) rfl rfl).bind fun _ => .pure _

theorem level (lib : Library σ) (t : ElementType) (dims : List Nat) (depth : Nat) (x : Handle) :
    Calls M lib (Dump.level lib t dims depth x) := by
  induction dims generalizing depth x with
  | nil => exact (M.leaf lib t x 1).bind fun _ => .pure _
  | cons k dims ih =>
    cases dims with
    | nil => exact (M.leaf lib t x k).bind fun _ => .pure _
    | cons m dims =>
      have hrows : ∀ is : List Nat, Calls M lib (is.mapM fun i =>
          Dump.throughRow lib x i (Dump.level lib t (m :: dims) (depth + 1))) :=
        fun is n => Keeps.mapM (fun i => M.throughRow lib x i (ih (depth + 1)) n) is
      exact (hrows _).bind fun _ => .pure _

theorem start (engine : LoadedEngine σ) :
    Calls M engine.library (RecordingSection.start engine) := by
  refine (M.call (.setRecording true) (g := .switch) rfl rfl).bind fun recording => ?_
  have htraining : Calls M engine.library (engine.library.setTraining true).outcome := fun n =>
    ((M.call (.setTraining true) (g := .switch) rfl rfl n).outcome
      (F := M.Reach engine.library n)).to_imp fun training _ hn => by cases training <;> exact hn
  refine htraining.bind fun training => ?_
  cases training with
  | ok training => exact .pure _
  | error e =>
    exact (quietly (M.call (.setRecording recording) (g := .switch) rfl rfl)).bind
      fun _ => .throw e

theorem finish (engine : LoadedEngine σ) (recording training : Bool) :
    Calls M engine.library (RecordingSection.finish ⟨engine, recording, training⟩) :=
  (quietly (M.call (.setRecording recording) (g := .switch) rfl rfl)).bind fun _ =>
    quietly (M.call (.setTraining training) (g := .switch) rfl rfl)

end Mandate

namespace Session

variable {M : Mandate σ} {s₀ s t : Session σ} {e : LoadedEngine σ} {E : Session σ → Prop}

theorem works_onNative (he : M.admits e) {a : Action σ α} (ha : Calls M e.library a) :
    Keeps (Work M s₀) (onNative a) := by
  refine .zoom fun s hs => ?_
  have hcalls := ha s.native s.native .refl
  cases hr : a s.native with
  | ok x n | error x n =>
    rw [hr] at hcalls
    exact hs.move (.called he hcalls)

theorem works_array (id : ArrayId) :
    Meets (Work M s₀) (array id) (fun a s => M.admits a.engine ∧ Work M s₀ s) (Work M s₀) :=
  (meets_array id fun _ hs => hs).to_imp fun a _ hs => ⟨hs.2.arrays id a hs.1, hs.2⟩

theorem works_of_array {f : Tensor σ → Action (Session σ) β}
    (hf : ∀ a, M.admits a.engine → Keeps (Work M s₀) (f a)) (id : ArrayId) :
    Keeps (Work M s₀) (array id >>= f) :=
  (works_array id).bind fun a s hs => hf a hs.1 s hs.2

theorem works_of_scope {f : Scope σ → Action (Session σ) β}
    (hf : ∀ c, M.admits c.engine → Keeps (Work M s₀) (f c)) (S : ScopeId) :
    Keeps (Work M s₀) (scope S >>= f) :=
  (meets_scope S fun _ hs => hs).bind fun c s hs => hf c (hs.2.scopes S c hs.1) s hs.2

theorem works_callFor {f : Library σ → Action σ α} (hf : ∀ lib, Calls M lib (f lib))
    (id : ArrayId) : Keeps (Work M s₀) (callFor id f) :=
  works_of_array (fun _ ha => works_onNative ha (hf _)) id

theorem works_handle (id : ArrayId) : Keeps (Work M s₀) (handle id) :=
  works_of_array (fun _ _ => keeps_ofExcept _) id

theorem Work.retable (hs : Work M s₀ s) (hnative : t.native = s.native) (hid : s.lastId ≤ t.lastId)
    (harrays : t.arrays = s.arrays) (hscopes : ∀ S c, t.scopes.get? S = some c → M.admits c.engine) :
    Work M s₀ t :=
  hs.move (.tidied ⟨hnative, hid, fun _ b hb => ⟨b, harrays ▸ hb, .refl b⟩, hscopes⟩)

theorem Work.modified (hs : Work M s₀ s) (id : ArrayId) {f : Tensor σ → Tensor σ}
    (hf : ∀ a, (f a).Heir a) : Work M s₀ { s with arrays := s.arrays.modify id f } := by
  refine hs.move (.tidied ⟨rfl, Nat.le_refl _, fun j b hb => ?_, hs.scopes⟩)
  rcases Table.get?_modify_eq_some.1 hb with ⟨-, a, ha, rfl⟩ | ⟨-, hb⟩
  · exact ⟨a, ha, hf a⟩
  · exact ⟨b, hb, .refl b⟩

theorem works_modifyArray (id : ArrayId) {f : Tensor σ → Tensor σ}
    (hf : ∀ a, (f a).facts = a.facts) :
    Meets (Work M s₀) (modifyArray id f) (fun _ => Work M s₀) E :=
  .modify fun _ hs => hs.modified id fun a => Tensor.heir_of_facts (hf a)

theorem works_modifyScope (S : ScopeId) {f : Scope σ → Scope σ}
    (hf : ∀ c, (f c).engine = c.engine) :
    Meets (Work M s₀) (modifyScope S f) (fun _ => Work M s₀) E :=
  .modify fun s hs => hs.retable rfl (Nat.le_refl _) rfl fun T b hb => by
    rcases Table.get?_modify_eq_some.1 hb with ⟨-, c, hc, rfl⟩ | ⟨-, hb⟩
    · exact (hf c).symm ▸ hs.scopes T c hc
    · exact hs.scopes T b hb

theorem works_holdArray (id : ArrayId) : Keeps (Work M s₀) (holdArray id) :=
  .modify fun _ hs => hs.retable rfl (Nat.le_refl _) rfl hs.scopes

theorem works_holdScope (S : ScopeId) : Keeps (Work M s₀) (holdScope S) :=
  .modify fun _ hs => hs.retable rfl (Nat.le_refl _) rfl hs.scopes

theorem works_freshId : Keeps (Work M s₀) freshId := fun _ hs =>
  hs.retable rfl (Nat.le_succ _) rfl hs.scopes

theorem works_release (id : ArrayId) : Meets (Work M s₀) (release id) (fun _ => Work M s₀) E := by
  refine .of_state fun s hs => .of_eq (release_eq s id) ?_
  cases ha : s.arrays.get? id with
  | none =>
    rw [givenBack_of_none ha]
    exact hs
  | some a =>
    rw [givenBack_of_some ha]
    have hcalls : M.Reach a.engine.library s.native (if a.owned.isReleased then s.native
        else (a.engine.library.free a.owned.handle).after s.native) := by
      split
      · exact .refl
      · have hfree : Calls M a.engine.library (a.engine.library.free a.owned.handle) :=
          M.call (.free a.owned.handle) (g := fun _ => .done) rfl rfl
        exact hfree.after .refl
    have hcalled := hs.move (.called (hs.arrays id a ha) hcalls)
    exact hcalled.modified id Tensor.heir_withOwned

theorem works_bury (id : ArrayId) : Keeps (Work M s₀) (bury id) := by
  refine (works_release id).bind fun _ => .modify fun s hs => ?_
  refine hs.move (.tidied ⟨rfl, Nat.le_refl _, fun j b hb => ?_, hs.scopes⟩)
  exact ⟨b, (Table.get?_erase_eq_some.1 hb).2, .refl b⟩

theorem works_letGo (id : ArrayId) : Keeps (Work M s₀) (letGo id) :=
  .get_bind fun _ ht => .ite (fun _ => (works_bury id).start ht) fun _ => .done ht

theorem works_buryUnheld : ∀ n, Keeps (Work M s₀) (buryUnheld n)
  | 0 => keeps_pure _
  | n + 1 => by
    unfold buryUnheld
    refine .get_bind fun t ht => ?_
    split
    · exact .done ht
    · exact ((works_bury _).start ht).bind fun _ => works_buryUnheld n

theorem works_sweep : Keeps (Work M s₀) sweep :=
  .get_bind fun _ ht => (works_buryUnheld _).start ht

theorem works_settled {a : Action (Session σ) α} (ha : Keeps (Work M s₀) a) :
    Keeps (Work M s₀) (settled a) := meets_settled_of_keeps ha works_sweep

theorem works_keeping {a : Action (Session σ) ArrayId} (ha : Keeps (Work M s₀) a) :
    Keeps (Work M s₀) (keeping a) :=
  works_settled (ha.bind fun id => (works_holdArray id).bind fun _ => keeps_pure _)

theorem works_keepingAll {a : Action (Session σ) (List ArrayId)} (ha : Keeps (Work M s₀) a) :
    Keeps (Work M s₀) (keepingAll a) :=
  works_settled (ha.bind fun ids => (Keeps.forM works_holdArray ids).bind fun _ => keeps_pure _)

theorem works_wrap (he : M.admits e) (h : Handle) (known : Option Description) :
    Meets (fun s => Work M s₀ s ∧ ∀ d ∈ known, M.Minted e d h s.native) (wrap e h known)
      (fun _ => Work M s₀) E :=
  .of_state fun s hs => .of_eq (wrap_eq s e h known) (hs.1.move (.wrapped he h hs.2))

theorem works_attach (owner : Option ScopeId) (id : ArrayId) :
    Keeps (Work M s₀) (attach owner id) := by
  cases owner with
  | none => exact keeps_pure _
  | some S =>
    refine works_of_scope (fun c _ => .guard (fun _ hs => hs) fun _ => ?_) S
    exact (works_modifyScope S fun _ => by rfl).bind fun _ => works_modifyArray id fun _ => by rfl

theorem works_leave (id : ArrayId) : Keeps (Work M s₀) (leave id) := by
  refine .get_bind fun t ht => ?_
  split
  · exact .done ht
  · exact ((works_modifyArray id fun _ => by rfl).start ht).bind fun _ =>
      works_modifyScope _ fun _ => by rfl

theorem works_retire (id : ArrayId) : Keeps (Work M s₀) (retire id) :=
  (works_release id).bind fun _ => works_leave id

theorem works_newScope (he : M.admits e) (device : Device) (parent : Option ScopeId)
    (closed : Bool) : Keeps (Work M s₀) (newScope e device parent closed) := by
  refine works_freshId.bind fun S => .modify_bind (I := Work M s₀) (fun s hs => ?_)
    ((works_holdScope S).bind fun _ => keeps_pure _)
  refine hs.retable rfl (Nat.le_refl _) rfl fun T c hc => ?_
  rcases Table.get?_insert_eq_some.1 hc with ⟨-, rfl⟩ | ⟨-, hc⟩
  · exact he
  · exact hs.scopes T c hc

theorem works_subScope (parent : ScopeId) (device : Option Device) :
    Keeps (Work M s₀) (subScope parent device) := by
  refine works_of_scope (fun c hc => (works_newScope hc _ _ _).bind fun child => ?_) parent
  refine .ite (fun _ => .get_bind fun t ht => ?_) fun _ => keeps_pure _
  exact ((works_modifyScope parent fun _ => by rfl).start ht).bind fun _ => keeps_pure _

theorem works_surrender (owner : ScopeId) (id : ArrayId) :
    Keeps (Work M s₀) (surrender owner id) := by
  refine (works_modifyScope owner fun _ => by rfl).bind fun _ => .get_bind fun t ht => ?_
  refine .ite (fun _ => ?_) fun _ => works_sweep.start ht
  exact ((works_modifyArray id fun _ => by rfl).start ht).bind fun _ =>
    (works_release id).bind fun _ => works_sweep

theorem works_closeWithin : ∀ (depth : Nat) (S : ScopeId), Keeps (Work M s₀) (closeWithin depth S)
  | 0, _ => keeps_pure _
  | depth + 1, S => by
    unfold closeWithin
    refine .get_bind fun t ht => ?_
    split
    · exact .done ht
    · rename_i c hc
      refine .ite (fun _ => ?_) fun _ => .done ht
      refine ((works_modifyScope S fun _ => by rfl).start ht).bind fun _ => ?_
      refine (Keeps.forM (works_surrender S) c.arrays).bind fun _ => Keeps.forM (fun child => ?_) _
      exact .get_bind fun u hu => .ite (fun _ => (works_closeWithin depth child).start hu)
        fun _ => .done hu

theorem works_closeScope (S : ScopeId) : Keeps (Work M s₀) (closeScope S) :=
  .get_bind fun _ ht => (works_closeWithin _ S).start ht

theorem works_dropScope (S : ScopeId) : Keeps (Work M s₀) (dropScope S) := by
  refine .modify_bind (I := Work M s₀) (fun _ hs => hs.retable rfl (Nat.le_refl _) rfl hs.scopes)
    (.get_bind fun t ht => ?_)
  refine .ite (fun _ => ?_) fun _ => .done ht
  refine ((works_closeScope S).start ht).bind fun _ => .modify fun s hs => ?_
  exact hs.retable rfl (Nat.le_refl _) rfl fun T c hc =>
    hs.scopes T c (Table.get?_erase_eq_some.1 hc).2

theorem works_adopt (target : ScopeId) (id : ArrayId) : Keeps (Work M s₀) (adopt target id) := by
  have hmoved : Keeps (Work M s₀) (do
      modifyScope target fun s => { s with arrays := s.arrays ++ [id] }
      modifyArray id fun a : Tensor σ => { a with owner := some target }) :=
    (works_modifyScope target fun _ => by rfl).bind fun _ => works_modifyArray id fun _ => by rfl
  refine works_of_scope (fun c _ => works_of_array (fun a _ => ?_) id) target
  refine .guard (fun _ hs => hs) fun _ => .guard (fun _ hs => hs) fun _ => ?_
  split
  · exact .guard (fun _ hs => hs) fun _ => hmoved
  · refine .get_bind fun t ht => ?_
    split
    · refine .start (.guard (fun _ hs => hs) fun _ => .ite (fun _ => keeps_pure _) fun _ => ?_) ht
      refine .guard (fun _ hs => hs) fun _ => ?_
      exact (works_modifyScope _ fun _ => by rfl).bind fun _ => hmoved
    · exact (keeps_throw _).start ht

end Session
end ScopedTensor
