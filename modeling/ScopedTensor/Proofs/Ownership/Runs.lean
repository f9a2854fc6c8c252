import ScopedTensor.Proofs.Ownership.Outputs
import ScopedTensor.Proofs.Ownership.Scopes
import ScopedTensor.Session.Operation

/-! Engines as a whole: every operation keeps a session sound, and so does every run. -/

namespace ScopedTensor

open ScopedTensor.Action Session

variable {half : HalfPrecision}
variable {σ : Type} {R : Regime σ} {d : Debts} {E : Session σ → Prop}
variable {account : σ → List Handle → Prop} {I : Session σ → Prop}

theorem sound_start {n : σ} (hacc : R.account n []) (hbarred : ∀ S, ¬ R.barred S)
    (hfloor : R.floor = 0) : Sound R {} (.start n) where
  numbered :=
    { arraysDistinct := List.nodup_nil
      scopesDistinct := List.nodup_nil
      arrays_le := fun _ h => absurd h (by simp [Session.start, Table.keys, Table.empty])
      scopes_le := fun _ h => absurd h (by simp [Session.start, Table.keys, Table.empty])
      gradient_gt := fun _ _ h => absurd h nofun
      parent_lt := fun _ _ h => absurd h nofun
      child_gt := fun _ _ h => absurd h (by simp [Session.start, Table.childrenAt])
      child_le := fun _ _ h => absurd h (by simp [Session.start, Table.childrenAt])
      child_parent := fun _ _ h => absurd h (by simp [Session.start, Table.childrenAt]) }
  registered :=
    { owner_iff := fun _ _ => by simp [Session.start, Table.ownerAt, Table.registry]
      once := fun _ => List.nodup_nil
      unreleased := fun _ _ h => absurd h (by simp [Session.start, Table.registry])
      shut := fun _ _ _ => rfl }
  rooted :=
    { orphaned := fun _ _ h => absurd h nofun
      child := fun _ _ h => absurd h nofun
      held := fun _ h => absurd h (by simp [Session.start, Table.keys, Table.empty])
      barred := fun S h => absurd h (hbarred S)
      root := fun _ h => absurd h (by simp [Session.start, Table.keys, Table.empty])
      floor := Nat.le_of_eq hfloor }
  staffed := ⟨fun _ _ h => absurd h nofun, fun _ _ h => absurd h nofun⟩
  held _ _ h := absurd h (by simp [Session.start, Table.keys, Table.empty])
  named := ⟨fun _ h => absurd h (by simp [Session.start]), fun _ _ h => absurd h nofun⟩
  account := hacc

theorem meets_build {library : Library σ} (hlib : library.Accounted R.account)
    (hadmits : ∀ e : LoadedEngine σ, e.library = library → R.admits e)
    (configuration : Configuration) (device : Device) {n : Nat} (hroot : R.root (n + 2)) :
    Meets (fun s => Sound R {} s ∧ s.lastId = n) (Engine.build library configuration device)
      (fun e s => (e.system = n + 2 ∧ s.lastId = n + 2 ∧ e.loaded.library = library) ∧ Sound R {} s)
      (Sound R {}) := by
  have hnative : ∀ {β : Type} {a : Action σ β} {m : Nat}, Undisturbed R.account a →
      Meets (fun s => Sound R {} s ∧ s.lastId = m) (onNative a)
        (fun _ s => Sound R {} s ∧ s.lastId = m) (Sound R {}) := by
    intro β a m ha
    refine .zoom fun s ⟨hs, hm⟩ => ?_
    have := ha _ s.native hs.account
    cases hr : a s.native with
    | ok x k => rw [hr] at this; exact ⟨hs.native this, hm⟩
    | error e k => rw [hr] at this; exact hs.native this
  have hseed : Meets (fun s => Sound R {} s ∧ s.lastId = n + 1)
      (configuration.randomSeed.forM fun seed => onNative (library.randomSeed seed))
      (fun _ s => Sound R {} s ∧ s.lastId = n + 1) (Sound R {}) := by
    cases configuration.randomSeed with
    | none => exact .pure fun _ hs => hs
    | some seed => exact hnative (hlib.randomSeed seed)
  unfold Engine.build
  refine (hnative hlib.load).bind fun operators => ?_
  refine Meets.bind (Q := fun k s => k = n + 1 ∧ Sound R {} s ∧ s.lastId = n + 1) ?_ fun k => ?_
  · intro s hs
    obtain ⟨hs, rfl⟩ := hs
    exact ⟨rfl, hs.counted, rfl⟩
  · refine (hseed.of_imp fun s hs => hs.2).bind fun _ => .of_state fun t ⟨ht, hlast⟩ => ?_
    refine (meets_rootScope (hadmits _ rfl) device ht (hlast ▸ hroot)).bind fun system => ?_
    have hnext : t.lastId + 1 = n + 2 := congrArg (· + 1) hlast
    exact .pure fun s hs => ⟨⟨hs.1.trans hnext, hs.2.1.trans hnext, rfl⟩, hs.2.2⟩

theorem keeps_start [Lasting account I] {engine : LoadedEngine σ}
    (hlib : engine.library.Accounted account) :
    Keeps I (onNative (RecordingSection.start engine)) := by
  refine keeps_onNative fun owned => (hlib.setRecording true owned).bind fun recording => ?_
  refine ((hlib.setTraining true owned).outcome (F := (account · owned))).bind fun training => ?_
  cases training with
  | ok training => exact .pure fun _ hn => hn
  | error e =>
    exact (Keeps.quietly (hlib.setRecording recording owned)).bind fun _ => .throw fun _ hn => hn

theorem keeps_finish [Lasting account I] {engine : LoadedEngine σ}
    (hlib : engine.library.Accounted account) (recording training : Bool) :
    Keeps I (onNative (RecordingSection.finish ⟨engine, recording, training⟩)) :=
  keeps_onNative fun owned => (Keeps.quietly (hlib.setRecording recording owned)).bind fun _ =>
    Keeps.quietly (hlib.setTraining training owned)

theorem meets_drop (e : Engine σ) :
    Meets (Sound R {}) e.drop (fun _ s => Sound R {} s ∧ s.scopes.openAt e.system = false) E := by
  refine .of_state fun s hs => ((meets_closeScope .trivial e.system (fun _ => ⟨⟩)
    fun x hx => ?_).start ⟨hs, rfl, ⟨⟩⟩).bind fun _ => .of_state fun t ⟨ht, hshut⟩ => ?_
  · exact absurd hx nofun
  · exact (meets_dropScope e.system ht.sound).to_imp fun _ _ hs => ⟨hs.1, hs.2 hshut⟩

theorem keeps_drop (e : Engine σ) : Keeps (Sound R {}) e.drop :=
  (meets_drop e).to_imp fun _ _ hs => hs.1

theorem keeps_parentOf (id : ScopeId) : Keeps I (parentOf id) :=
  .get_bind fun _ ht => .done ht

theorem Operation.keeps_perform {e : Engine σ} (he : R.admits e.loaded) (op : Operation) :
    Keeps (Sound R {}) (op.perform e) := by
  have hlib := R.accounted he
  have hpure : ∀ {β : Type} {x : β} {E : Session σ → Prop},
      Meets (Sound R {}) (pure x) (fun _ => Sound R {}) E := .pure fun _ hs => hs
  cases op with
  | version => exact .map (keeps_onNative hlib.version)
  | gpuCount => exact .map (keeps_onNative hlib.gpuCount)
  | hasAccelerators =>
    refine .map (((keeps_onNative hlib.gpuCount).outcome (F := Sound R {})).bind fun r => ?_)
    cases r <;> exact hpure
  | setRandomSeed seed => exact keeps_onNative (hlib.randomSeed seed)
  | baseScope d => exact .map (keeps_subScope _ _)
  | subScope parent d => exact .map (keeps_subScope parent d)
  | parentOf id => exact .map (keeps_parentOf id)
  | owns id a => exact .map ((meets_scope id fun _ hs => hs).bind fun _ => .pure fun _ hs => hs.2)
  | cloneScope id =>
    exact (meets_scope id fun _ hs => hs).bind fun _ => .modify fun _ hs => hs.2.holdScope id
  | closeScope id => exact meets_closeScope_whole id
  | dropScope id => exact keeps_dropScope id
  | adopt target id => exact keeps_adopt target id
  | detach id => exact keeps_settled (keeps_leave id)
  | closeArray id => exact keeps_settled (meets_retire id)
  | cloneArray id =>
    refine (meets_array id fun _ hs => hs).bind fun a => .modify fun s hs => ?_
    exact hs.2.hold (hs.2.numbered.arrays_le id ((Table.mem_keys_iff _ _).2 ⟨a, hs.1⟩))
  | dropArray id => exact keeps_settled (.modify fun _ hs => hs.unhold rfl id)
  | create id s t => exact .map (keeps_create id s t)
  | createOn id v s t st => exact .map (keeps_createOn id v s t st)
  | filled op id s t => exact .map (keeps_filled op id s t)
  | fromValues id t values s => exact .map (keeps_fromValues id t values s)
  | shape id => exact .map (keeps_shape id)
  | type id => exact .map (keeps_type id)
  | device id => exact .map (keeps_device id)
  | storage id => exact .map (keeps_storage id)
  | description id => exact .map (keeps_description id)
  | setName id name => exact keeps_setName id name
  | isReleased id => exact .map (keeps_of_accounted (fun _ _ => hpure) id)
  | markReady id => exact keeps_markReady id
  | waitToRead id => exact keeps_waitToRead id
  | waitToWrite id => exact keeps_waitToWrite id
  | waitAll id => exact keeps_waitAll id
  | set id t values => exact keeps_set id t values
  | setBytes id bytes => exact keeps_setBytes id bytes
  | toBytes id => exact .map (keeps_toBytes id)
  | toValues id t => exact .map (keeps_toValues id t)
  | toDoubles id => exact .map (keeps_toDoubles id)
  | dump id => exact .map (keeps_dump id)
  | invoke id op inputs params => exact .map (keeps_invoke id op inputs params)
  | copyTo source target => exact keeps_copyTo source target
  | toDevice id target copy => exact .map (keeps_toDevice id target copy)
  | toType id target copy => exact .map (keeps_toType id target copy)
  | arithmetic op a b => exact .map (keeps_arithmetic op a b)
  | unary op params a => exact .map (keeps_unary op params a)
  | row a index => exact .map (keeps_row a index)
  | slice a first last => exact .map (keeps_slice a first last)
  | reshape a target => exact .map (keeps_reshape a target)
  | split a axis parts => exact .map (keeps_split a axis parts)
  | splitSqueeze a axis => exact .map (keeps_splitSqueeze a axis)
  | attachGrad a request st => exact keeps_attachGrad a request st
  | backward a seed retain training => exact keeps_backward a seed retain training
  | gradient a => exact .map (keeps_gradient a)
  | startRecording => exact .map (keeps_start hlib)
  | finishRecording recording training => exact keeps_finish hlib recording training
  | recordedBackward a seed retain =>
    exact keeps_of_accounted (fun _ _ => .guard (fun _ hs => hs) fun _ =>
      keeps_backward a seed retain true) a
  | dropEngine => exact keeps_drop e

theorem Operation.sound_step [HalfPrecision] {e : Engine σ} (he : R.admits e.loaded) {s : Session σ}
    (hs : Sound R {} s) (op : Operation) : Sound R {} (Operation.step e s op) :=
  (Operation.keeps_perform he op).after hs

theorem Operation.sound_run {e : Engine σ} (he : R.admits e.loaded) {s : Session σ}
    (hs : Sound R {} s) (ops : List Operation) : Sound R {} (Operation.run e s ops) := by
  induction ops generalizing s with
  | nil => exact hs
  | cons op ops ih => exact ih (Operation.sound_step he hs op)

end ScopedTensor
