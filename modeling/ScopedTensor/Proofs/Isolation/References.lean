import ScopedTensor.Library.Backends
import ScopedTensor.Proofs.Isolation.Programs
import ScopedTensor.Proofs.Ownership.Offerings
import ScopedTensor.Proofs.Ownership.Reachability

/-! Programs over reference engines, each with a state of its own. The handles that the arrays of an
engine own are live in the state of that engine. -/

namespace ScopedTensor

open ScopedTensor.Action Session Relation Library

variable {half : HalfPrecision}

section Libraries

variable {σ τ α β : Type} {lib : Library σ} {account : σ → List Handle → Prop}

theorem Library.perform_zoom (get : τ → σ) (put : σ → τ → τ) (lib : Library σ) (c : Call) :
    c.perform (lib.zoom get put) = (c.perform lib).zoom get put := by
  cases c <;> exact map_zoom _ _ _ _

theorem Undisturbed.zoom_trivial {get : τ → σ} {put : σ → τ → τ} {a : Action σ α} :
    Undisturbed (fun _ _ => True) (a.zoom get put) := fun _ => .zoom fun t _ => by
  cases a (get t) <;> trivial

theorem Issues.zoom_trivial {get : τ → σ} {put : σ → τ → τ} {a : Action σ α}
    {issued : α → List Handle} (h : Issues (fun _ _ => True) a issued) :
    Issues (fun _ _ => True) (a.zoom get put) issued := fun owned => .zoom fun t _ => by
  have hissued := h owned (get t) trivial
  cases hr : a (get t) with
  | ok x n =>
    rw [hr] at hissued
    exact hissued
  | error e n => trivial

theorem Library.NeverNull.zoom (h : lib.NeverNull) (get : τ → σ) (put : σ → τ → τ) :
    (lib.zoom get put).NeverNull where
  version := .zoom_trivial
  gpuCount := .zoom_trivial
  listOps := .zoom_trivial
  getOp _ := .zoom_trivial
  create d s t st delayed := (h.create d s t st delayed).zoom_trivial
  free _ _ _ := Undisturbed.zoom_trivial []
  shape _ := .zoom_trivial
  type _ := .zoom_trivial
  device _ := .zoom_trivial
  storage _ := .zoom_trivial
  copyIn _ _ _ := .zoom_trivial
  copyOut _ _ _ := .zoom_trivial
  waitToRead _ := .zoom_trivial
  waitToWrite _ := .zoom_trivial
  waitAll := .zoom_trivial
  invoke op inputs params := (h.invoke op inputs params).zoom_trivial
  invokeInto _ _ _ _ := .zoom_trivial
  row x i := (h.row x i).zoom_trivial
  slice x first last := (h.slice x first last).zoom_trivial
  reshape x target reverse := (h.reshape x target reverse).zoom_trivial
  markVariables _ _ _ := .zoom_trivial
  backward _ _ _ _ := .zoom_trivial
  getGrad x := (h.getGrad x).zoom_trivial
  setRecording _ := .zoom_trivial
  setTraining _ := .zoom_trivial
  randomSeed _ := .zoom_trivial

theorem Library.Accounted.meets_call (h : lib.Accounted account) (c : Call) (hc : c.frees = false)
    (owned : List Handle) :
    Meets (account · owned) (c.perform lib) (fun a n => account n (c.brings a ++ owned))
      (account · owned) := by
  have hissued : ∀ {α : Type} {a : Action σ α} {issued : α → List Handle}, Issues account a issued →
      Meets (account · owned) a (fun x n => account n (issued x ++ owned)) (account · owned) :=
    fun ha => (ha owned).to_imp fun _ _ hn => hn.2
  cases c with
  | version => exact .map (h.version owned)
  | gpuCount => exact .map (h.gpuCount owned)
  | listOps => exact .map (h.listOps owned)
  | getOp name => exact .map (h.getOp name owned)
  | create d s t st delayed => exact .map (hissued (h.create d s t st delayed))
  | free x => exact absurd hc nofun
  | shape x => exact .map (h.shape x owned)
  | type x => exact .map (h.type x owned)
  | device x => exact .map (h.device x owned)
  | storage x => exact .map (h.storage x owned)
  | copyIn x bytes n => exact .map (h.copyIn x bytes n owned)
  | copyOut x room n => exact .map (h.copyOut x room n owned)
  | waitToRead x => exact .map (h.waitToRead x owned)
  | waitToWrite x => exact .map (h.waitToWrite x owned)
  | waitAll => exact .map (h.waitAll owned)
  | invoke op inputs outputs params =>
    cases outputs with
    | none => exact .map (hissued (h.invoke op inputs params))
    | some given => exact .map (h.invokeInto op inputs given params owned)
  | row x i => exact .map (hissued (h.row x i))
  | slice x first last => exact .map (hissued (h.slice x first last))
  | reshape x dims r => exact .map (hissued (h.reshape x dims r))
  | markVariables vs rs gs => exact .map (h.markVariables vs rs gs owned)
  | backward hs gs r t => exact .map (h.backward hs gs r t owned)
  | getGrad x => exact .map (hissued (h.getGrad x))
  | setRecording on => exact .map (h.setRecording on owned)
  | setTraining on => exact .map (h.setTraining on owned)
  | randomSeed seed => exact .map (h.randomSeed seed owned)

end Libraries

namespace Reference

theorem Live.fewer {base : List Nat} {s : State} {owned owned' : List Handle}
    (hs : Live base s owned) (h : owned'.Subperm owned) : ∃ base', Live base' s owned' := by
  obtain ⟨l, hl, hsub⟩ := h
  obtain ⟨rest, hrest⟩ := hsub.exists_perm_append
  refine ⟨base ++ rest.map Handle.id, hs.counted, ?_⟩
  have howned : owned.Perm (rest ++ owned') :=
    hrest.trans (List.perm_append_comm.trans (hl.append_left rest))
  rw [List.append_assoc, ← List.map_append]
  exact hs.perm.trans ((howned.map Handle.id).append_left base)

end Reference

namespace Backends

open Reference

variable {b : Backends} {i j gpus gpus' : Nat} {lib : Library Backends}
variable {libs : List (Library Backends)} {kept kept' : List (Library Backends × Handle)}

theorem set_reference_self (hi : i < b.references.length) :
    { b with references := b.references.set i (b.reference i) } = b := by
  unfold Backends.reference
  rw [List.getD_eq_getElem _ _ hi, List.set_getElem_self]

theorem reference_set_self (hi : i < b.references.length) (s : State) :
    Backends.reference { b with references := b.references.set i s } i = s := by
  unfold Backends.reference
  rw [List.getD_eq_getElem?_getD, List.getElem?_set_self hi]
  rfl

theorem reference_set_of_ne (hne : j ≠ i) (s : State) :
    Backends.reference { b with references := b.references.set i s } j = b.reference j := by
  unfold Backends.reference
  rw [List.getD_eq_getElem?_getD, List.getD_eq_getElem?_getD, List.getElem?_set_ne hne.symm]

/-- Libraries in front of different engines differ: one counts a call of `free` that the other does
not. -/
theorem place_inj (hi : i < b.references.length)
    (h : referenceLibrary i gpus = referenceLibrary j gpus') : j = i := by
  have hcount : ((free ⟨0⟩).after (b.reference i)).freeCalls = (b.reference i).freeCalls + 1 := by
    unfold Action.after Reference.free
    dsimp only
    split <;> rename_i hr <;> split at hr <;> cases hr <;> rfl
  by_contra hne
  have hafter : (((referenceLibrary i gpus).free ⟨0⟩).after b).reference i =
      (((referenceLibrary j gpus').free ⟨0⟩).after b).reference i := by rw [h]
  have hi' := after_zoom (fun b => Backends.reference b i)
    (fun s b => { b with references := b.references.set i s }) (free ⟨0⟩) b
  have hj' := after_zoom (fun b => Backends.reference b j)
    (fun s b => { b with references := b.references.set j s }) (free ⟨0⟩) b
  have hfrees := congrArg State.freeCalls
    (((congrArg (·.reference i) hi').symm.trans hafter).trans (congrArg (·.reference i) hj'))
  rw [reference_set_self hi, reference_set_of_ne (Ne.symm hne), hcount] at hfrees
  omega

open Classical in
noncomputable def handlesOf [HalfPrecision] (i : Nat) (kept : List (Library Backends × Handle)) :
    List Handle :=
  kept.filterMap fun p => if ∃ gpus, p.1 = referenceLibrary i gpus then some p.2 else none

theorem handlesOf_append_self (hs : List Handle) :
    handlesOf i (hs.map (referenceLibrary i gpus, ·) ++ kept) = hs ++ handlesOf i kept := by
  unfold handlesOf
  rw [List.filterMap_append, List.filterMap_map]
  congr 1
  refine (List.filterMap_congr fun h _ => ?_).trans List.filterMap_some
  exact if_pos ⟨gpus, rfl⟩

theorem handlesOf_append_of_ne (hlib : ∀ gpus, lib ≠ referenceLibrary i gpus) (hs : List Handle) :
    handlesOf i (hs.map (lib, ·) ++ kept) = handlesOf i kept := by
  unfold handlesOf
  rw [List.filterMap_append, List.filterMap_map]
  refine (congrArg (· ++ _) (List.filterMap_eq_nil_iff.2 fun h _ => ?_)).trans (List.nil_append _)
  exact if_neg fun ⟨gpus, h⟩ => hlib gpus h

theorem mem_handlesOf {h : Handle} (hh : (referenceLibrary i gpus, h) ∈ kept) :
    h ∈ handlesOf i kept :=
  List.mem_filterMap.2 ⟨_, hh, if_pos ⟨gpus, rfl⟩⟩

theorem handlesOf_subperm (i : Nat) (h : kept'.Subperm kept) :
    (handlesOf i kept').Subperm (handlesOf i kept) :=
  let ⟨_, hl, hsub⟩ := h
  ⟨_, hl.filterMap _, hsub.filterMap _⟩

/-- The library stands in front of an engine that was opened. -/
def Fronts [HalfPrecision] (b : Backends) (lib : Library Backends) : Prop :=
  ∃ i gpus, i < b.references.length ∧ lib = referenceLibrary i gpus

/-- What is kept from an engine is live there, each handle once. -/
structure Stocks [HalfPrecision] (b : Backends) (libs : List (Library Backends))
    (kept : List (Library Backends × Handle)) : Prop where
  opened : ∀ lib ∈ libs, b.Fronts lib
  origin : ∀ p ∈ kept, b.Fronts p.1
  live : ∀ i < b.references.length, ∃ base, Live base (b.reference i) (handlesOf i kept)

theorem Stocks.set (hb : Stocks b libs kept) (hi : i < b.references.length) {s : State}
    (horigin : ∀ p ∈ kept', b.Fronts p.1) (hs : ∃ base, Live base s (handlesOf i kept'))
    (hothers : ∀ j, j ≠ i → handlesOf j kept' = handlesOf j kept) :
    Stocks { b with references := b.references.set i s } libs kept' := by
  have hfronts : ∀ lib, b.Fronts lib →
      Fronts { b with references := b.references.set i s } lib := by
    rintro lib ⟨j, gpus, hj, rfl⟩
    exact ⟨j, gpus, by simpa using hj, rfl⟩
  refine ⟨fun lib hlib => hfronts lib (hb.opened lib hlib), fun p hp => hfronts _ (horigin p hp),
    fun j hj => ?_⟩
  by_cases hji : j = i
  · subst hji
    rw [reference_set_self hi]
    exact hs
  · rw [reference_set_of_ne hji, hothers j hji]
    exact hb.live j (by simpa using hj)

theorem meets_stocks {α : Type} {a : Action State α} (given : List Handle)
    (brought : α → List Handle) (ha : ∀ base owned, Meets (Live base · (given ++ owned)) a
      (fun x n => Live base n (brought x ++ owned)) (Live base · owned)) (i gpus : Nat) :
    Meets (fun b => i < b.references.length ∧
        Stocks b libs (given.map (referenceLibrary i gpus, ·) ++ kept))
      (a.zoom (fun b => b.reference i) fun s b => { b with references := b.references.set i s })
      (fun x b => Stocks b libs ((brought x).map (referenceLibrary i gpus, ·) ++ kept))
      (Stocks · libs kept) := by
  refine .zoom fun b ⟨hi, hb⟩ => ?_
  have hlib : ∀ j, j ≠ i → ∀ gpus', referenceLibrary i gpus ≠ referenceLibrary j gpus' :=
    fun j hj gpus' h => hj (place_inj hi h)
  have horigin : ∀ p ∈ kept, b.Fronts p.1 := fun p hp => hb.origin p (List.mem_append_right _ hp)
  obtain ⟨base, hlive⟩ := hb.live i hi
  rw [handlesOf_append_self] at hlive
  have hn := ha base _ _ hlive
  cases hr : a (b.reference i) with
  | ok x n =>
    rw [hr] at hn
    refine hb.set hi (fun p hp => ?_) ⟨base, ?_⟩ fun j hj => ?_
    · rcases List.mem_append.1 hp with hp | hp
      · obtain ⟨h, -, rfl⟩ := List.mem_map.1 hp
        exact ⟨i, gpus, hi, rfl⟩
      · exact horigin p hp
    · rw [handlesOf_append_self]
      exact hn
    · rw [handlesOf_append_of_ne (hlib j hj), handlesOf_append_of_ne (hlib j hj)]
  | error e n =>
    rw [hr] at hn
    exact hb.set hi horigin ⟨base, hn⟩ fun j hj => (handlesOf_append_of_ne (hlib j hj) given).symm

/-- Handles are accounted for by the engines that they are live in. -/
def custody [HalfPrecision] : Custody Backends where
  account := Stocks
  fewer hlibs hkept hb :=
    ⟨fun lib hlib => hb.opened lib (hlibs hlib), fun p hp => hb.origin p (hkept.subset hp),
      fun i hi =>
        let ⟨_, hlive⟩ := hb.live i hi
        hlive.fewer (handlesOf_subperm i hkept)⟩
  call {libs lib} hlib c hc kept _ b hb := by
    obtain ⟨i, gpus, hi, rfl⟩ := hb.opened lib hlib
    have hcall := fun base => ((bookkept_live base).accounted gpus).meets_call c hc
    rw [referenceLibrary, Library.perform_zoom]
    exact meets_stocks [] c.brings hcall i gpus b ⟨hi, hb⟩
  free {libs lib} hlib h kept b hb := by
    obtain ⟨i, gpus, hi, rfl⟩ := hb.opened lib hlib
    exact meets_stocks [h] (fun _ => []) (fun base owned => (bookkept_live base).free h owned) i
      gpus b ⟨hi, hb⟩

variable {load : Foreign.Loader} {c : Configuration}

theorem openLibrary_reference [HalfPrecision] (load : Foreign.Loader) (hc : c.library = .reference)
    (b : Backends) :
    openLibrary load c b = .ok (referenceLibrary b.references.length c.simulatedGpus)
      { b with references := b.references ++ [.initial] } := by
  unfold openLibrary
  rw [hc]
  rfl

theorem custody_opens (load : Foreign.Loader) : custody.Opens (openLibrary load) := by
  intro c hc libs kept b hb
  rw [openLibrary_reference load hc]
  have hlength : (b.references ++ [State.initial]).length = b.references.length + 1 := by simp
  have hfronts : ∀ lib, b.Fronts lib →
      Fronts { b with references := b.references ++ [.initial] } lib := by
    rintro lib ⟨i, gpus, hi, rfl⟩
    exact ⟨i, gpus, hlength ▸ Nat.lt_succ_of_lt hi, rfl⟩
  refine ⟨fun lib hlib => ?_, fun p hp => hfronts _ (hb.origin p hp), fun i hi => ?_⟩
  · rcases List.mem_cons.1 hlib with rfl | hlib
    · exact ⟨b.references.length, c.simulatedGpus, hlength ▸ Nat.lt_succ_self _, rfl⟩
    · exact hfronts lib (hb.opened lib hlib)
  · rcases Nat.lt_succ_iff_lt_or_eq.1 (hlength ▸ hi) with hi | rfl
    · have hsame : Backends.reference { b with references := b.references ++ [.initial] } i =
          b.reference i := by
        unfold Backends.reference
        rw [List.getD_append _ _ _ _ hi]
      rw [hsame]
      exact hb.live i hi
    · have hnone : handlesOf b.references.length kept = [] := by
        refine List.filterMap_eq_nil_iff.2 fun p hp => if_neg fun ⟨gpus, h⟩ => ?_
        obtain ⟨i, gpus', hi, hp⟩ := hb.origin p hp
        exact absurd (place_inj hi (hp.symm.trans h)) (Nat.ne_of_gt hi)
      have hnew : Backends.reference { b with references := b.references ++ [.initial] }
          b.references.length = .initial := by
        unfold Backends.reference
        rw [List.getD_append_right _ _ _ _ (Nat.le_refl _)]
        simp
      rw [hnone, hnew]
      exact ⟨[], ⟨⟨List.nodup_nil, nofun⟩, List.Perm.refl _⟩⟩

theorem exists_entry {W : Watch Backends} {s : Session Backends} (hs : Tended custody W s)
    {id : ArrayId} {a : Tensor Backends} {h : Handle} (ha : s.arrays.get? id = some a)
    (hh : a.owned.get = .ok h) :
    ∃ i gpus e, i < s.native.references.length ∧ a.engine.library = referenceLibrary i gpus ∧
      (s.native.reference i).entries.get? h.id = some e := by
  have hkept : (a.engine.library, h) ∈ W.owed ++ s.arrays.custody :=
    List.mem_append_right _ (Table.mem_custody ha hh)
  obtain ⟨i, gpus, hi, hlib : a.engine.library = _⟩ := hs.account.origin _ hkept
  rw [hlib] at hkept
  obtain ⟨base, hlive⟩ := hs.account.live i hi
  have hmem : h.id ∈ (s.native.reference i).entries.keys :=
    hlive.perm.symm.subset (List.mem_append_right _ (List.mem_map_of_mem (mem_handlesOf hkept)))
  obtain ⟨e, he⟩ := (Table.mem_keys_iff _ _).1 hmem
  exact ⟨i, gpus, e, hi, hlib, he⟩

variable {p q : Program Backends}

theorem employs_reached (hp : ReflTransGen (Program.Next (openLibrary load)) (.start .initial) p) :
    Employs custody p.watch p.session :=
  Program.employs_reached (custody_opens load)
    ⟨nofun, nofun, fun _ hi => absurd hi (Nat.not_lt_zero _)⟩ hp

theorem neverNull (i gpus : Nat) : (referenceLibrary i gpus).NeverNull :=
  (Reference.neverNull gpus).zoom _ _

theorem reaches_build (hlib : lib.NeverNull) (c : Configuration) (device : Device) (b : Backends)
    (s : Session Backends) :
    ReflTransGen Next s ((Engine.build lib c device).after { s with native := b }) :=
  .tail (.single (.outside b s)) (.build lib hlib c device _)

theorem reaches_ofExcept {α β : Type} {r : Except Error α} {f : α → Action (Session Backends) β}
    {s : Session Backends} (hf : ∀ x, ReflTransGen Next s ((f x).after s)) :
    ReflTransGen Next s ((Action.ofExcept r >>= f).after s) := by
  cases r with
  | error e =>
    rw [after_error (bind_error (a := Action.ofExcept (.error e)) (s := s) rfl)]
  | ok x =>
    rw [after_eq (bind_of_ok (a := Action.ofExcept (.ok x)) (s := s) rfl)]
    exact hf x

theorem reaches_ofLibrary (hlib : lib.NeverNull) (s : Session Backends) :
    ReflTransGen Next s ((Engine.ofLibrary lib).after s) :=
  reaches_ofExcept fun device => reaches_build hlib .standard device s.native s

theorem reaches_ofConfiguration (hc : c.library = .reference) (s : Session Backends) :
    ReflTransGen Next s ((Engine.ofConfiguration (openLibrary load) c).after s) := by
  refine reaches_ofExcept fun device => ?_
  rw [after_eq (bind_of_ok (onNative_ok (openLibrary_reference load hc s.native)))]
  exact reaches_build (neverNull _ _) c device _ s

theorem neverNull_employed (hp : Employs custody p.watch p.session)
    (hlib : lib ∈ p.watch.libraries) : lib.NeverNull := by
  obtain ⟨W, hW, hs⟩ := hp
  obtain ⟨i, gpus, -, rfl⟩ := hs.account.opened _ (hW.libraries hlib)
  exact neverNull i gpus

theorem reaches_opening (hp : Employs custody p.watch p.session)
    {a : Action (Session Backends) (Engine Backends)} (ha : p.Opening (openLibrary load) a) :
    ReflTransGen Next p.session (a.after p.session) := by
  cases ha with
  | configured hc => exact reaches_ofConfiguration hc p.session
  | around hlib =>
    exact reaches_ofLibrary (neverNull_employed hp (List.mem_append_left _ hlib)) p.session

theorem next_session (hp : Employs custody p.watch p.session)
    (hnext : Program.Next (openLibrary load) p q) : ReflTransGen Next p.session q.session := by
  cases hnext with
  | provided hc hopen =>
    have hprovided := onNative_ok (openLibrary_reference load hc p.session.native)
    obtain ⟨-, rfl⟩ := EStateM.Result.ok.inj (hopen.symm.trans hprovided)
    exact .single (.outside _ p.session)
  | opened ha hopen => exact after_ok hopen ▸ reaches_opening hp ha
  | refused ha hopen => exact after_error hopen ▸ reaches_opening hp ha
  | performed he op =>
    exact .single (.perform (neverNull_employed hp (Watch.mem_libraries (List.mem_map_of_mem he)))
      op p.session)

theorem sound_reached (hp : ReflTransGen (Program.Next (openLibrary load)) (.start .initial) p) :
    Sound (.lenient fun _ => False) {} p.session := by
  have hnext : ReflTransGen Next (.start .initial) p.session := by
    induction hp with
    | refl => exact .refl
    | tail hp hnext ih => exact ih.trans (next_session (employs_reached hp) hnext)
  exact ScopedTensor.sound_reached hnext

end Backends
end ScopedTensor
