import ScopedTensor.Proofs.Agreement.Upkeep

/-! Whatever a program does, its session stays in step with its engines. Each engine that it opens
takes a place of its own, and keeps the number of accelerators that it was opened with. -/

namespace ScopedTensor

open ScopedTensor.Action Session Relation Backends

variable {half : HalfPrecision}
variable {gpus : Nat → Nat} {W : Watch Backends} {s : Session Backends} {b : Backends}
variable {lib : Library Backends} {load : Foreign.Loader}

/-- The library stands in its place, in front of the accelerators that are there. -/
def Backends.Placed [HalfPrecision] (gpus : Nat → Nat) (lib : Library Backends) : Prop :=
  ∃ i, lib = referenceLibrary i (gpus i)

theorem Backends.Placed.update (h : Placed gpus lib) (hfronts : b.Fronts lib) (n : Nat) :
    Placed (Function.update gpus b.references.length n) lib := by
  obtain ⟨i, hlib⟩ := h
  obtain ⟨j, k, hj, hlib'⟩ := hfronts
  obtain rfl := place_inj hj (hlib'.symm.trans hlib)
  exact ⟨i, by rw [hlib, Function.update_of_ne (Nat.ne_of_lt hj)]⟩

theorem Backends.FullyLoaded.update {e : LoadedEngine Backends} (he : FullyLoaded gpus e)
    (hfronts : b.Fronts e.library) (n : Nat) :
    FullyLoaded (Function.update gpus b.references.length n) e :=
  ⟨he.operators, Placed.update he.library hfronts n⟩

theorem Backends.Maintained.update (hb : b.Maintained gpus) (n : Nat) :
    b.opened.Maintained (Function.update gpus b.references.length n) := by
  intro i
  rw [reference_opened]
  by_cases hi : i < b.references.length
  · rw [Function.update_of_ne (Nat.ne_of_lt hi)]
    exact hb i
  · have hnone : b.reference i = .initial := List.getD_eq_default _ _ (Nat.not_lt.1 hi)
    exact ⟨[], hnone⟩

theorem Session.InStep.opened (hs : InStep gpus W s) (load : Foreign.Loader) {c : Configuration}
    (hc : c.library = .reference) :
    InStep (Function.update gpus s.native.references.length c.simulatedGpus)
      (W.provide (referenceLibrary s.native.references.length c.simulatedGpus))
      { s with native := s.native.opened } where
  tended := tended_opened load hs.tended hc
  equipped :=
    { arrays := fun id a ha => (hs.equipped.arrays id a ha).update
        (hs.tended.account.opened _ (Watch.mem_libraries (hs.tended.arrays id a ha))) _
      scopes := fun S c hc => (hs.equipped.scopes S c hc).update
        (hs.tended.account.opened _ (Watch.mem_libraries (hs.tended.scopes S c hc))) _ }
  maintained := hs.maintained.update _
  faithful := hs.faithful.grows (grows_opened _)
  lodged := hs.lodged

theorem inStep_build (hs : InStep gpus W s) (hlib : lib ∈ W.libraries) (hplaced : Placed gpus lib)
    (c : Configuration) (device : Device) :
    Meets (· = s) (Engine.build lib c device)
      (fun e t => FullyLoaded gpus e.loaded ∧ InStep gpus (W.enrol e.loaded) t)
      fun t => ∃ W', W.Within W' ∧ InStep gpus W' t := by
  have hload : Loadable (FullyLoaded gpus) lib := by
    refine ⟨⟨_, rfl, hplaced⟩, fun id n t m h => ⟨?_, hplaced⟩⟩
    obtain ⟨i, rfl⟩ := hplaced
    exact load_operators i (gpus i) h
  have hbuild := leads_build hs.tended hs.equipped hlib hload c device
  have htended := (tended_build (C := custody) hlib c device).start hs.tended
  refine (hbuild.both htended).imp (fun _ h => ⟨h, h⟩) (fun e t ⟨⟨hloaded, hleads⟩, ht⟩ => ?_)
    fun t ⟨hleads, W', hW', ht⟩ => ?_
  · exact ⟨hloaded, hs.leads hleads ht⟩
  · exact ⟨W', hW', hs.leads hleads ht⟩

namespace Program

variable {p q : Program Backends}

/-- The session is in step with its engines, the libraries are in their places, and the engines that
the program has are fully loaded. -/
structure InStep [HalfPrecision] (gpus : Nat → Nat) (p : Program Backends) : Prop where
  session : ∃ W, p.watch.Within W ∧ Session.InStep gpus W p.session
  libraries : ∀ lib ∈ p.libraries, Placed gpus lib
  engines : ∀ e ∈ p.engines, FullyLoaded gpus e.loaded

theorem inStep_start : InStep (fun _ => 0) (.start .initial) :=
  ⟨⟨_, .refl _, Session.inStep_start⟩, nofun, nofun⟩

theorem InStep.opened (hp : p.InStep gpus) (load : Foreign.Loader) {c : Configuration}
    (hc : c.library = .reference) :
    InStep (Function.update gpus p.session.native.references.length c.simulatedGpus)
      { p with
        session := { p.session with native := p.session.native.opened }
        libraries := referenceLibrary p.session.native.references.length c.simulatedGpus ::
          p.libraries } := by
  obtain ⟨W, hW, hs⟩ := hp.session
  have hopened := hs.tended.account.opened
  refine ⟨⟨_, hW.provide _, hs.opened load hc⟩, fun lib hlib => ?_, fun e he => ?_⟩
  · rcases List.mem_cons.1 hlib with rfl | hlib
    · exact ⟨_, by rw [Function.update_self]⟩
    · have hfronts := hopened lib (hW.libraries (List.mem_append_left _ hlib))
      exact (hp.libraries lib hlib).update hfronts _
  · have hfronts := hopened _ (Watch.mem_libraries (hW.roster (List.mem_map_of_mem he)))
    exact (hp.engines e he).update hfronts _

theorem InStep.build (hp : p.InStep gpus) (hlib : lib ∈ p.libraries) (c : Configuration)
    (device : Device) :
    Meets (· = p.session) (Engine.build lib c device)
      (fun e t => InStep gpus { p with session := t, engines := e :: p.engines })
      fun t => InStep gpus { p with session := t } := by
  obtain ⟨W, hW, hs⟩ := hp.session
  refine (inStep_build hs (hW.libraries (List.mem_append_left _ hlib)) (hp.libraries lib hlib) c
    device).imp (fun _ h => h) (fun e t ⟨hloaded, ht⟩ => ?_) fun t ⟨W', hW', ht⟩ => ?_
  · refine ⟨⟨_, hW.enrol e.loaded, ht⟩, hp.libraries, fun e' he' => ?_⟩
    rcases List.mem_cons.1 he' with rfl | he'
    · exact hloaded
    · exact hp.engines e' he'
  · exact ⟨⟨W', hW.trans hW', ht⟩, hp.libraries, hp.engines⟩

theorem InStep.forget (t : Session Backends) (lib : Library Backends)
    (libraries : List (Library Backends)) (engines : List (Engine Backends))
    (hp : InStep gpus ⟨t, lib :: libraries, engines⟩) : InStep gpus ⟨t, libraries, engines⟩ := by
  obtain ⟨W, hW, hs⟩ := hp.session
  have hwithin : (Program.mk t libraries engines).watch.Within
      (Program.mk t (lib :: libraries) engines).watch :=
    ⟨List.subset_cons_self _ _, List.Subset.refl _⟩
  exact ⟨⟨W, hwithin.trans hW, hs⟩, fun l hl => hp.libraries l (List.mem_cons_of_mem _ hl),
    hp.engines⟩

theorem InStep.build_opened (hp : p.InStep gpus) (load : Foreign.Loader) {c : Configuration}
    (hc : c.library = .reference)
    (hlib : lib = referenceLibrary p.session.native.references.length c.simulatedGpus)
    (device : Device) :
    Meets (· = { p.session with native := p.session.native.opened }) (Engine.build lib c device)
      (fun e t => ∃ gpus, InStep gpus { p with session := t, engines := e :: p.engines })
      fun t => ∃ gpus, InStep gpus { p with session := t } := by
  have hopened := hp.opened load hc
  rw [← hlib] at hopened
  refine (hopened.build List.mem_cons_self c device).imp (fun _ h => h) (fun e t ht => ?_)
    fun t ht => ?_
  · exact ⟨_, InStep.forget t lib p.libraries (e :: p.engines) ht⟩
  · exact ⟨_, InStep.forget t lib p.libraries p.engines ht⟩

theorem InStep.opening (hp : p.InStep gpus) {a : Action (Session Backends) (Engine Backends)}
    (ha : p.Opening (openLibrary load) a) :
    Meets (· = p.session) a
      (fun e t => ∃ gpus, InStep gpus { p with session := t, engines := e :: p.engines })
      fun t => ∃ gpus, InStep gpus { p with session := t } := by
  rcases opening_cases ha with ⟨x, hr⟩ | ⟨lib, hlib, c, device, hr⟩ | ⟨c, device, hc, hr⟩
  · exact .of_eq_error hr ⟨gpus, hp⟩
  · exact .of_step hr ((hp.build hlib c device).imp (fun _ h => h) (fun _ _ ht => ⟨gpus, ht⟩)
      fun _ ht => ⟨gpus, ht⟩)
  · generalize hlib : referenceLibrary _ _ = lib at hr
    exact .of_step hr (hp.build_opened load hc hlib.symm device)

theorem Turn.inStep (h : p.Turn (openLibrary load) Operation.Sized q)
    (hp : ∃ gpus, p.InStep gpus) : ∃ gpus, q.InStep gpus := by
  obtain ⟨gpus, hp⟩ := hp
  cases h with
  | provided hc hopen =>
    have hprovided := onNative_ok (openLibrary_reference load hc p.session.native)
    obtain ⟨rfl, rfl⟩ := EStateM.Result.ok.inj (hopen.symm.trans hprovided)
    exact ⟨_, hp.opened load hc⟩
  | opened ha hopen => exact (hp.opening ha).of_ok rfl hopen
  | refused ha hopen => exact (hp.opening ha).of_error rfl hopen
  | @performed e he op hop =>
    obtain ⟨W, hW, hs⟩ := hp.session
    have hroster := hW.roster (List.mem_map_of_mem he)
    have hadmits : (p.session.native.mandate (FullyLoaded gpus)).admits e.loaded :=
      ⟨hs.tended.account.opened _ (Watch.mem_libraries hroster), hp.engines e he⟩
    have hworks : Keeps (Work (p.session.native.mandate (FullyLoaded gpus)) p.session)
        (op.perform e) := op.works_perform hadmits (mandate_allows hop _)
    have hleads := leads_after hs.tended hs.equipped hworks
    have htended := (Operation.tended_perform hroster op).after hs.tended
    exact ⟨gpus, ⟨W, hW, hs.leads hleads htended⟩, hp.libraries, hp.engines⟩

theorem inStep_reached
    (hp : ReflTransGen (Turn (openLibrary load) Operation.Sized) (.start .initial) p) :
    ∃ gpus, p.InStep gpus := by
  induction hp with
  | refl => exact ⟨_, inStep_start⟩
  | tail _ hturn ih => exact hturn.inStep ih

end Program
end ScopedTensor
