import ScopedTensor.Proofs.Deferral.Runs
import ScopedTensor.Proofs.Knowledge.Histories

/-! How engines are kept up while programs run. Arrays are only on devices that their engine has,
its queue can always be run, and every engine is loaded with all operators of its library. -/

namespace ScopedTensor

open ScopedTensor.Action Session Relation Library

variable {half : HalfPrecision}

namespace Reference

open State

variable {gpus : Nat} {s t : State} {device : Device}

def State.Housed (gpus : Nat) (s : State) : Prop :=
  ∀ id e, s.entries.get? id = some e → checkDevice gpus e.device = .ok ()

theorem housed_initial : State.Housed gpus .initial := fun _ _ he => absurd he nofun

theorem State.Housed.insert (hs : s.Housed gpus) {e : Entry}
    (he : checkDevice gpus e.device = .ok ()) : (s.insert e).2.Housed gpus := by
  intro id x hx
  rcases Table.get?_insert_eq_some.1 hx with ⟨-, rfl⟩ | ⟨-, hx⟩
  · exact he
  · exact hs id x hx

theorem State.Housed.allocateAll (hd : checkDevice gpus device = .ok ()) (sigs : List Signature) :
    ∀ {s : State}, s.Housed gpus → (allocateAll device sigs s).2.Housed gpus := by
  induction sigs with
  | nil => exact fun hs => hs
  | cons sig sigs ih =>
    intro s hs
    rw [allocateAll_cons]
    have hfirst : (s.allocate sig.shape sig.type device .dense).2.Housed gpus :=
      State.Housed.insert (s := { s with memory := (s.memory.allocate sig.shape sig.type).2 }) hs hd
    exact ih hfirst

theorem housed_of_books {α : Type} {a : Action State α}
    (ha : ∀ k, Keeps (fun s => books s = k) a) : Keeps (State.Housed gpus) a := by
  refine .of_after fun s hs => ?_
  have hentries : (a.after s).entries = s.entries := congrArg Prod.fst ((ha (books s)).after rfl)
  intro id e he
  exact hs id e (hentries ▸ he)

theorem create_eq_ok {shape : Shape} {type : ElementType} {storage : Storage} {h : Handle} :
    create gpus device shape type storage s = .ok h t ↔
      checkDevice gpus device = .ok () ∧ s.allocate shape type device storage = (h, t) := by
  refine transition_ok.trans ⟨fun hr => ?_, fun ⟨hd, hr⟩ => bind_eq_ok.2 ⟨⟨⟩, hd, pure_eq_ok.2 hr⟩⟩
  obtain ⟨⟨⟩, hd, hr⟩ := bind_eq_ok.1 hr
  exact ⟨hd, pure_eq_ok.1 hr⟩

theorem housed_create (shape : Shape) (type : ElementType) (storage : Storage) :
    Keeps (State.Housed gpus) (create gpus device shape type storage) := by
  refine .transition (fun s hs h t hr => ?_) fun _ hs => hs
  obtain ⟨hd, hr⟩ := create_eq_ok.1 (transition_ok.2 hr)
  obtain rfl : (s.allocate shape type device storage).2 = t := congrArg Prod.snd hr
  exact State.Housed.insert (s := { s with memory := (s.memory.allocate shape type).2 }) hs hd

theorem housed_free (h : Handle) : Keeps (State.Housed gpus) (free h) := by
  refine .of_after fun s hs => ?_
  obtain ⟨marks, hafter⟩ := after_free h s
  rw [hafter]
  exact fun id e he => hs id e (Table.get?_erase_eq_some.1 he).2

theorem housed_derive (h : Handle) (f : View → Except Error View) :
    Keeps (State.Housed gpus) (derive h f) := by
  refine (derive_does h f).meets (fun s hs v t ⟨e, w, he, _, hr⟩ => ?_) fun _ hs => hs
  obtain rfl : (s.insert { e with view := w }).2 = t := congrArg Prod.snd hr
  exact hs.insert (e := { e with view := w }) (hs h.id e (entry_eq_ok.1 he))

theorem housed_getGrad (h : Handle) : Keeps (State.Housed gpus) (getGrad h) := by
  refine (getGrad_does h).meets (fun s hs g t ⟨e, he, hr⟩ => ?_) fun _ hs => hs
  rcases hr with ⟨-, rfl⟩ | ⟨m, -, hr⟩
  · exact hs
  · obtain ⟨-, rfl⟩ := Prod.mk.inj hr
    exact hs.insert (e := ⟨m.gradient, e.device, .dense⟩) (hs h.id e (entry_eq_ok.1 he))

theorem housed_invoke [HalfPrecision] (k : OpHandle) (inputs : List Handle)
    (outputs : Option (List Handle)) (params : Params) :
    Keeps (State.Housed gpus) (invoke .deferred gpus k inputs outputs params) := by
  refine (invoke_does).meets (fun s hs made t ⟨task, u, hin, ht⟩ => ?_) fun _ hs => hs
  obtain ⟨op, -, hsubmit⟩ := bind_eq_ok.1 hin
  obtain ⟨entries, inferred, outs, v, -, -, houts, -, -, rfl⟩ := submit_eq_ok hsubmit
  rw [ht]
  have hv : v.Housed gpus := by
    cases outputs with
    | some given =>
      obtain ⟨-, rfl⟩ := outputsOf_some_ok houts
      exact hs
    | none =>
      obtain ⟨⟨⟩, hd, -⟩ := bind_eq_ok.1 houts
      have hmade := hs.allocateAll hd inferred
      rwa [outputsOf_none_ok houts] at hmade
  exact hv

theorem housed_step (hs : s.Housed gpus) (c : Call) : (c.step (library gpus) s).Housed gpus := by
  have hstep : ∀ {α : Type} {a : Action State α} {g : α → Answer},
      c.perform (library gpus) = g <$> a → Keeps (State.Housed gpus) a →
        (c.step (library gpus) s).Housed gpus := by
    intro α a g hc ha
    rw [Call.step_of_map hc]
    exact ha.after hs
  cases c with
  | version => exact hstep (g := .text) rfl (keeps_pure _)
  | gpuCount => exact hstep (g := .count) rfl (keeps_pure _)
  | listOps => exact hstep (g := .names) rfl (keeps_pure _)
  | getOp name => exact hstep (g := .operator) rfl (keeps_ofExcept _)
  | create d shape type st delayed => exact hstep (g := .handle) rfl (housed_create shape type st)
  | free h => exact hstep (g := fun _ => .done) rfl (housed_free h)
  | shape h => exact hstep (g := .shape) rfl ((keeps_viewOf h).bind fun _ => keeps_pure _)
  | type h => exact hstep (g := .type) rfl ((keeps_viewOf h).bind fun _ => keeps_pure _)
  | device h => exact hstep (g := .device) rfl ((keeps_entryOf h).bind fun _ => keeps_pure _)
  | storage h => exact hstep (g := .storage) rfl ((keeps_entryOf h).bind fun _ => keeps_pure _)
  | copyIn h bytes n =>
    exact hstep (g := fun _ => .done) rfl (housed_of_books fun _ => keeps_copyIn h bytes n)
  | copyOut h room n => exact hstep (g := .bytes) rfl (housed_of_books fun _ => keeps_copyOut h room n)
  | waitToRead h => exact hstep (g := fun _ => .done) rfl (housed_of_books fun _ => keeps_wait h)
  | waitToWrite h => exact hstep (g := fun _ => .done) rfl (housed_of_books fun _ => keeps_wait h)
  | waitAll => exact hstep (g := fun _ => .done) rfl (housed_of_books fun _ => keeps_waitAll)
  | invoke k inputs outputs params =>
    exact hstep (g := .handles) rfl (housed_invoke k inputs outputs params)
  | row h i => exact hstep (g := .handle) rfl (housed_derive h _)
  | slice h first last => exact hstep (g := .handle) rfl (housed_derive h _)
  | reshape h dims reverse => exact hstep (g := .handle) rfl (housed_derive h _)
  | markVariables vs rs gs =>
    exact hstep (g := fun _ => .done) rfl (housed_of_books fun _ => keeps_markVariables vs rs gs)
  | backward hs gs retain training =>
    exact hstep (g := fun _ => .done) rfl (housed_of_books fun _ => keeps_backward _ hs gs retain)
  | getGrad h => exact hstep (g := .gradient) rfl (housed_getGrad h)
  | setRecording on => exact hs
  | setTraining on => exact hs
  | randomSeed seed => exact hs

theorem housed_run (gpus : Nat) (cs : List Call) :
    (Call.run (library gpus) cs .initial).Housed gpus :=
  List.foldlRecOn cs _ housed_initial fun _ hs c _ => housed_step hs c

def operators : OperatorTable := ⟨Operator.all.map fun op => (op.name, ⟨op.number⟩)⟩

theorem lookup_operators (op : Operator) : operators.lookup op.name = .ok ⟨op.number⟩ := by
  cases op with
  | pairwise a => cases a <;> rfl
  | scalar a => cases a <;> rfl
  | reduce r => cases r <;> rfl
  | _ => rfl

theorem foldlM_operators :
    (Operator.all.map Operator.name).foldlM
      (fun (t : OperatorTable) name => (getOp name).map (t.insert name)) .empty =
        .ok operators := by
  rfl

end Reference

namespace Backends

open Reference

variable {i : Nat} {gpus : Nat → Nat} {b b' c : Backends} {lib : Library Backends}

def inPlace {α : Type} (i : Nat) (a : Action State α) : Action Backends α :=
  a.zoom (fun b => b.reference i) fun s b => { b with references := b.references.set i s }

theorem inPlace_ok {α : Type} {a : Action State α} {x : α} {n m : Backends} :
    inPlace i a n = .ok x m ↔
      ∃ s, a (n.reference i) = .ok x s ∧ { n with references := n.references.set i s } = m :=
  zoom_ok

theorem ofExcept_ok {σ α : Type} {r : Except Error α} {s t : σ} {x : α} :
    Action.ofExcept r s = .ok x t ↔ r = .ok x ∧ s = t := by
  cases r with
  | ok y => exact ⟨fun h => by cases h; exact ⟨rfl, rfl⟩, fun ⟨hx, ht⟩ => by cases hx; exact ht ▸ rfl⟩
  | error e => exact ⟨nofun, fun h => absurd h.1 nofun⟩

theorem load_operators (i gpus : Nat) {n m : Backends} {t : OperatorTable}
    (hload : OperatorTable.load (referenceLibrary i gpus) n = .ok t m) : t = operators := by
  let enter (t : OperatorTable) (name : String) : Action Backends OperatorTable := do
    return t.insert name (← (referenceLibrary i gpus).getOp name)
  have hentered : ∀ (names : List String) (t₀ t : OperatorTable) (b m : Backends),
      names.foldlM enter t₀ b = .ok t m → names.foldlM
        (fun (t : OperatorTable) name => (getOp name).map (t.insert name)) t₀ = .ok t := by
    intro names
    induction names with
    | nil =>
      intro t₀ t b m h
      obtain ⟨rfl, -⟩ := EStateM.Result.ok.inj h
      rfl
    | cons name names ih =>
      intro t₀ t b m h
      obtain ⟨t₁, b₁, hfirst, hrest⟩ := bind_ok.1 h
      obtain ⟨op, b₂, hop, hpure⟩ := bind_ok.1 hfirst
      obtain ⟨rfl, -⟩ := EStateM.Result.ok.inj hpure
      have hplace : inPlace i (Action.ofExcept (getOp name)) b = .ok op b₂ := hop
      obtain ⟨s, hs, -⟩ := inPlace_ok.1 hplace
      rw [List.foldlM_cons, (ofExcept_ok.1 hs).1]
      exact ih _ _ _ _ hrest
  obtain ⟨names, b, hnames, hfold⟩ := bind_ok.1 hload
  have hplace : inPlace i (library gpus).listOps n = .ok names b := hnames
  obtain ⟨s, hs, -⟩ := inPlace_ok.1 hplace
  obtain ⟨rfl, -⟩ := EStateM.Result.ok.inj hs
  have hall := hentered _ _ _ _ _ hfold
  exact Except.ok.inj (hall.symm.trans foldlM_operators)

/-- Each engine is as its calls have left it. -/
def Maintained [HalfPrecision] (gpus : Nat → Nat) (b : Backends) : Prop :=
  ∀ i, ∃ cs, b.reference i = Call.run (library (gpus i)) cs .initial

theorem Maintained.housed (hb : b.Maintained gpus) (i : Nat) :
    (b.reference i).Housed (gpus i) := by
  obtain ⟨cs, hcs⟩ := hb i
  exact hcs ▸ housed_run _ cs

theorem Maintained.orderly (hb : b.Maintained gpus) (i : Nat) : (b.reference i).Orderly := by
  obtain ⟨cs, hcs⟩ := hb i
  exact hcs ▸ orderly_run orderly_initial

/-- The engine knows all operators, and its library is of a reference engine in some place, with the
accelerators that are there. -/
structure FullyLoaded [HalfPrecision] (gpus : Nat → Nat) (e : LoadedEngine Backends) : Prop where
  operators : e.operators = operators
  library : ∃ i, e.library = referenceLibrary i (gpus i)

theorem Maintained.step (hb : b.Maintained gpus) (i : Nat) (c : Call) :
    (c.step (referenceLibrary i (gpus i)) b).Maintained gpus := by
  rw [step_referenceLibrary]
  intro j
  by_cases hji : j = i
  · subst hji
    by_cases hj : j < b.references.length
    · obtain ⟨cs, hcs⟩ := hb j
      rw [reference_set_self hj, hcs]
      exact ⟨cs ++ [c], (Call.run_append _ cs [c] _).symm⟩
    · rw [List.set_eq_of_length_le (Nat.not_lt.1 hj)]
      exact hb j
  · rw [reference_set_of_ne hji]
    exact hb j

theorem maintained_of_reach {e : LoadedEngine Backends} (he : FullyLoaded gpus e)
    (h : (b.mandate (FullyLoaded gpus)).Reach e.library b' c) (hb : b'.Maintained gpus) :
    c.Maintained gpus := by
  obtain ⟨i, hlib⟩ := he.library
  rw [hlib] at h
  induction h with
  | refl => exact hb
  | tail _ hstep ih =>
    obtain ⟨call, -, rfl⟩ := hstep
    exact ih.step i call

/-- The engine has the device. -/
def Lodges [HalfPrecision] (lib : Library Backends) (d : Device) : Prop :=
  ∃ i gpus, lib = referenceLibrary i gpus ∧ checkDevice gpus d = .ok ()

theorem lodges_of_answer {e : LoadedEngine Backends} (he : FullyLoaded gpus e)
    (hb : b.Maintained gpus) {h : Handle} {d : Device}
    (hx : (Trait.device.call h).perform e.library b = .ok (.device d) c) : Lodges e.library d := by
  obtain ⟨i, hlib⟩ := he.library
  rw [hlib, referenceLibrary, Library.perform_zoom] at hx
  obtain ⟨s, hs, -⟩ := zoom_ok.1 hx
  obtain ⟨entry, hentry, hanswer, -⟩ := perform_trait_ok.1 hs
  obtain rfl := Answer.device.inj hanswer
  exact ⟨i, gpus i, hlib, hb.housed i _ _ hentry⟩

theorem lodges_of_minted {K : LoadedEngine Backends → Prop} {e : LoadedEngine Backends}
    (he : FullyLoaded gpus e) {d : Description} {h : Handle}
    (hminted : (b.mandate K).Minted e d h c) : Lodges e.library d.device := by
  obtain ⟨i, hlib⟩ := he.library
  refine ⟨i, gpus i, hlib, ?_⟩
  cases hminted with
  | created hcreate =>
    rw [hlib] at hcreate
    obtain ⟨s, hs, -⟩ := inPlace_ok.1 hcreate
    exact (create_eq_ok.1 hs).1
  | filled hstorage hshape hfill hh =>
    obtain ⟨k, m, -, hinvoke⟩ := bind_ok.1 hfill
    rw [hlib] at hinvoke
    obtain ⟨s, hs, -⟩ := inPlace_ok.1 hinvoke
    obtain ⟨task, u, hin, -⟩ := (invoke_does _).of_ok rfl hs
    obtain ⟨op, -, hsubmit⟩ := bind_eq_ok.1 hin
    obtain ⟨entries, inferred, outs, v, hentries, -, houts, -, -, -⟩ := submit_eq_ok hsubmit
    obtain rfl : entries = [] := (pure_eq_ok.1 hentries).symm
    obtain ⟨⟨⟩, hd, -⟩ := bind_eq_ok.1 houts
    exact hd

end Backends

namespace Session

open Backends

variable {gpus : Nat → Nat} {W W' : Watch Backends} {s t : Session Backends} {b : Backends}
variable {K : LoadedEngine Backends → Prop}

/-- Arrays are remembered on devices that their engines have, whether or not they still have
handles. -/
def Lodged [HalfPrecision] (s : Session Backends) : Prop :=
  ∀ id a d, s.arrays.get? id = some a → Trait.device.known a = some (.device d) →
    Lodges a.engine.library d

theorem Move.maintained (h : Move (b.mandate (FullyLoaded gpus)) s t)
    (hs : s.native.Maintained gpus) : t.native.Maintained gpus := by
  cases h with
  | tidied h => exact h.native ▸ hs
  | called he h => exact maintained_of_reach he.2 h hs
  | @learned id a ha he hopen k hk x n hx =>
    obtain ⟨i, hlib⟩ := he.2.library
    have hstep := hs.step i (k.call a.owned.handle)
    rw [← hlib] at hstep
    exact after_ok hx ▸ hstep
  | wrapped => exact hs

theorem Move.lodged (h : Move (b.mandate (FullyLoaded gpus)) s t)
    (hnative : s.native.Maintained gpus) (hs : s.Lodged) : t.Lodged := by
  cases h with
  | tidied h =>
    intro id a' d ha' hd
    obtain ⟨a, ha, hheir⟩ := h.arrays id a' ha'
    rw [hheir.engine]
    exact hs id a d ha (hheir.known .device ▸ hd)
  -- A call of the engine changes nothing that is remembered.
  | called => exact hs
  -- A device that is learnt was answered, and engines answer devices that they have.
  | @learned id a ha he hopen k hk x n hx =>
    intro j a' d ha' hd
    rcases Table.get?_modify_eq_some.1 ha' with ⟨rfl, a₁, ha₁, rfl⟩ | ⟨-, ha'⟩
    · obtain rfl : a₁ = a := Option.some.inj (ha₁.symm.trans ha)
      rw [Tensor.engine_learn]
      rw [Trait.known_learn hx] at hd
      split at hd
      · obtain rfl : Trait.device = k := ‹_›
        obtain rfl := Option.some.inj hd
        exact lodges_of_answer he.2 hnative hx
      · exact hs j a₁ d ha hd
    · exact hs j a' d ha' hd
  | wrapped he h hknown =>
    intro id a d ha hd
    rcases Table.get?_insert_eq_some.1 ha with ⟨-, rfl⟩ | ⟨-, ha⟩
    · rw [Trait.known_around] at hd
      obtain ⟨d', hd', hanswer⟩ := Option.map_eq_some_iff.1 hd
      obtain rfl := Library.Answer.device.inj hanswer
      exact lodges_of_minted he.2 (hknown d' hd')
    · exact hs id a d ha hd

/-- The session agrees with its engines. Each of them is fully loaded and where calls led it, what
is remembered of arrays is what it says, and the devices that are remembered are among its own. -/
structure InStep [HalfPrecision] (gpus : Nat → Nat) (W : Watch Backends) (s : Session Backends) :
    Prop where
  tended : Tended custody W s
  equipped : s.Equipped (FullyLoaded gpus)
  maintained : s.native.Maintained gpus
  faithful : s.Faithful []
  lodged : s.Lodged

theorem InStep.leads (hs : InStep gpus W s) (h : Leads (FullyLoaded gpus) s t)
    (ht : Tended custody W' t) : InStep gpus W' t := by
  have hmoves : ∀ u, ReflTransGen (Move (s.native.mandate (FullyLoaded gpus))) s u →
      u.native.Maintained gpus ∧ u.Lodged := by
    intro u hu
    induction hu with
    | refl => exact ⟨hs.maintained, hs.lodged⟩
    | tail _ hmove ih => exact ⟨hmove.maintained ih.1, hmove.lodged ih.1 ih.2⟩
  obtain ⟨hmaintained, hlodged⟩ := hmoves t h.work.moves
  exact
    { tended := ht
      equipped := ⟨fun id a ha => (h.work.arrays id a ha).2, fun S c hc => (h.work.scopes S c hc).2⟩
      maintained := hmaintained
      faithful := (h.work.faithful h.numbered hs.faithful).2
      lodged := hlodged }

theorem inStep_start : InStep (fun _ => 0) {} (.start .initial) where
  tended :=
    { distinct := List.nodup_nil
      bounded := nofun
      arrays := fun _ _ h => absurd h nofun
      scopes := fun _ _ h => absurd h nofun
      numbered := nofun
      unique := nofun
      pins := nofun
      account := ⟨nofun, nofun, fun _ hi => absurd hi (Nat.not_lt_zero _)⟩ }
  equipped := ⟨fun _ _ h => absurd h nofun, fun _ _ h => absurd h nofun⟩
  maintained _ := ⟨[], rfl⟩
  faithful := fun _ _ h => absurd h nofun
  lodged := fun _ _ _ h => absurd h nofun

end Session
end ScopedTensor
