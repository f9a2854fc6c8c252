import ScopedTensor.Proofs.Knowledge.Faithful

/-! Histories of programs. Besides opening engines and performing operations a program may call the
libraries itself, though it frees nothing there, and it may make arrays around live handles that no
array owns. What it says of such an array is taken as it is. -/

namespace ScopedTensor

open ScopedTensor.Action Session Relation

variable {half : HalfPrecision}

section Turns

variable {σ : Type} {openLibrary : Configuration → Action σ (Library σ)}
variable {allowed : Operation → Prop} {p q : Program σ}

/-- What a program may do next that performs allowed operations only. -/
inductive Program.Turn [HalfPrecision] (openLibrary : Configuration → Action σ (Library σ))
    (allowed : Operation → Prop) (p : Program σ) : Program σ → Prop
  | provided {c : Configuration} (hc : c.library = .reference) {lib : Library σ} {t : Session σ}
      (hopen : onNative (openLibrary c) p.session = .ok lib t) :
      Turn openLibrary allowed p { p with session := t, libraries := lib :: p.libraries }
  | opened {a : Action (Session σ) (Engine σ)} (ha : p.Opening openLibrary a) {e : Engine σ}
      {t : Session σ} (hopen : a p.session = .ok e t) :
      Turn openLibrary allowed p { p with session := t, engines := e :: p.engines }
  | refused {a : Action (Session σ) (Engine σ)} (ha : p.Opening openLibrary a) {x : Error}
      {t : Session σ} (hopen : a p.session = .error x t) :
      Turn openLibrary allowed p { p with session := t }
  | performed {e : Engine σ} (he : e ∈ p.engines) {op : Operation} (hop : allowed op) :
      Turn openLibrary allowed p { p with session := op.step e p.session }

theorem Program.Turn.next (h : p.Turn openLibrary allowed q) : p.Next openLibrary q := by
  cases h with
  | provided hc hopen => exact .provided hc hopen
  | opened ha hopen => exact .opened ha hopen
  | refused ha hopen => exact .refused ha hopen
  | performed he hop => exact .performed he _

theorem Program.turns_run {e : Engine σ} (he : e ∈ p.engines) (ops : List Operation)
    (hops : ∀ op ∈ ops, allowed op) : ReflTransGen (Program.Turn openLibrary allowed) p
      { p with session := Operation.run e p.session ops } := by
  induction ops generalizing p with
  | nil => exact .refl
  | cons op ops ih =>
    have hfirst : p.Turn openLibrary allowed { p with session := op.step e p.session } :=
      .performed he (hops op List.mem_cons_self)
    have hrest := ih (p := { p with session := op.step e p.session }) he fun op hop =>
      hops op (List.mem_cons_of_mem _ hop)
    exact .head hfirst hrest

theorem Program.exists_turned [HalfPrecision] (openLibrary : Configuration → Action σ (Library σ))
    (allowed : Operation → Prop) (n : σ) {c : Configuration} (hc : c.library = .reference)
    (ops : List Operation) (hops : ∀ op ∈ ops, allowed op) (test : Session σ → Bool)
    (h : (match Engine.ofConfiguration openLibrary c (.start n) with
      | .ok e s => test (Operation.run e s ops)
      | .error _ _ => false) = true) :
    ∃ p, ReflTransGen (Program.Turn openLibrary allowed) (.start n) p ∧ p.engines ≠ [] ∧
      test p.session = true := by
  split at h
  · rename_i e s hopen
    have hfirst : Program.Turn openLibrary allowed (.start n) ⟨s, [], [e]⟩ :=
      .opened (.configured hc) hopen
    exact ⟨_, .head hfirst (turns_run List.mem_cons_self ops hops), List.cons_ne_nil _ _, h⟩
  · exact absurd h nofun

end Turns

/-- Operators that fill arrays are told lengths that a machine word holds. -/
def Operation.Sized : Operation → Prop
  | .filled _ _ s _ => s.Sized
  | _ => True

variable {load : Foreign.Loader}

namespace Backends

variable {W : Watch Backends} {s : Session Backends} {lib : Library Backends}
variable {K : LoadedEngine Backends → Prop}

theorem mandate_allows {op : Operation} (hop : op.Sized) (b : Backends) :
    (b.mandate K).allows op := by
  cases op with
  | filled => exact hop
  | attachGrad => exact fun _ => trivial
  | _ => trivial

theorem numbered_tended (hs : Tended custody W s) : s.native.Numbered := fun i hi =>
  let ⟨_, hlive⟩ := hs.account.live i hi
  hlive.counted.numbered

end Backends

/-- Arrays and scopes are of engines of the kind. -/
structure Session.Equipped {σ : Type} (K : LoadedEngine σ → Prop) (s : Session σ) : Prop where
  arrays : ∀ id a, s.arrays.get? id = some a → K a.engine
  scopes : ∀ S c, s.scopes.get? S = some c → K c.engine

theorem Session.equipped_trivial {σ : Type} (s : Session σ) : s.Equipped fun _ => True :=
  ⟨fun _ _ _ => trivial, fun _ _ _ => trivial⟩

namespace Backends

/-- Moves lead from `s` to `t`. -/
structure Leads [HalfPrecision] (K : LoadedEngine Backends → Prop) (s t : Session Backends) :
    Prop where
  numbered : s.native.Numbered
  work : Work (s.native.mandate K) s t

theorem leads_refl (hs : Tended custody W s) (hK : s.Equipped K) : Leads K s s where
  numbered := numbered_tended hs
  work :=
    { arrays := fun id a ha =>
        ⟨hs.account.opened _ (Watch.mem_libraries (hs.arrays id a ha)), hK.arrays id a ha⟩
      scopes := fun S c hc =>
        ⟨hs.account.opened _ (Watch.mem_libraries (hs.scopes S c hc)), hK.scopes S c hc⟩
      moves := .refl }

theorem leads_after {α : Type} (hs : Tended custody W s) (hK : s.Equipped K)
    {a : Action (Session Backends) α} (ha : Keeps (Work (s.native.mandate K) s) a) :
    Leads K s (a.after s) :=
  ⟨numbered_tended hs, ha.after (leads_refl hs hK).work⟩

/-- A library that an engine of the kind can be loaded from. -/
structure Loadable (K : LoadedEngine Backends → Prop) (lib : Library Backends) : Prop where
  exists_table : ∃ t, K ⟨0, lib, t⟩
  load : ∀ id n t m, OperatorTable.load lib n = .ok t m → K ⟨id, lib, t⟩

theorem leads_build (hs : Tended custody W s) (hK : s.Equipped K) (hlib : lib ∈ W.libraries)
    (hload : Loadable K lib) (c : Configuration) (device : Device) :
    Meets (· = s) (Engine.build lib c device) (fun e t => K e.loaded ∧ Leads K s t) (Leads K s) := by
  have hfronts := hs.account.opened lib hlib
  obtain ⟨t₀, ht₀⟩ := hload.exists_table
  have hbuild : Meets (Work (s.native.mandate K) s) (Engine.build lib c device)
      (fun e t => (s.native.mandate K).admits e.loaded ∧ Work (s.native.mandate K) s t)
      (Work (s.native.mandate K) s) :=
    works_build (e := ⟨0, lib, t₀⟩) (M := s.native.mandate K) ⟨hfronts, ht₀⟩
      (fun id n t m h => ⟨hfronts, hload.load id n t m h⟩) c device
  have hleads : ∀ t, Work (s.native.mandate K) s t → Leads K s t := fun t ht =>
    ⟨numbered_tended hs, ht⟩
  exact (hbuild.start (leads_refl hs hK).work).imp (fun _ h => h)
    (fun _ t ht => ⟨ht.1.2, hleads t ht.2⟩) hleads

def opened (b : Backends) : Backends := { b with references := b.references ++ [.initial] }

theorem reference_opened (b : Backends) (i : Nat) : b.opened.reference i = b.reference i := by
  unfold Backends.reference opened
  by_cases hi : i < b.references.length
  · rw [List.getD_append _ _ _ _ hi]
  · rw [List.getD_append_right _ _ _ _ (Nat.not_lt.1 hi),
      List.getD_eq_default b.references _ (Nat.not_lt.1 hi), List.getD_eq_getElem?_getD]
    cases i - b.references.length <;> rfl

/-- Between operations an engine may be opened, or called by the program itself. -/
inductive Stems [HalfPrecision] (b : Backends) : Backends → Prop
  | same : Stems b b
  | opened : Stems b b.opened
  | called {lib : Library Backends} (hlib : b.Fronts lib) (c : Library.Call) :
    Stems b (c.step lib b)

theorem Stems.grows {b n : Backends} (h : b.Stems n) : b.Grows n := by
  cases h with
  | same => exact .refl b
  | opened => exact grows_opened b
  | called hlib c => exact hlib.step c b

theorem tended_opened (load : Foreign.Loader) (hs : Tended custody W s) {c : Configuration}
    (hc : c.library = .reference) :
    Tended custody (W.provide (referenceLibrary s.native.references.length c.simulatedGpus))
      { s with native := s.native.opened } :=
  (tended_open (custody_opens load) hc).of_ok hs
    (onNative_ok (openLibrary_reference load hc s.native))

/-- An engine is opened in front of a library that was opened before, or in front of a new one. -/
theorem opening_cases {p : Program Backends} {a : Action (Session Backends) (Engine Backends)}
    (ha : p.Opening (openLibrary load) a) :
    (∃ x, a p.session = .error x p.session) ∨
    (∃ lib ∈ p.libraries, ∃ c device, a p.session = Engine.build lib c device p.session) ∨
    ∃ c device, c.library = .reference ∧ a p.session =
      Engine.build (referenceLibrary p.session.native.references.length c.simulatedGpus) c device
        { p.session with native := p.session.native.opened } := by
  have hread : ∀ (r : Except Error Device) (f : Device → Action (Session Backends)
      (Engine Backends)), (∃ x, (Action.ofExcept r >>= f) p.session = .error x p.session) ∨
        ∃ device, (Action.ofExcept r >>= f) p.session = f device p.session := by
    intro r f
    cases r with
    | error x => exact .inl ⟨x, bind_error (a := Action.ofExcept (.error x)) rfl⟩
    | ok device => exact .inr ⟨device, bind_of_ok (a := Action.ofExcept (.ok device)) rfl⟩
  cases ha with
  | @configured c hc =>
    rcases hread c.device fun device => do Engine.build (← onNative (openLibrary load c)) c device
      with hrefused | ⟨device, hbuild⟩
    · exact .inl hrefused
    · have hopen := onNative_ok (openLibrary_reference load hc p.session.native)
      exact .inr (.inr ⟨c, device, hc, hbuild.trans (bind_of_ok hopen)⟩)
  | @around lib hlib =>
    rcases hread Configuration.standard.device fun device => Engine.build lib .standard device
      with hrefused | ⟨device, hbuild⟩
    · exact .inl hrefused
    · exact .inr (.inl ⟨lib, hlib, .standard, device, hbuild⟩)

theorem leads_opening {p : Program Backends} (hs : Tended custody W p.session)
    (hW : p.watch.Within W) {a : Action (Session Backends) (Engine Backends)}
    (ha : p.Opening (openLibrary load) a) :
    ∃ n, p.session.native.Stems n ∧
      Leads (fun _ => True) { p.session with native := n } (a.after p.session) := by
  have hbuilt : ∀ {W' : Watch Backends} {s : Session Backends} {lib : Library Backends},
      Tended custody W' s → lib ∈ W'.libraries → ∀ c device,
        Leads (fun _ => True) s ((Engine.build lib c device).after s) := by
    intro W' s lib hs hlib c device
    have hbuild := leads_build hs (equipped_trivial s) hlib
      ⟨⟨.empty, trivial⟩, fun _ _ _ _ _ => trivial⟩ c device
    have hleads : Meets (· = s) (Engine.build lib c device) (fun _ => Leads (fun _ => True) s)
        (Leads (fun _ => True) s) := hbuild.to_imp fun _ _ h => h.2
    exact hleads.after rfl
  rcases opening_cases ha with ⟨x, hr⟩ | ⟨lib, hlib, c, device, hr⟩ | ⟨c, device, hc, hr⟩
  · rw [after_error hr]
    exact ⟨p.session.native, .same, leads_refl hs (equipped_trivial _)⟩
  · rw [after_eq hr]
    exact ⟨p.session.native, .same,
      hbuilt hs (hW.libraries (List.mem_append_left _ hlib)) c device⟩
  · rw [after_eq hr]
    exact ⟨p.session.native.opened, .opened,
      hbuilt (tended_opened load hs hc) List.mem_cons_self c device⟩

theorem leads_turn {p q : Program Backends} (hp : Employs custody p.watch p.session)
    (hturn : p.Turn (openLibrary load) Operation.Sized q) :
    ∃ n, p.session.native.Stems n ∧
      Leads (fun _ => True) { p.session with native := n } q.session := by
  obtain ⟨W, hW, hs⟩ := hp
  cases hturn with
  | provided hc hopen =>
    have hprovided := onNative_ok (openLibrary_reference load hc p.session.native)
    obtain ⟨-, rfl⟩ := EStateM.Result.ok.inj (hopen.symm.trans hprovided)
    exact ⟨_, .opened, leads_refl (tended_opened load hs hc) (equipped_trivial _)⟩
  | opened ha hopen => exact after_ok hopen ▸ leads_opening hs hW ha
  | refused ha hopen => exact after_error hopen ▸ leads_opening hs hW ha
  | @performed e he op hop =>
    have hlib := hs.account.opened _ (Watch.mem_libraries (hW.roster (List.mem_map_of_mem he)))
    have hadmits : (p.session.native.mandate fun _ => True).admits e.loaded := ⟨hlib, trivial⟩
    have hworks : Keeps (Work (p.session.native.mandate fun _ => True) p.session) (op.perform e) :=
      op.works_perform hadmits (mandate_allows hop _)
    exact ⟨p.session.native, .same, leads_after hs (equipped_trivial _) hworks⟩

end Backends

namespace Session

open Backends Reference

variable {W : Watch Backends} {s : Session Backends} {lib : Library Backends} {h : Handle}

/-- The handle is live in the engine behind the library, and no array of that engine owns it. -/
def Loose [HalfPrecision] (s : Session Backends) (lib : Library Backends) (h : Handle) : Prop :=
  ∃ i gpus, lib = referenceLibrary i gpus ∧ h.id ∈ (s.native.reference i).entries.keys ∧
    ∀ id a gpus', s.arrays.get? id = some a → a.engine.library = referenceLibrary i gpus' →
      a.owned ≠ ⟨h⟩

theorem tended_called (hs : Tended custody W s) (hlib : lib ∈ W.libraries) {c : Library.Call}
    (hc : c.frees = false) : Tended custody W { s with native := c.step lib s.native } := by
  obtain ⟨i, gpus, hi, rfl⟩ := hs.account.opened lib hlib
  have hcall := fun base => ((bookkept_live base).accounted gpus).meets_call c hc
  have hkept : Meets (fun b => i < b.references.length ∧
        Stocks b W.libraries (W.owed ++ s.arrays.custody))
      ((c.perform (library gpus)).zoom (fun b : Backends => b.reference i)
        fun s b => { b with references := b.references.set i s })
      (fun _ b => Stocks b W.libraries (W.owed ++ s.arrays.custody))
      (Stocks · W.libraries (W.owed ++ s.arrays.custody)) :=
    (meets_stocks [] c.brings hcall i gpus).to_imp fun _ _ hn =>
      custody.settle (List.sublist_append_right _ _).subperm hn
  have haccount : Stocks (c.step (referenceLibrary i gpus) s.native) W.libraries
      (W.owed ++ s.arrays.custody) := by
    unfold Library.Call.step
    rw [referenceLibrary, Library.perform_zoom]
    exact hkept.after ⟨hi, hs.account⟩
  exact { hs with account := haccount }

theorem live_take {base : List Nat} {n : State} {owned : List Handle} (hn : Live base n owned)
    (hh : h.id ∈ n.entries.keys) (hfree : h ∉ owned) : ∃ base', Live base' n (h :: owned) := by
  have hmem : h.id ∈ base := by
    rcases List.mem_append.1 (hn.perm.subset hh) with hbase | howned
    · exact hbase
    · obtain ⟨h', hh', hid⟩ := List.mem_map.1 howned
      exact absurd (id_eq_iff.1 hid ▸ hh') hfree
  refine ⟨base.erase h.id, hn.counted, hn.perm.trans ?_⟩
  refine ((List.perm_cons_erase hmem).append_right _).trans ?_
  exact List.perm_middle.symm

theorem stocks_take {b : Backends} {libs : List (Library Backends)}
    {kept : List (Library Backends × Handle)} (hb : Stocks b libs kept) {i gpus : Nat}
    (hi : i < b.references.length) (hh : h.id ∈ (b.reference i).entries.keys)
    (hfree : h ∉ handlesOf i kept) : Stocks b libs ((referenceLibrary i gpus, h) :: kept) := by
  refine ⟨hb.opened, fun p hp => ?_, fun j hj => ?_⟩
  · rcases List.mem_cons.1 hp with rfl | hp
    · exact ⟨i, gpus, hi, rfl⟩
    · exact hb.origin p hp
  · obtain ⟨base, hlive⟩ := hb.live j hj
    by_cases hji : j = i
    · subst hji
      have hkept : handlesOf j ((referenceLibrary j gpus, h) :: kept) = h :: handlesOf j kept :=
        handlesOf_append_self [h]
      exact hkept ▸ live_take hlive hh hfree
    · have hother : ∀ gpus', referenceLibrary i gpus ≠ referenceLibrary j gpus' :=
        fun gpus' h => hji (place_inj hi h)
      have hkept : handlesOf j ((referenceLibrary i gpus, h) :: kept) = handlesOf j kept :=
        handlesOf_append_of_ne hother [h]
      exact ⟨base, hkept ▸ hlive⟩

theorem exists_of_mem_custody {σ : Type} {arrays : Table (Tensor σ)} {lib : Library σ}
    (hdistinct : arrays.keys.Nodup) (hh : (lib, h) ∈ arrays.custody) :
    ∃ id a, arrays.get? id = some a ∧ a.engine.library = lib ∧ a.owned = ⟨h⟩ := by
  obtain ⟨⟨id, a⟩, he, hclaim⟩ := List.mem_flatMap.1 hh
  refine ⟨id, a, Table.get?_eq_some_of_mem hdistinct he, ?_⟩
  unfold OwnedHandle.claim at hclaim
  split at hclaim
  · exact absurd hclaim List.not_mem_nil
  · obtain ⟨hlib, rfl⟩ := Prod.mk.inj (List.mem_singleton.1 hclaim)
    exact ⟨hlib.symm, rfl⟩

theorem tended_owed (hs : Tended custody W s) (hlib : lib ∈ W.libraries) (hloose : s.Loose lib h) :
    Tended custody ({ W with owed := [] }.owe lib [h]) s := by
  have hsettled : Tended custody { W with owed := [] } s :=
    hs.mono rfl (List.Subset.refl _) (List.Subset.refl _) List.nil_subperm
  obtain ⟨i, gpus, rfl, hh, hunowned⟩ := hloose
  obtain ⟨j, gpus', hj, heq⟩ := hs.account.opened _ hlib
  obtain rfl := place_inj hj heq.symm
  have hfree : h ∉ handlesOf i s.arrays.custody := fun hmem => by
    obtain ⟨⟨lib, h'⟩, hkept, hplace⟩ := List.mem_filterMap.1 hmem
    obtain ⟨⟨gpus', rfl⟩, hsome⟩ := Option.ite_none_right_eq_some.1 hplace
    obtain rfl := Option.some.inj hsome
    obtain ⟨id, a, ha, hlib, howned⟩ := exists_of_mem_custody hs.distinct hkept
    exact hunowned id a gpus' ha hlib howned
  exact { hsettled with account := stocks_take hsettled.account hj hh hfree }

theorem fromHandle_eq {σ : Type} {s : Session σ} {S : ScopeId} {c : Scope σ}
    (hS : s.scopes.get? S = some c) (h : Handle) (known : Option Description) :
    fromHandle S h known s = keeping (do attach (some S) (s.lastId + 1); return s.lastId + 1)
      (s.wrapped c.engine h known) := by
  have hsettled : ∀ {α : Type} {a b : Action (Session σ) α} {t : Session σ}, a s = b t →
      settled a s = settled b t := by
    intro α a b t hab
    have houtcome : a.outcome s = b.outcome t := by
      unfold Action.outcome
      rw [hab]
    unfold settled
    show EStateM.bind _ _ _ = EStateM.bind _ _ _
    unfold EStateM.bind
    rw [houtcome]
  refine hsettled ?_
  have hinner : (do
      let c ← scope S
      let new ← wrap c.engine h known
      attach (some S) new
      return new) s = (do attach (some S) (s.lastId + 1); return s.lastId + 1)
        (s.wrapped c.engine h known) :=
    (bind_of_ok (scope_eq hS)).trans (bind_of_ok (wrap_eq s c.engine h known))
  show EStateM.bind _ _ _ = EStateM.bind _ _ _
  unfold EStateM.bind
  rw [hinner]

theorem employs_taken (hs : Tended custody W s) {e : LoadedEngine Backends} (he : e ∈ W.roster)
    (hloose : s.Loose e.library h) (known : Option Description) :
    Employs custody W (s.wrapped e h known) := by
  let settled : Watch Backends := { W with owed := [] }
  have howed : Tended custody (settled.owe e.library [h]) s :=
    tended_owed hs (Watch.mem_libraries he) hloose
  have hwrap := tended_wrap (C := custody) (W := settled) (E := fun _ => True) he h known
  have hwithin : W.Within (settled.pin [s.lastId + 1] e) :=
    ⟨List.Subset.refl _, List.Subset.refl _⟩
  exact ⟨_, hwithin, hwrap.of_ok howed (wrap_eq s e h known)⟩

end Session

/-- A program, and the arrays that it described when it made them around handles. -/
structure History where
  program : Program Backends
  described : List ArrayId

namespace History

open Backends

def start : History := ⟨.start .initial, []⟩

def resume (g : History) (s : Session Backends) : History :=
  { g with program := { g.program with session := s } }

def session (g : History) : Session Backends := g.program.session

def noted (s : Session Backends) (described : List ArrayId) : Option Description → List ArrayId
  | none => described
  | some _ => (s.lastId + 1) :: described

inductive Next [HalfPrecision] (load : Foreign.Loader) (g : History) : History → Prop
  | turned {p : Program Backends}
    (h : g.program.Turn (openLibrary load) Operation.Sized p) : Next load g { g with program := p }
  /-- The libraries of engines can be called by themselves. -/
  | called {lib : Library Backends} (hlib : lib ∈ g.program.watch.libraries) {c : Library.Call}
    (hc : c.frees = false) :
    Next load g (g.resume { g.session with native := c.step lib g.session.native })
  | taken {S : ScopeId} {c : Scope Backends} (hS : g.session.scopes.get? S = some c) {h : Handle}
    (hloose : g.session.Loose c.engine.library h) (known : Option Description) :
    Next load g { g.resume ((fromHandle S h known).after g.session) with
      described := noted g.session g.described known }

/-- What is done to a session before moves go on. -/
inductive Stirred [HalfPrecision] (s : Session Backends) (described : List ArrayId) :
    Session Backends → List ArrayId → Prop
  | native {n : Backends} (hn : s.native.Stems n) :
    Stirred s described { s with native := n } described
  | wrapped (e : LoadedEngine Backends) (h : Handle) (known : Option Description) :
    Stirred s described (s.wrapped e h known) (noted s described known)

variable {g g' : History}

def Employs [HalfPrecision] (g : History) : Prop :=
  Session.Employs custody g.program.watch g.session

theorem employs_start : start.Employs := by
  let load : Foreign.Loader := fun _ => .ok []
  have hstart : ReflTransGen (Program.Next (openLibrary load)) (.start .initial) start.program :=
    .refl
  exact employs_reached hstart

theorem Next.employs (hnext : Next load g g') (hg : g.Employs) : g'.Employs := by
  cases hnext with
  | turned h => exact h.next.employs (custody_opens load) hg
  | called hlib hc =>
    obtain ⟨W, hW, hs⟩ := hg
    exact ⟨W, hW, tended_called hs (hW.libraries hlib) hc⟩
  | @taken S c hS h hloose known =>
    obtain ⟨W, hW, hs⟩ := hg
    obtain ⟨W', hW', ht⟩ := employs_taken hs (hs.scopes S c hS) hloose known
    have hjoined : Keeps (Tended custody W') (keeping do
        attach (some S) (g.session.lastId + 1); return g.session.lastId + 1) :=
      tended_keeping ((tended_attach _ _).bind fun _ => keeps_pure _)
    refine ⟨W', hW.trans hW', ?_⟩
    show Tended custody W' ((fromHandle S h known).after g.session)
    rw [after_eq (fromHandle_eq hS h known)]
    exact hjoined.after ht

theorem Next.leads (hnext : Next load g g') (hg : g.Employs) :
    ∃ s, Stirred g.session g.described s g'.described ∧ Leads (fun _ => True) s g'.session := by
  cases hnext with
  | turned h =>
    obtain ⟨n, hn, hleads⟩ := leads_turn hg h
    exact ⟨_, .native hn, hleads⟩
  | @called lib hlib c hc =>
    obtain ⟨W, hW, hs⟩ := hg
    have hfronts := hs.account.opened lib (hW.libraries hlib)
    have htended := tended_called hs (hW.libraries hlib) hc
    exact ⟨_, .native (.called hfronts c), leads_refl htended (equipped_trivial _)⟩
  | @taken S c hS h hloose known =>
    obtain ⟨W, hW, hs⟩ := hg
    obtain ⟨W', hW', ht⟩ := employs_taken hs (hs.scopes S c hS) hloose known
    refine ⟨_, .wrapped c.engine h known, ?_⟩
    show Leads _ _ ((fromHandle S h known).after g.session)
    rw [after_eq (fromHandle_eq hS h known)]
    refine leads_after ht (equipped_trivial _) (works_keeping ?_)
    exact (works_attach _ _).bind fun _ => keeps_pure _

end History
end ScopedTensor
