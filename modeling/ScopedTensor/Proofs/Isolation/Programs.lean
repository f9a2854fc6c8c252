import Mathlib.Logic.Relation
import ScopedTensor.Proofs.Isolation.Conduct

/-! Programs with any number of engines. An engine is opened from a configuration, or around a
library that was opened before, which engines may share; operations are performed on the engines that
were opened; a program goes on after what failed. -/

namespace ScopedTensor

open ScopedTensor.Action Session Relation

variable {half : HalfPrecision}
variable {σ : Type} {C : Custody σ} {V W : Watch σ} {lib : Library σ}
variable {openLibrary : Configuration → Action σ (Library σ)}

structure Program (σ : Type) where
  session : Session σ
  /-- Libraries that were opened by themselves. -/
  libraries : List (Library σ)
  engines : List (Engine σ)

namespace Program

def start (n : σ) : Program σ := ⟨.start n, [], []⟩

def watch (p : Program σ) : Watch σ :=
  { opened := p.libraries, roster := p.engines.map Engine.loaded }

/-- How a program opens an engine in front of a reference library. -/
inductive Opening (openLibrary : Configuration → Action σ (Library σ)) (p : Program σ) :
    Action (Session σ) (Engine σ) → Prop
  | configured {c : Configuration} (hc : c.library = .reference) :
      Opening openLibrary p (Engine.ofConfiguration openLibrary c)
  | around {lib : Library σ} (hlib : lib ∈ p.libraries) :
      Opening openLibrary p (Engine.ofLibrary lib)

/-- What a program over reference engines may do next. -/
inductive Next [HalfPrecision] (openLibrary : Configuration → Action σ (Library σ)) :
    Program σ → Program σ → Prop
  | provided {p : Program σ} {c : Configuration} (hc : c.library = .reference) {lib : Library σ}
      {t : Session σ} (hopen : onNative (openLibrary c) p.session = .ok lib t) :
      Next openLibrary p { p with session := t, libraries := lib :: p.libraries }
  | opened {p : Program σ} {a : Action (Session σ) (Engine σ)} (ha : p.Opening openLibrary a)
      {e : Engine σ} {t : Session σ} (hopen : a p.session = .ok e t) :
      Next openLibrary p { p with session := t, engines := e :: p.engines }
  | refused {p : Program σ} {a : Action (Session σ) (Engine σ)} (ha : p.Opening openLibrary a)
      {x : Error} {t : Session σ} (hopen : a p.session = .error x t) :
      Next openLibrary p { p with session := t }
  | performed {p : Program σ} {e : Engine σ} (he : e ∈ p.engines) (op : Operation) :
      Next openLibrary p { p with session := op.step e p.session }

end Program

def Custody.Opens (C : Custody σ) (openLibrary : Configuration → Action σ (Library σ)) : Prop :=
  ∀ c : Configuration, c.library = .reference → ∀ libs kept, Meets (C.account · libs kept)
    (openLibrary c) (fun lib n => C.account n (lib :: libs) kept) (C.account · libs kept)

namespace Watch

def provide (W : Watch σ) (lib : Library σ) : Watch σ := { W with opened := lib :: W.opened }

/-- All libraries and engines are there, and others perhaps. -/
structure Within (V W : Watch σ) : Prop where
  libraries : V.libraries ⊆ W.libraries
  roster : V.roster ⊆ W.roster

theorem Within.refl (W : Watch σ) : W.Within W := ⟨List.Subset.refl _, List.Subset.refl _⟩

theorem Within.trans {U : Watch σ} (h : U.Within V) (h' : V.Within W) : U.Within W :=
  ⟨List.Subset.trans h.libraries h'.libraries, List.Subset.trans h.roster h'.roster⟩

theorem mem_libraries_enrol {e : LoadedEngine σ} {l : Library σ} :
    l ∈ (W.enrol e).libraries ↔ l = e.library ∨ l ∈ W.libraries := by
  simp only [libraries, enrol, List.map_cons, List.mem_append, List.mem_cons, or_left_comm]

theorem within_enrol (W : Watch σ) (e : LoadedEngine σ) : W.Within (W.enrol e) :=
  ⟨fun _ hl => mem_libraries_enrol.2 (.inr hl), List.subset_cons_self _ _⟩

theorem Within.enrol (h : V.Within W) (e : LoadedEngine σ) : (V.enrol e).Within (W.enrol e) :=
  ⟨fun _ hl => mem_libraries_enrol.2 ((mem_libraries_enrol.1 hl).imp_right (h.libraries ·)),
    List.cons_subset_cons _ h.roster⟩

theorem Within.provide (h : V.Within W) (lib : Library σ) :
    (V.provide lib).Within (W.provide lib) :=
  ⟨List.cons_subset_cons _ h.libraries, h.roster⟩

theorem within_provide (W : Watch σ) (lib : Library σ) : W.Within (W.provide lib) :=
  ⟨List.subset_cons_self _ _, List.Subset.refl _⟩

end Watch

/-- The engines live in the session, with others perhaps that were never finished. -/
def Session.Employs (C : Custody σ) (W : Watch σ) (s : Session σ) : Prop :=
  ∃ W' : Watch σ, W.Within W' ∧ Tended C W' s

theorem Session.Tended.employs {s : Session σ} (hs : Tended C W s) : Employs C W s :=
  ⟨W, .refl W, hs⟩

theorem Session.Employs.within {s : Session σ} (hs : Employs C W s) (h : V.Within W) :
    Employs C V s :=
  let ⟨W', hW', hs⟩ := hs
  ⟨W', h.trans hW', hs⟩

theorem tended_enrol (hlib : lib ∈ W.libraries) (operators : OperatorTable) :
    Meets (Tended C W) freshId (fun id => Tended C (W.enrol ⟨id, lib, operators⟩))
      (Employs C W) := by
  intro s hs
  have hnew : ∀ e ∈ W.roster, e.id ≠ s.lastId + 1 := fun e he heq =>
    Nat.not_succ_le_self _ (heq ▸ hs.numbered e he)
  exact
    { hs.counted with
      arrays := fun id a ha => List.mem_cons_of_mem _ (hs.arrays id a ha)
      scopes := fun S c hc => List.mem_cons_of_mem _ (hs.scopes S c hc)
      numbered := fun e he => by
        rcases List.mem_cons.1 he with rfl | he
        · exact Nat.le_refl _
        · exact Nat.le_succ_of_le (hs.numbered e he)
      unique := fun e he e' he' hid => by
        rcases List.mem_cons.1 he with rfl | he <;> rcases List.mem_cons.1 he' with rfl | he'
        · rfl
        · exact absurd hid.symm (hnew e' he')
        · exact absurd hid (hnew e he)
        · exact hs.unique e he e' he' hid
      account := by
        refine C.fewer (fun l hl => ?_) (List.Subperm.refl _) hs.account
        rcases Watch.mem_libraries_enrol.1 hl with rfl | hl
        · exact hlib
        · exact hl }

theorem tended_build (hlib : lib ∈ W.libraries) (c : Configuration) (device : Device) :
    Meets (Tended C W) (Engine.build lib c device) (fun e => Tended C (W.enrol e.loaded))
      (Employs C W) := by
  unfold Engine.build
  refine ((tended_call (Custody.uses_load hlib)).imp (fun _ hs => hs) (fun _ _ hs => hs)
    fun _ hs => hs.employs).bind fun operators => ?_
  refine (tended_enrol hlib operators).bind fun id => ?_
  have he : (⟨id, lib, operators⟩ : LoadedEngine σ) ∈ (W.enrol ⟨id, lib, operators⟩).roster :=
    List.mem_cons_self
  refine Meets.imp (P := Tended C (W.enrol ⟨id, lib, operators⟩))
    (Q := fun e s => e.loaded = ⟨id, lib, operators⟩ ∧ Tended C (W.enrol ⟨id, lib, operators⟩) s)
    (E := Tended C (W.enrol ⟨id, lib, operators⟩)) ?_ (fun _ hs => hs)
    (fun e s hs => hs.1 ▸ hs.2) fun _ hs => ⟨_, W.within_enrol _, hs⟩
  refine (Meets.forM_option (fun seed => tended_call (C.serves (Watch.mem_libraries he)
    (.randomSeed seed) rfl (g := fun _ => .done) rfl)) c.randomSeed).bind fun _ => ?_
  exact (tended_newScope he _ _ _).bind fun system => .pure fun _ hs => ⟨rfl, hs⟩

theorem tended_ofLibrary (hlib : lib ∈ W.libraries) :
    Meets (Tended C W) (Engine.ofLibrary lib) (fun e => Tended C (W.enrol e.loaded))
      (Employs C W) := by
  unfold Engine.ofLibrary
  generalize Configuration.standard.device = device?
  exact Meets.bind (Q := fun _ => Tended C W)
    (.ofExcept (fun _ _ _ hs => hs) fun _ hs => hs.employs) fun device =>
      tended_build hlib .standard device

theorem tended_open (hC : C.Opens openLibrary) {c : Configuration} (hc : c.library = .reference) :
    Meets (Tended C W) (onNative (openLibrary c)) (fun lib => Tended C (W.provide lib))
      (Tended C W) := by
  refine .zoom fun s hs => ?_
  have hn := (hC c hc W.libraries (W.owed ++ s.arrays.custody)) s.native hs.account
  cases hr : openLibrary c s.native with
  | ok lib n =>
    rw [hr] at hn
    exact { hs with account := hn }
  | error x n =>
    rw [hr] at hn
    exact { hs with account := hn }

theorem employs_ofConfiguration (hC : C.Opens openLibrary) {c : Configuration}
    (hc : c.library = .reference) :
    Meets (Tended C W) (Engine.ofConfiguration openLibrary c)
      (fun e => Employs C (W.enrol e.loaded)) (Employs C W) := by
  unfold Engine.ofConfiguration
  generalize c.device = device?
  refine Meets.bind (Q := fun _ => Tended C W)
    (.ofExcept (fun _ _ _ hs => hs) fun _ hs => hs.employs) fun device => ?_
  refine Meets.bind (Q := fun lib => Tended C (W.provide lib))
    ((tended_open hC hc).imp (fun _ hs => hs) (fun _ _ hs => hs) fun _ hs => hs.employs)
    fun lib => ?_
  exact (tended_build List.mem_cons_self c device).imp (fun _ hs => hs)
    (fun e _ hs => hs.employs.within ((W.within_provide lib).enrol e.loaded))
    fun _ hs => hs.within (W.within_provide lib)

namespace Program

variable {n : σ} {p q : Program σ} {a : Action (Session σ) (Engine σ)}

theorem employs_start (hn : C.account n [] []) : Employs C (start n).watch (start n).session :=
  Tended.employs
    { distinct := List.nodup_nil
      bounded := fun _ h => absurd h (by simp [start, Session.start, Table.keys, Table.empty])
      arrays := fun _ _ h => absurd h nofun
      scopes := fun _ _ h => absurd h nofun
      numbered := nofun
      unique := nofun
      pins := nofun
      account := hn }

theorem Opening.employs (hC : C.Opens openLibrary) (ha : p.Opening openLibrary a) :
    Meets (Employs C p.watch) a (fun e => Employs C (p.watch.enrol e.loaded))
      (Employs C p.watch) := by
  rintro s ⟨W, hW, hs⟩
  have hopens : Meets (Tended C W) a (fun e => Employs C (W.enrol e.loaded)) (Employs C W) := by
    cases ha with
    | configured hc => exact employs_ofConfiguration hC hc
    | around hlib =>
      have hopens := tended_ofLibrary (C := C) (hW.libraries (List.mem_append_left _ hlib))
      exact hopens.to_imp fun _ _ hs => hs.employs
  exact hopens.imp (fun _ hs => hs) (fun e _ ht => ht.within (hW.enrol e.loaded))
    (fun _ ht => ht.within hW) s hs

theorem Next.employs (hC : C.Opens openLibrary) (hnext : Next openLibrary p q)
    (hp : Employs C p.watch p.session) : Employs C q.watch q.session := by
  cases hnext with
  | provided hc hopen =>
    obtain ⟨W, hW, hs⟩ := hp
    exact ⟨_, hW.provide _, (tended_open hC hc).of_ok hs hopen⟩
  | opened ha hopen => exact (ha.employs hC).of_ok hp hopen
  | refused ha hopen => exact (ha.employs hC).of_error hp hopen
  | performed he op =>
    obtain ⟨W, hW, hs⟩ := hp
    exact ⟨W, hW, (Operation.tended_perform (hW.roster (List.mem_map_of_mem he)) op).after hs⟩

theorem employs_reached (hC : C.Opens openLibrary) (hn : C.account n [] [])
    (hp : ReflTransGen (Next openLibrary) (start n) p) : Employs C p.watch p.session := by
  induction hp with
  | refl => exact employs_start hn
  | tail _ hnext ih => exact hnext.employs hC ih

theorem reaches_run {e : Engine σ} (he : e ∈ p.engines) (ops : List Operation) :
    ReflTransGen (Next openLibrary) p { p with session := Operation.run e p.session ops } := by
  induction ops generalizing p with
  | nil => exact .refl
  | cons op ops ih => exact .head (.performed he op) (ih he)

theorem exists_reached [HalfPrecision] (openLibrary : Configuration → Action σ (Library σ)) (n : σ)
    {c : Configuration} (hc : c.library = .reference) (ops : List Operation)
    (test : Session σ → Bool) (h : (match Engine.ofConfiguration openLibrary c (.start n) with
      | .ok _ s => match Engine.ofConfiguration openLibrary c s with
        | .ok e t => test (Operation.run e t ops)
        | .error _ _ => false
      | .error _ _ => false) = true) :
    ∃ p, ReflTransGen (Next openLibrary) (.start n) p ∧ p.engines ≠ [] ∧
      test p.session = true := by
  split at h
  · rename_i e s hopen
    split at h
    · rename_i e' t hopen'
      have hfirst : Next openLibrary (.start n) ⟨s, [], [e]⟩ :=
        .opened (.configured hc) hopen
      have hsecond : Next openLibrary ⟨s, [], [e]⟩ ⟨t, [], [e', e]⟩ :=
        .opened (.configured hc) hopen'
      exact ⟨_, (ReflTransGen.tail (.single hfirst) hsecond).trans
        (reaches_run List.mem_cons_self ops), List.cons_ne_nil _ _, h⟩
    · exact absurd h nofun
  · exact absurd h nofun

end Program
end ScopedTensor
